import EventHorizon.Attestation.Agreement
import EventHorizon.Attestation.Quote
import EventHorizon.Library.Base64
import EventHorizon.Library.Table

/-!
# Verifying a TPM quote

`verifyTpmQuote` of `attestation/packages/core/src/tpm.ts`. A quote is valid when its signature, its
nonce and its signer are right, and when the values of the registers that come with it hash to its
digest and are what the event log replays to. `justified_of_verifyTpmQuote` says what a valid quote
has shown.

The evidence is JSON that was parsed, so an object has each of its keys once. A number that is no
integer fails the checks of an event like a value that is no number, and it is not distinguished
from one.
-/

namespace EventHorizon.Attestation

/-! ## Text -/

/-- `keys.sort()`, by code units. -/
def sortUnits (keys : List JsString) : List JsString := keys.insertionSort fun s t ↦ ¬t < s

/-- The value of a lower-case hexadecimal digit. -/
def hexUnit? (u : UInt16) : Option ℕ :=
  if 0x30 ≤ u ∧ u ≤ 0x39 then some (u.toNat - 0x30)
  else if 0x61 ≤ u ∧ u ≤ 0x66 then some (u.toNat - 0x61 + 10)
  else none

/-- `Buffer.from(value, 'hex')`: what comes before the first pair that is no octet. -/
def fromHex : JsString → Buffer
  | a :: b :: rest =>
    match hexUnit? a, hexUnit? b with
    | some x, some y => UInt8.ofNat (x * 16 + y) :: fromHex rest
    | _, _ => []
  | _ => []

/-- `/^[0-9a-f]+$/.test(value) && value.length === size * 2`, for a size that is not zero. -/
def isHexOf (size : ℕ) (value : JsString) : Bool :=
  value.all (fun u ↦ (hexUnit? u).isSome) && value.length == size * 2

/-- The base64url alphabet. -/
def base64UrlUnits : JsString := base64UrlAlphabet.map fun c ↦ .ofNat c.toNat

def strictBase64url (value : Option JsValue) (name : String) : Except JsError Buffer :=
  match value with
  | some (.string s) => do
    raiseIf (s = [] ∨ ∃ u ∈ s, u ∉ base64UrlUnits) (.typeError (name ++ " is not base64url"))
    match Base64.decode base64UrlUnits s with
    | some decoded => do
      raiseIf (decoded = [] ∨ Base64.encode base64UrlUnits decoded ≠ s)
        (.typeError (name ++ " is not canonical base64url"))
      return decoded.map UInt8.ofNat
    | none => throw (.typeError (name ++ " is not canonical base64url"))
  | _ => .error (.typeError (name ++ " is not base64url"))

/-! ## What Node provides -/

/-- `node:crypto`. -/
class NodeCrypto where
  /-- `createHash(algorithm).update(data).digest()`. -/
  createHash : JsString → Buffer → Buffer
  PublicKey : Type
  /-- `createPublicKey`, or the message of what it throws. -/
  createPublicKey : JsString → Except String PublicKey
  /-- `asymmetricKeyType === 'rsa'`. -/
  isRsa : PublicKey → Bool
  /-- The verifier of a signature, the last argument, of some data. -/
  verify : PublicKey → Buffer → Buffer → Except String Bool

open NodeCrypto (createHash)

section Verify

variable [NodeCrypto]

/-! ## The registers -/

/-- The key of a register. -/
def pcrKey (selection : TpmPcrSelection) (pcr : ℕ) : String :=
  selection.algorithm ++ ":" ++ toString pcr

/-- The registers of a selection, with the identifiers of their banks. -/
def registers (parsed : ParsedTpmQuote) : List (ℕ × String) :=
  parsed.pcrSelections.flatMap fun selection ↦
    selection.selectedPcrs.map fun pcr ↦ (selection.algorithmId, pcrKey selection pcr)

def expectedPcrKeys (parsed : ParsedTpmQuote) : List JsString :=
  (registers parsed).map fun r ↦ .ofAscii r.2

/-- The body of the loops of `reconstructPcrDigest`. -/
def readRegister (pcrValues : List (JsString × JsValue)) (r : ℕ × String) :
    Except JsError (JsString × JsString) :=
  match hashAlgorithms.lookup r.1 with
  | none => .error (.typeError "Cannot read properties of undefined (reading 'size')")
  | some bank =>
    match pcrValues.lookup (.ofAscii r.2) with
    | some (.string value) =>
      if isHexOf bank.size value = true then .ok (.ofAscii r.2, value)
      else .error (.typeError ("PCR value is invalid: " ++ r.2))
    | _ => .error (.typeError ("PCR value is invalid: " ++ r.2))

structure Reconstructed where
  digest : Buffer
  values : Table JsString JsString
  keys : List JsString

def reconstructPcrDigest (parsed : ParsedTpmQuote) (pcrValues : List (JsString × JsValue))
    (hashAlgorithm : JsString) : Except JsError Reconstructed := do
  let keys := expectedPcrKeys parsed
  raiseIf (sortUnits (pcrValues.map Prod.fst) ≠ sortUnits keys)
    (.typeError "PCR values do not map exactly to the signed selection")
  let values ← (registers parsed).mapM (readRegister pcrValues)
  return {
    digest := createHash hashAlgorithm (values.flatMap fun v ↦ fromHex v.2)
    values := values.foldl (fun t v ↦ Table.put t v.1 v.2) []
    keys := keys }

/-! ## The event log -/

/-- The bank with a name. -/
def bankNamed (name : JsString) : Option HashAlgorithm :=
  (hashAlgorithms.find? fun r ↦ .ofAscii r.2.name = name).map Prod.snd

/-- The registers before the first event. -/
def initialState (values : Table JsString JsString) : Except JsError (Table JsString Buffer) :=
  values.mapM fun v ↦
    match bankNamed (v.1.takeWhile (· ≠ 0x3a)) with
    | some bank => .ok (v.1, List.replicate bank.size 0)
    | none => .error (.typeError "Cannot read properties of undefined (reading 'size')")

/-- The key of the register of an event. -/
def eventKey (bank : JsString) (pcr : ℤ) : JsString := bank ++ .ofAscii (":" ++ toString pcr)

/-- A turn of the loop of `validateEventLog`; nothing when it returns. -/
def replayEvent (state : Table JsString Buffer) (item : JsValue) : Option (Table JsString Buffer) :=
  match item with
  | .object entry =>
    if sortUnits (entry.map Prod.fst) ≠
      [.ofAscii "bank", .ofAscii "digest", .ofAscii "pcr"] then none
    else
      match entry.lookup (.ofAscii "bank"), entry.lookup (.ofAscii "pcr"),
        entry.lookup (.ofAscii "digest") with
      | some (.string bank), some (.number pcr), some (.string digest) =>
        match state.get? (eventKey bank pcr) with
        | none => some state
        | some current =>
          match bankNamed bank with
          | some algorithm =>
            if isHexOf algorithm.size digest = true then
              some (state.put (eventKey bank pcr) (createHash bank (current ++ fromHex digest)))
            else none
          | none => none
      | _, _, _ => none
  | _ => none

def validateEventLog (eventLog : Option JsValue) (values : Table JsString JsString)
    (requireEventLog : Bool) : Except JsError Bool :=
  match eventLog with
  | some .null => .ok !requireEventLog
  | some (.array (item :: items)) => do
    let state ← initialState values
    match (item :: items).foldlM replayEvent state with
    | some state => return state.all fun r ↦ values.get? r.1 = some (toHex r.2)
    | none => return false
  | _ => .ok false

/-! ## The quote -/

inductive TpmQuoteFailureCode
  | malformed
  | nonceMismatch
  | akMismatch
  | quoteSignature
  | pcrSelection
  | pcrDigest
  | eventLog

structure TpmQuoteFailure where
  code : TpmQuoteFailureCode
  reason : String

structure TpmQuoteSuccess where
  measurements : Table JsString JsString
  parsed : ParsedTpmQuote

/-- The evidence, an object. -/
structure TpmEvidence where
  fields : List (JsString × JsValue)
  distinct : (JsValue.object fields).Distinct

def TpmEvidence.get (evidence : TpmEvidence) (name : String) : Option JsValue :=
  evidence.fields.lookup (.ofAscii name)

structure QuoteOptions where
  nonce : JsString
  publicKeyPem : JsString
  expectedQualifiedSigner : Option JsString
  expectedPcrSelection : Option (List JsString)
  requireEventLog : Bool

/-- `value === text`. -/
def isString (value : Option JsValue) (text : JsString) : Bool :=
  match value with
  | some (.string s) => s = text
  | _ => false

/-- The value is an array of these strings. -/
def isStrings (value : Option JsValue) (texts : List JsString) : Bool :=
  match value with
  | some (.array items) =>
    items.map (fun item ↦ match item with
      | .string s => some s
      | _ => none) = texts.map some
  | _ => false

/-- What the `catch` of `verifyTpmQuote` makes of an exception. -/
def caught {α : Type} (x : Except JsError α) : Except TpmQuoteFailure α :=
  x.mapError fun e ↦
    match e with
    | .typeError message => ⟨.malformed, message⟩
    | .rangeError => ⟨.malformed, "Attempt to access memory outside buffer bounds"⟩

/-- The digest of the values in the order of their keys. -/
def executorDigest (values : Table JsString JsString) : JsString :=
  let entries := values.insertionSort fun v w ↦
    ¬(w.1 ++ 0x2c :: w.2) < (v.1 ++ 0x2c :: v.2)
  let text :=
    '\x7b' :: JsValue.joinComma (entries.map fun v ↦ stringify v.1 ++ ':' :: stringify v.2) ++
    ['\x7d']
  toHex (createHash (.ofAscii "sha256") ((encodeUtf8 text).map UInt8.ofNat))

/-- The end of `verifyTpmQuote`. -/
def verifySignature (options : QuoteOptions) (quote signature : Buffer) :
    Except TpmQuoteFailure Unit := do
  let publicKey ← (NodeCrypto.createPublicKey options.publicKeyPem).mapError (⟨.malformed, ·⟩)
  raiseIf (NodeCrypto.isRsa publicKey = false) ⟨.akMismatch, "registered AK is not RSA"⟩
  let signatureValid ← (NodeCrypto.verify publicKey quote signature).mapError (⟨.malformed, ·⟩)
  raiseIf (signatureValid = false) ⟨.quoteSignature, "TPM quote signature is invalid"⟩

def verifyTpmQuote (evidence : TpmEvidence) (options : QuoteOptions) :
    Except TpmQuoteFailure TpmQuoteSuccess := do
  raiseIf (sortUnits (evidence.fields.map Prod.fst) ≠ ["akQualifiedName", "eventLog",
      "hashAlgorithm", "pcrSelection", "pcrValues", "provider", "quote", "quoteSignature",
      "signatureAlgorithm"].map .ofAscii)
    ⟨.malformed, "TPM evidence fields are invalid"⟩
  raiseIf (isString (evidence.get "provider") (.ofAscii "linux-tpm2-tools") = false ∧
      isString (evidence.get "provider") (.ofAscii "tpm2-fixture") = false)
    ⟨.malformed, "TPM evidence provider is invalid"⟩
  raiseIf (isString (evidence.get "hashAlgorithm") (.ofAscii "sha256") = false ∨
      isString (evidence.get "signatureAlgorithm") (.ofAscii "rsassa-sha256") = false)
    ⟨.malformed, "unsupported TPM quote signature parameters"⟩
  let quote ← caught (strictBase64url (evidence.get "quote") "quote")
  let signature ← caught (strictBase64url (evidence.get "quoteSignature") "quote signature")
  let parsed ← caught (parseTpmsAttest quote)
  let nonce ← caught (strictBase64url (some (.string options.nonce)) "nonce")
  raiseIf (parsed.extraData ≠ nonce) ⟨.nonceMismatch, "quote nonce does not match challenge"⟩
  raiseIf (parsed.safe = false) ⟨.malformed, "TPM clock was not safe when quoted"⟩
  raiseIf (isString (evidence.get "akQualifiedName") parsed.qualifiedSigner = false)
    ⟨.akMismatch, "quote signer name does not match evidence"⟩
  raiseIf (∃ expected ∈ options.expectedQualifiedSigner,
      expected ≠ [] ∧ parsed.qualifiedSigner ≠ expected)
    ⟨.akMismatch, "quote signer is not the registered AK"⟩
  match evidence.get "pcrValues" with
  | some (.object pcrValues) => do
    let reconstructed ← caught (reconstructPcrDigest parsed pcrValues (.ofAscii "sha256"))
    raiseIf (isStrings (evidence.get "pcrSelection") reconstructed.keys = false)
      ⟨.pcrSelection, "declared PCR selection differs from signed quote"⟩
    raiseIf (∃ expected ∈ options.expectedPcrSelection, expected ≠ reconstructed.keys)
      ⟨.pcrSelection, "signed PCR selection differs from verifier policy"⟩
    raiseIf (reconstructed.digest ≠ parsed.pcrDigest)
      ⟨.pcrDigest, "PCR composite digest does not match quote"⟩
    let replayed ← caught
      (validateEventLog (evidence.get "eventLog") reconstructed.values options.requireEventLog)
    raiseIf (replayed = false)
      ⟨.eventLog, "event log does not reconstruct quoted PCR values"⟩
    verifySignature options quote signature
    return ⟨reconstructed.values.put (.ofAscii "executor") (executorDigest reconstructed.values),
      parsed⟩
  | _ => throw ⟨.pcrDigest, "PCR values are malformed"⟩

end Verify

/-! ## The values of the registers -/

section Sound

variable {parsed : ParsedTpmQuote} {pcrValues : List (JsString × JsValue)}

theorem caught_bind_eq_ok {α β : Type} {x : Except JsError α} {f : α → Except TpmQuoteFailure β}
    {b : β} : (caught x >>= f) = .ok b ↔ ∃ a, x = .ok a ∧ f a = .ok b := by
  rw [bind_eq_ok]
  simp only [caught, mapError_eq_ok]

theorem perm_of_sortUnits {keys keys' : List JsString} (h : sortUnits keys = sortUnits keys') :
    keys.Perm keys' :=
  (List.perm_insertionSort _ keys).symm.trans
    ((List.Perm.of_eq h).trans (List.perm_insertionSort _ keys'))

theorem length_fromHex {value : JsString} (h : ∀ u ∈ value, (hexUnit? u).isSome = true) :
    (fromHex value).length = value.length / 2 := by
  induction value using fromHex.induct with
  | case1 a b rest x y hx hy ih =>
    rw [fromHex, hx, hy]
    dsimp only
    rw [List.length_cons, List.length_cons, List.length_cons,
      ih fun u hu ↦ h u (List.mem_cons_of_mem _ (List.mem_cons_of_mem _ hu))]
    omega
  | case2 a b rest hnone =>
    obtain ⟨x, hx⟩ := Option.isSome_iff_exists.mp (h a List.mem_cons_self)
    obtain ⟨y, hy⟩ := Option.isSome_iff_exists.mp (h b (List.mem_cons_of_mem _ List.mem_cons_self))
    exact (hnone x y hx hy).elim
  | case3 value hshort =>
    match value with
    | [] => rfl
    | [a] => simp [fromHex]
    | a :: b :: rest => exact (hshort a b rest rfl).elim

theorem length_fromHex_of_isHexOf {size : ℕ} {value : JsString} (h : isHexOf size value = true) :
    (fromHex value).length = size := by
  rw [isHexOf, Bool.and_eq_true, List.all_eq_true, beq_iff_eq] at h
  rw [length_fromHex h.1, h.2, Nat.mul_div_cancel _ (by decide)]

/-- The text of a register. -/
def pcrText (pcrValues : List (JsString × JsValue)) (key : JsString) : JsString :=
  match pcrValues.lookup key with
  | some (.string value) => value
  | _ => []

/-- The value of a register. -/
def pcrValue (pcrValues : List (JsString × JsValue)) (key : JsString) : Buffer :=
  fromHex (pcrText pcrValues key)

/-- A register has a value of the size of its bank. -/
def HasValue (pcrValues : List (JsString × JsValue)) (r : ℕ × String) : Prop :=
  ∃ bank, hashAlgorithms.lookup r.1 = some bank ∧
    pcrValues.lookup (.ofAscii r.2) = some (.string (pcrText pcrValues (.ofAscii r.2))) ∧
    isHexOf bank.size (pcrText pcrValues (.ofAscii r.2)) = true

theorem readRegister_eq_ok {r : ℕ × String} {v : JsString × JsString} :
    readRegister pcrValues r = .ok v ↔
      HasValue pcrValues r ∧ v = (.ofAscii r.2, pcrText pcrValues (.ofAscii r.2)) := by
  rw [readRegister, HasValue, pcrText]
  split
  case h_1 hnone =>
    refine iff_of_false (fun h ↦ nomatch h) fun h ↦ ?_
    obtain ⟨⟨bank, hbank, -⟩, -⟩ := h
    rw [hnone] at hbank
    cases hbank
  case h_2 bank hbank =>
  split
  case h_1 value hvalue =>
    rw [hvalue]
    constructor
    · intro h
      split at h
      case isTrue hhex => exact ⟨⟨bank, hbank, rfl, hhex⟩, (Except.ok.inj h).symm⟩
      case isFalse => cases h
    · rintro ⟨⟨bank', hbank', -, hhex⟩, rfl⟩
      rw [hbank, Option.some.injEq] at hbank'
      rw [← hbank'] at hhex
      rw [if_pos hhex]
  case h_2 hother =>
    refine iff_of_false (fun h ↦ nomatch h) fun h ↦ ?_
    obtain ⟨⟨_, -, hvalue, -⟩, -⟩ := h
    exact hother _ hvalue

/-- What reconstructing the digest has checked, and what it comes to. -/
theorem reconstructPcrDigest_eq_ok [NodeCrypto] {hashAlgorithm : JsString} {r : Reconstructed}
    (hdistinct : (pcrValues.map Prod.fst).Nodup)
    (h : reconstructPcrDigest parsed pcrValues hashAlgorithm = .ok r) :
    (pcrValues.map Prod.fst).Perm (expectedPcrKeys parsed) ∧ (expectedPcrKeys parsed).Nodup ∧
      (∀ x ∈ registers parsed, HasValue pcrValues x) ∧
      r.digest = createHash hashAlgorithm ((expectedPcrKeys parsed).flatMap (pcrValue pcrValues)) ∧
      r.values = Table.graph (expectedPcrKeys parsed) (pcrText pcrValues) := by
  rw [reconstructPcrDigest] at h
  obtain ⟨hkeys, h⟩ := raiseIf_bind_eq_ok.mp h
  rw [not_not] at hkeys
  have hperm := perm_of_sortUnits hkeys
  have hnodup := hperm.nodup_iff.mp hdistinct
  obtain ⟨values, hvalues, h⟩ := bind_eq_ok.mp h
  obtain ⟨hhas, rfl⟩ := (mapM_map_eq_ok fun _ _ ↦ readRegister_eq_ok).mp hvalues
  cases h
  have hmap : ((registers parsed).map fun x ↦
      (JsString.ofAscii x.2, pcrText pcrValues (.ofAscii x.2))) =
      Table.graph (expectedPcrKeys parsed) (pcrText pcrValues) := by
    rw [Table.graph, expectedPcrKeys, List.map_map]
    rfl
  refine ⟨hperm, hnodup, hhas, ?_, ?_⟩
  · dsimp only
    rw [hmap, Table.graph, List.flatMap_map]
    rfl
  · dsimp only
    rw [hmap, Table.foldl_put, List.nil_append]
    rw [List.map_nil, List.nil_append, Table.keys_graph]
    exact hnodup

/-! ## The event log -/

/-- An event of the log. -/
structure LogEvent where
  bank : JsString
  pcr : ℤ
  digest : JsString

namespace LogEvent

/-- The key of the register that an event extends. -/
def key (e : LogEvent) : JsString := eventKey e.bank e.pcr

/-- The value of a register after an event. -/
def extend [NodeCrypto] (e : LogEvent) (value : Buffer) : Buffer :=
  createHash e.bank (value ++ fromHex e.digest)

/-- The value of a register after the events that extend it. -/
def replay [NodeCrypto] (events : List LogEvent) (key : JsString) (value : Buffer) : Buffer :=
  (events.filter (·.key = key)).foldl (fun value e ↦ e.extend value) value

theorem map_of_ne [NodeCrypto] {e : LogEvent} {key : JsString} {value : Option Buffer}
    (h : e.key ≠ key) :
    (value.map fun value ↦ if e.key = key then e.extend value else value) = value := by
  simp only [if_neg h, Option.map_id']

end LogEvent

/-- An item of the log is an event, and its digest is of the size of the bank when its register is
among the given ones. -/
def IsEvent (keys : List JsString) (item : JsValue) (e : LogEvent) : Prop :=
  ∃ entry, item = .object entry ∧
    sortUnits (entry.map Prod.fst) = [.ofAscii "bank", .ofAscii "digest", .ofAscii "pcr"] ∧
    entry.lookup (.ofAscii "bank") = some (.string e.bank) ∧
    entry.lookup (.ofAscii "pcr") = some (.number e.pcr) ∧
    entry.lookup (.ofAscii "digest") = some (.string e.digest) ∧
    (e.key ∈ keys → ∃ bank, bankNamed e.bank = some bank ∧ isHexOf bank.size e.digest = true)

theorem replayEvent_eq_some [NodeCrypto] {state state' : Table JsString Buffer} {item : JsValue}
    (h : replayEvent state item = some state') :
    ∃ e, IsEvent (state.map Prod.fst) item e ∧ state'.map Prod.fst = state.map Prod.fst ∧
      ∀ key, state'.get? key =
        (state.get? key).map fun value ↦ if e.key = key then e.extend value else value := by
  rw [replayEvent.eq_def] at h
  split at h
  case h_2 => cases h
  case h_1 entry =>
  split at h
  case isTrue => cases h
  case isFalse hfields =>
  rw [not_not] at hfields
  split at h
  case h_2 => cases h
  case h_1 bank pcr digest hbank hpcr hdigest =>
  refine ⟨⟨bank, pcr, digest⟩, ?_⟩
  split at h
  case h_1 hnone =>
    cases h
    have hkey : eventKey bank pcr ∉ state.map Prod.fst := Table.get?_eq_none_iff.mp hnone
    refine ⟨⟨entry, rfl, hfields, hbank, hpcr, hdigest, fun h ↦ (hkey h).elim⟩, rfl, fun key ↦ ?_⟩
    by_cases hk : eventKey bank pcr = key
    · rw [← hk, hnone]
      rfl
    · exact (LogEvent.map_of_ne (e := ⟨bank, pcr, digest⟩) hk).symm
  case h_2 current hcurrent =>
  split at h
  case h_2 => cases h
  case h_1 algorithm halgorithm =>
  split at h
  case isFalse => cases h
  case isTrue hhex =>
    cases h
    have hkey : eventKey bank pcr ∈ state.map Prod.fst := by
      by_contra hnone
      rw [Table.get?_eq_none_iff.mpr hnone] at hcurrent
      cases hcurrent
    refine ⟨⟨entry, rfl, hfields, hbank, hpcr, hdigest, fun _ ↦ ⟨algorithm, halgorithm, hhex⟩⟩,
      Table.keys_put_of_mem hkey, fun key ↦ ?_⟩
    rw [Table.get?_put]
    split
    case isTrue hk =>
      rw [hk, hcurrent]
      exact congrArg some (if_pos rfl).symm
    case isFalse hk =>
      exact (LogEvent.map_of_ne (e := ⟨bank, pcr, digest⟩) (Ne.symm hk)).symm

/-- The loop takes events and extends the registers in their order. -/
theorem foldlM_replayEvent_eq_some [NodeCrypto] {items : List JsValue}
    {state state' : Table JsString Buffer} (h : items.foldlM replayEvent state = some state') :
    ∃ events, List.Forall₂ (IsEvent (state.map Prod.fst)) items events ∧
      state'.map Prod.fst = state.map Prod.fst ∧
      ∀ key, state'.get? key = (state.get? key).map (LogEvent.replay events key) := by
  induction items generalizing state with
  | nil =>
    cases h
    refine ⟨[], .nil, rfl, fun key ↦ ?_⟩
    cases Table.get? state' key <;> rfl
  | cons item items ih =>
    rw [List.foldlM_cons, Option.bind_eq_bind, Option.bind_eq_some_iff] at h
    obtain ⟨next, hnext, h⟩ := h
    obtain ⟨e, he, hkeys, hget⟩ := replayEvent_eq_some hnext
    obtain ⟨events, hevents, hkeys', hget'⟩ := ih h
    rw [hkeys] at hevents hkeys'
    refine ⟨e :: events, .cons he hevents, hkeys', fun key ↦ ?_⟩
    rw [hget', hget, Option.map_map]
    congr 1
    funext value
    rw [LogEvent.replay, List.filter_cons]
    by_cases hk : e.key = key
    · simp [LogEvent.replay, hk]
    · simp [LogEvent.replay, hk]


/-! ## Registers of supported banks -/

/-- The selections are of supported banks, and named after them. -/
def Supported (parsed : ParsedTpmQuote) : Prop :=
  ∀ s ∈ parsed.pcrSelections, ∃ bank, hashAlgorithms.lookup s.algorithmId = some bank ∧
    s.algorithm = bank.name

theorem supported_of_parseTpmsAttest {input : Buffer} (h : parseTpmsAttest input = .ok parsed) :
    Supported parsed := by
  obtain ⟨q, -, rfl⟩ := parseTpmsAttest_eq_ok.mp h
  intro s hs
  obtain ⟨selection, -, rfl⟩ := List.mem_map.mp hs
  exact ⟨selection.algorithm, selection.lookup_algorithmId, rfl⟩

theorem mem_of_lookup {κ ν : Type*} [BEq κ] [LawfulBEq κ] {items : List (κ × ν)} {k : κ} {v : ν}
    (h : items.lookup k = some v) : (k, v) ∈ items := by
  obtain ⟨before, after, rfl, -⟩ := List.lookup_eq_some_iff.mp h
  exact List.mem_append_right _ List.mem_cons_self

theorem ofAscii_append (s t : String) :
    JsString.ofAscii (s ++ t) = JsString.ofAscii s ++ JsString.ofAscii t := by
  simp [JsString.ofAscii]

theorem bankNamed_pcrKey {algorithmId pcr : ℕ} {bank : HashAlgorithm}
    (h : hashAlgorithms.lookup algorithmId = some bank) :
    bankNamed ((JsString.ofAscii (bank.name ++ ":" ++ toString pcr)).takeWhile (· ≠ 0x3a)) =
      some bank := by
  have hmem : bank ∈ hashAlgorithms.map Prod.snd :=
    List.mem_map.mpr ⟨_, mem_of_lookup h, rfl⟩
  rw [ofAscii_append, ofAscii_append, List.append_assoc]
  simp only [hashAlgorithms, List.map_cons, List.map_nil, List.mem_cons, List.not_mem_nil,
    or_false] at hmem
  rcases hmem with rfl | rfl | rfl | rfl <;> rfl

theorem exists_bank_of_mem_registers (hsupported : Supported parsed) {r : ℕ × String}
    (h : r ∈ registers parsed) : ∃ bank pcr, hashAlgorithms.lookup r.1 = some bank ∧
      r.2 = bank.name ++ ":" ++ toString (pcr : ℕ) := by
  obtain ⟨s, hs, h⟩ := List.mem_flatMap.mp h
  obtain ⟨pcr, -, rfl⟩ := List.mem_map.mp h
  obtain ⟨bank, hlookup, hname⟩ := hsupported s hs
  exact ⟨bank, pcr, hlookup, by rw [pcrKey, hname]⟩

/-- The value of a register before the first event. -/
def zeros (key : JsString) : Buffer :=
  ((bankNamed (key.takeWhile (· ≠ 0x3a))).map fun bank ↦ List.replicate bank.size 0).getD []

theorem initialState_eq_ok {keys : List JsString} {text : JsString → JsString}
    {state : Table JsString Buffer} (h : initialState (Table.graph keys text) = .ok state) :
    state = Table.graph keys zeros := by
  have hvalue (v : JsString × JsString) (w : JsString × Buffer) :
      (match bankNamed (v.1.takeWhile (· ≠ 0x3a)) with
        | some bank => .ok (v.1, List.replicate bank.size 0)
        | none => .error (.typeError "Cannot read properties of undefined (reading 'size')") :
          Except JsError (JsString × Buffer)) = .ok w ↔
      (bankNamed (v.1.takeWhile (· ≠ 0x3a))).isSome = true ∧ w = (v.1, zeros v.1) := by
    rw [zeros]
    cases bankNamed (v.1.takeWhile (· ≠ 0x3a)) with
    | none => simp
    | some bank => simp [eq_comm]
  obtain ⟨-, rfl⟩ := (mapM_map_eq_ok hvalue).mp h
  rw [Table.graph, Table.graph, List.map_map]
  rfl

/-- What a log that is accepted has shown about the registers. -/
theorem validateEventLog_eq_ok [NodeCrypto] {eventLog : Option JsValue} {keys : List JsString}
    {text : JsString → JsString} {requireEventLog : Bool}
    (h : validateEventLog eventLog (Table.graph keys text) requireEventLog = .ok true) :
    eventLog = some .null ∧ requireEventLog = false ∨
      ∃ items events, eventLog = some (.array items) ∧ items ≠ [] ∧
        List.Forall₂ (IsEvent keys) items events ∧
        ∀ key ∈ keys, toHex (LogEvent.replay events key (zeros key)) = text key := by
  rw [validateEventLog.eq_def] at h
  split at h
  case h_1 =>
    cases requireEventLog with
    | false => exact .inl ⟨rfl, rfl⟩
    | true => cases h
  case h_3 => cases h
  case h_2 item items =>
  obtain ⟨state, hstate, h⟩ := bind_eq_ok.mp h
  cases initialState_eq_ok hstate
  split at h
  case h_2 => cases h
  case h_1 state' hfold =>
  obtain ⟨events, hevents, -, hget⟩ := foldlM_replayEvent_eq_some hfold
  rw [Table.keys_graph] at hevents
  refine .inr ⟨item :: items, events, rfl, List.cons_ne_nil _ _, hevents, fun key hkey ↦ ?_⟩
  have hvalue : Table.get? state' key = some (LogEvent.replay events key (zeros key)) := by
    rw [hget, Table.get?_graph, if_pos hkey]
    rfl
  have hall := List.all_eq_true.mp (Except.ok.inj h) _ (Table.mem_of_get? hvalue)
  dsimp only at hall
  rw [decide_eq_true_eq, Table.get?_graph, if_pos hkey, Option.some.injEq] at hall
  exact hall.symm

/-! ## Valid quotes -/

/-- The log has events only, at least one, and the registers start as zeros and end with the
values. -/
def Replays [NodeCrypto] (eventLog : Option JsValue) (parsed : ParsedTpmQuote)
    (pcrValues : List (JsString × JsValue)) : Prop :=
  ∃ items events, eventLog = some (.array items) ∧ items ≠ [] ∧
    List.Forall₂ (IsEvent (expectedPcrKeys parsed)) items events ∧
    ∀ r ∈ registers parsed, ∀ bank, hashAlgorithms.lookup r.1 = some bank →
      toHex (LogEvent.replay events (.ofAscii r.2) (List.replicate bank.size 0)) =
        pcrText pcrValues (.ofAscii r.2)

/-- The values of the registers are justified by the quote and by the log. -/
structure Justified [NodeCrypto] (evidence : TpmEvidence) (options : QuoteOptions)
    (parsed : ParsedTpmQuote) : Prop where
  quote : ∃ quote, strictBase64url (evidence.get "quote") "quote" = .ok quote ∧
    parseTpmsAttest quote = .ok parsed
  values : ∃ pcrValues, evidence.get "pcrValues" = some (.object pcrValues) ∧
    (pcrValues.map Prod.fst).Perm (expectedPcrKeys parsed) ∧ (expectedPcrKeys parsed).Nodup ∧
    (∀ r ∈ registers parsed, HasValue pcrValues r ∧ ∀ bank, hashAlgorithms.lookup r.1 = some bank →
      (pcrValue pcrValues (.ofAscii r.2)).length = bank.size) ∧
    createHash (.ofAscii "sha256") ((expectedPcrKeys parsed).flatMap (pcrValue pcrValues)) =
      parsed.pcrDigest ∧
    (evidence.get "eventLog" = some .null ∧ options.requireEventLog = false ∨
      Replays (evidence.get "eventLog") parsed pcrValues)

theorem TpmEvidence.nodup_keys {evidence : TpmEvidence} {name : String}
    {items : List (JsString × JsValue)} (h : evidence.get name = some (.object items)) :
    (items.map Prod.fst).Nodup :=
  (JsValue.distinctFields_iff.mp evidence.distinct.2 _ (mem_of_lookup h)).1

theorem HasValue.length_pcrValue {r : ℕ × String} (h : HasValue pcrValues r) {bank : HashAlgorithm}
    (hbank : hashAlgorithms.lookup r.1 = some bank) :
    (pcrValue pcrValues (.ofAscii r.2)).length = bank.size := by
  obtain ⟨bank', hbank', -, hhex⟩ := h
  rw [hbank, Option.some.injEq] at hbank'
  rw [← hbank'] at hhex
  exact length_fromHex_of_isHexOf hhex

theorem replays_of_validateEventLog [NodeCrypto] (hsupported : Supported parsed)
    {eventLog : Option JsValue} {requireEventLog : Bool}
    (h : validateEventLog eventLog (Table.graph (expectedPcrKeys parsed) (pcrText pcrValues))
      requireEventLog = .ok true) :
    eventLog = some .null ∧ requireEventLog = false ∨ Replays eventLog parsed pcrValues := by
  refine (validateEventLog_eq_ok h).imp_right ?_
  rintro ⟨items, events, hlog, hne, hevents, hall⟩
  refine ⟨items, events, hlog, hne, hevents, fun r hr bank hbank ↦ ?_⟩
  obtain ⟨bank', pcr, hbank', hname⟩ := exists_bank_of_mem_registers hsupported hr
  rw [hbank, Option.some.injEq] at hbank'
  have hzeros : zeros (.ofAscii r.2) = List.replicate bank.size 0 := by
    rw [zeros, hname, ← hbank', bankNamed_pcrKey hbank]
    rfl
  rw [← hzeros]
  exact hall _ (List.mem_map_of_mem hr)

/-- A quote that `verifyTpmQuote` finds valid justifies the values of its registers. -/
theorem justified_of_verifyTpmQuote [NodeCrypto] {evidence : TpmEvidence} {options : QuoteOptions}
    {success : TpmQuoteSuccess} (h : verifyTpmQuote evidence options = .ok success) :
    Justified evidence options success.parsed := by
  rw [verifyTpmQuote] at h
  obtain ⟨-, h⟩ := raiseIf_bind_eq_ok.mp h
  obtain ⟨-, h⟩ := raiseIf_bind_eq_ok.mp h
  obtain ⟨-, h⟩ := raiseIf_bind_eq_ok.mp h
  obtain ⟨quote, hquote, h⟩ := caught_bind_eq_ok.mp h
  obtain ⟨signature, -, h⟩ := caught_bind_eq_ok.mp h
  obtain ⟨parsed, hparsed, h⟩ := caught_bind_eq_ok.mp h
  obtain ⟨nonce, -, h⟩ := caught_bind_eq_ok.mp h
  obtain ⟨-, h⟩ := raiseIf_bind_eq_ok.mp h
  obtain ⟨-, h⟩ := raiseIf_bind_eq_ok.mp h
  obtain ⟨-, h⟩ := raiseIf_bind_eq_ok.mp h
  obtain ⟨-, h⟩ := raiseIf_bind_eq_ok.mp h
  split at h
  case h_2 => cases h
  case h_1 pcrValues hpcrValues =>
  obtain ⟨reconstructed, hreconstructed, h⟩ := caught_bind_eq_ok.mp h
  obtain ⟨-, h⟩ := raiseIf_bind_eq_ok.mp h
  obtain ⟨-, h⟩ := raiseIf_bind_eq_ok.mp h
  obtain ⟨hdigest, h⟩ := raiseIf_bind_eq_ok.mp h
  obtain ⟨replayed, hreplayed, h⟩ := caught_bind_eq_ok.mp h
  obtain ⟨hvalid, h⟩ := raiseIf_bind_eq_ok.mp h
  obtain ⟨-, -, h⟩ := bind_eq_ok.mp h
  cases h
  rw [Bool.not_eq_false] at hvalid
  rw [hvalid] at hreplayed
  rw [not_not] at hdigest
  obtain ⟨hperm, hnodup, hhas, hhash, hvalues⟩ :=
    reconstructPcrDigest_eq_ok (TpmEvidence.nodup_keys hpcrValues) hreconstructed
  rw [hvalues] at hreplayed
  refine ⟨⟨quote, hquote, hparsed⟩, pcrValues, hpcrValues, hperm, hnodup,
    fun r hr ↦ ⟨hhas r hr, fun bank hbank ↦ (hhas r hr).length_pcrValue hbank⟩, ?_, ?_⟩
  · rw [← hhash, hdigest]
  · exact replays_of_validateEventLog (supported_of_parseTpmsAttest hparsed) hreplayed

/-- The parsing of quotes is exact: it accepts what encodes a quote, with its length before it or
not, it reads nothing outside of its input, the selected registers are the bits that are set, in
increasing order, and a valid quote justifies the values of its registers. -/
theorem tpmQuote_exact [NodeCrypto] (input : Buffer) (evidence : TpmEvidence)
    (options : QuoteOptions) :
    (∀ p, parseTpmsAttest input = .ok p ↔
      ∃ q : TpmsAttest, (input = q.encode ∨ input = encodeSized q.encode) ∧ p = q.parsed) ∧
    parseTpmsAttest input ≠ .error .rangeError ∧
    (∀ bitmap : Buffer, (selectedPcrs bitmap).Pairwise (· < ·) ∧ ∀ n, n ∈ selectedPcrs bitmap ↔
      ∃ byte, bitmap[n / 8]? = some byte ∧ byte.toNat.testBit (n % 8) = true) ∧
    ∀ success, verifyTpmQuote evidence options = .ok success →
      Justified evidence options success.parsed :=
  ⟨fun _ ↦ parseTpmsAttest_eq_ok, parseTpmsAttest_ne_rangeError input,
    fun bitmap ↦ ⟨pairwise_selectedFrom bitmap 0, fun _ ↦ mem_selectedPcrs⟩,
    fun _ h ↦ justified_of_verifyTpmQuote h⟩

/-- A quote of the first register of one bank, with its length before it. -/
def sampleQuote : TpmsAttest where
  signer := [1]
  extraData := [2]
  clock := 3
  resetCount := 4
  restartCount := 5
  safe := true
  firmwareVersion := 6
  selections := [⟨0xb, ⟨"sha256", 32⟩, [1], rfl, by decide, by decide, ⟨1, by decide⟩⟩]
  pcrDigest := [7]
  length_signer := by decide
  length_extraData := by decide
  clock_lt := by decide
  resetCount_lt := by decide
  restartCount_lt := by decide
  firmwareVersion_lt := by decide
  selections_pos := by decide
  selections_le := by decide
  length_pcrDigest := by decide

example : (parseTpmsAttest (encodeSized sampleQuote.encode)).toOption.map
    (fun p ↦ (p.pcrSelections.map TpmPcrSelection.selectedPcrs, p.pcrDigest)) =
      some ([[0]], [7]) := by
  decide +kernel


end Sound

end EventHorizon.Attestation
