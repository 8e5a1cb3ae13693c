import EventHorizon.Canonical.RoundTrip
import EventHorizon.Library.Base64
import EventHorizon.Library.Table
import EventHorizon.Replay.Consumption

/-!
# Consumption in etcd

`EtcdV3CapabilityConsumptionStore` sends one transaction for each call: if the key has never been
written, put the record; otherwise read the record that is there. The transport is the one the store
was given; `EtcdTransport.Atomic` has what etcd documents of the transaction, and from that the
store has the laws of consumption.
-/

namespace EventHorizon.Replay

private def refused (message : String) : Exn := ⟨.capabilityConsumptionError, message⟩

/-! ## Base 64 -/

/-- The alphabet of `base64.b64encode`. -/
def base64Alphabet : List Char :=
  "ABCDEFGHIJKLMNOPQRSTUVWXYZabcdefghijklmnopqrstuvwxyz0123456789+/".toList

/-- `_b64`. -/
def b64 (data : List ℕ) : List Char :=
  Base64.encode base64Alphabet data ++ List.replicate ((3 - data.length % 3) % 3) '='

/-- `base64.b64decode(value, validate=True)`. -/
def b64decode (value : List Char) : Option (List ℕ) :=
  let symbols := value.takeWhile (· ≠ '=')
  let padding := value.dropWhile (· ≠ '=')
  if padding.all (· = '=') ∧ padding.length ≤ 2 ∧ value.length % 4 = 0 then
    Base64.decode base64Alphabet symbols
  else none

/-- `_decode`. -/
def decodeValue (value : Option PyValue) : Except Exn (List ℕ) :=
  match value.bind textOf with
  | none => .error (refused "etcd response contains a non-text value")
  | some text =>
    match b64decode text.toList with
    | none => .error (refused "etcd response value is not valid base64")
    | some raw =>
      if b64 raw ≠ text.toList then .error (refused "etcd response value is not canonical")
      else .ok raw

theorem b64decode_b64 {data : List ℕ} (h : ∀ x ∈ data, x < 256) :
    b64decode (b64 data) = some data := by
  -- a literal is unified with its list of characters, which is cheaper than taking it apart
  have hliteral : ∀ {cs : List Char},
      (cs.map Char.toNat).Nodup ∧ cs.length = 64 ∧ '='.toNat ∉ cs.map Char.toNat →
        (String.ofList cs).toList.Nodup ∧ (String.ofList cs).toList.length = 64 ∧
          '=' ∉ (String.ofList cs).toList := by
    rintro cs ⟨hnodup, hlen, hpad⟩
    rw [String.toList_ofList]
    exact ⟨hnodup.of_map, hlen, fun hmem ↦ hpad (List.mem_map_of_mem hmem)⟩
  obtain ⟨hnodup, hlen, hpad⟩ : base64Alphabet.Nodup ∧ base64Alphabet.length = 64 ∧
      '=' ∉ base64Alphabet := hliteral (by decide +kernel)
  have hmem := Base64.mem_alphabet_of_mem_encode hlen h
  have hne : ∀ c ∈ Base64.encode base64Alphabet data, (c ≠ '=') = True := by
    intro c hc
    refine eq_true ?_
    rintro rfl
    exact hpad (hmem _ hc)
  have hne' : ∀ c ∈ Base64.encode base64Alphabet data, decide (c ≠ '=') = true := by
    intro c hc
    simp [hne c hc]
  have htake : (b64 data).takeWhile (fun c ↦ decide (c ≠ '=')) =
      Base64.encode base64Alphabet data := by
    rw [b64, List.takeWhile_append_of_pos hne']
    cases (3 - data.length % 3) % 3 <;> simp
  have hdrop : (b64 data).dropWhile (fun c ↦ decide (c ≠ '=')) =
      List.replicate ((3 - data.length % 3) % 3) '=' := by
    rw [b64, List.dropWhile_append_of_pos hne']
    cases (3 - data.length % 3) % 3 <;> simp
  have hlength : (b64 data).length % 4 = 0 := by
    rw [b64, List.length_append, Base64.length_encode, List.length_replicate]
    rcases (by omega : data.length % 3 = 0 ∨ data.length % 3 = 1 ∨ data.length % 3 = 2) with
      hmod | hmod | hmod
    all_goals
      rw [hmod]
      omega
  rw [b64decode]
  simp only [htake, hdrop]
  rw [if_pos, Base64.decode_encode hnodup hlen h]
  refine ⟨by simp, ?_, hlength⟩
  rw [List.length_replicate]
  omega

/-- Different bytes have different spellings. -/
theorem b64_injective {x y : List ℕ} (hx : ∀ n ∈ x, n < 256) (hy : ∀ n ∈ y, n < 256)
    (h : b64 x = b64 y) : x = y := by
  have hdecode := congrArg b64decode h
  rw [b64decode_b64 hx, b64decode_b64 hy] at hdecode
  exact Option.some.inj hdecode

/-! ## The transaction -/

def item (key : String) (value : PyValue) : PyKey × PyValue := (.str (.ofString key), value)

def text (s : String) : PyValue := .str (.ofString s)

/-- The decimal text of a number. -/
def decimal (n : ℕ) : String := .ofList (Nat.toDigits 10 n)

/-- The body of the transaction that `consume` sends: if the key has version 0, put the value, and
otherwise read the key. -/
def transaction (key value : String) : PyValue :=
  .dict [
    item "compare" (.list [.dict [item "target" (text "VERSION"), item "result" (text "EQUAL"),
      item "key" (text key), item "version" (text "0")]]),
    item "success" (.list [.dict [item "requestPut"
      (.dict [item "key" (text key), item "value" (text value)])]]),
    item "failure" (.list [.dict [item "requestRange"
      (.dict [item "key" (text key), item "serializable" (.bool false)])]])]

/-- An `EtcdTransactionTransport`: what a call answers or raises for a body, with the cluster behind
it before and after. -/
abbrev EtcdTransport (σ : Type) := σ → PyValue → Except Exn PyValue × σ

/-! ## The store -/

/-- `value.get(key)` on a mapping. -/
def field (key : String) : PyValue → Option PyValue
  | .dict items => items.lookup (.str (.ofString key))
  | _ => none

/-- `_number`. -/
def checkNumber (what : String) (value : Option PyValue) : Except Exn Unit :=
  match value.bind textOf with
  | none => .error (refused ("etcd " ++ what ++ " is malformed"))
  | some s =>
    if s.toList = [] ∨ s.toList.all Char.isDigit = false then
      .error (refused ("etcd " ++ what ++ " is malformed"))
    else if Nat.ofDigitChars 10 s.toList 0 = 0 then
      .error (refused ("etcd " ++ what ++ " is invalid"))
    else .ok ()

/-- `str(value) == expected` for a text of digits. -/
def isClusterId (expected : String) : Option PyValue → Bool
  | some (.str s) => s.text? == some expected
  | some (.int n) => toString n == expected
  | _ => false

/-- `value == text`. -/
def isText (value : Option PyValue) (t : String) : Bool := value.bind textOf == some t

/-- `value == n`. -/
def isInt (n : ℤ) : Option PyValue → Bool
  | some (.int m) => m == n
  | some (.bool b) => (if b then 1 else 0) == n
  | some (.float f) => f.integer == some n
  | _ => false

def recordSchema : String := "eh.capability-consumption.v1"

/-- The record that is put under the key of a capability. -/
def Consumption.record (c : Consumption) : PyValue :=
  .dict [item "claims_digest" (text c.claimsDigest), item "expires_at" (.int c.expiresAt),
    item "consumed_at" (.int c.consumedAt), item "schema" (text recordSchema)]

/-- `EtcdV3CapabilityConsumptionStore` with the transport and the names it was given. -/
structure EtcdStore (σ : Type) where
  transport : EtcdTransport σ
  clusterId : String
  namespaceName : String
  domain : String
  clusterId_ne : clusterId.toList ≠ []
  clusterId_digits : clusterId.toList.all Char.isDigit = true
  clusterId_pos : Nat.ofDigitChars 10 clusterId.toList 0 ≠ 0
  namespaceName_scope : isScope namespaceName = true
  domain_scope : isScope domain = true

namespace EtcdStore

variable {σ : Type}

/-- The key of a capability. -/
def key (store : EtcdStore σ) (capabilityId : String) : String :=
  .ofList (b64 (encodeUtf8 ("/event-horizon/replay/v1/" ++ store.namespaceName ++ "/" ++
    store.domain ++ "/" ++ capabilityId).toList))

/-- The checks on an answer before its branch is read, and `succeeded`. -/
def decision (store : EtcdStore σ) (response : PyValue) : Except Exn (Bool × PyValue) := do
  raiseIf (response.isDict = false) (refused "etcd response is not an object")
  let header := (field "header" response).getD .none
  raiseIf (header.isDict = false) (refused "etcd response header is missing")
  raiseIf (isClusterId store.clusterId (field "cluster_id" header) = false)
    (refused "etcd cluster identity mismatch")
  checkNumber "revision" (field "revision" header)
  checkNumber "term" (field "raft_term" header)
  match (field "succeeded" response).getD (.bool false), field "responses" response with
  | .bool succeeded, some (.list [branch]) => return (succeeded, branch)
  | .bool _, _ => .error (refused "etcd transaction branch is missing")
  | _, _ => .error (refused "etcd transaction decision is invalid")

section Record

variable [Platform]

/-- The comparison with the record that is there. -/
def compareRecord (c : Consumption) (previous : PyValue) : Except Exn Bool :=
  match previous with
  | .dict items =>
    if (items.all fun f ↦ f.1 ∈ ["claims_digest", "expires_at", "consumed_at", "schema"].map
        fun k ↦ PyKey.str (.ofString k)) = false ∨
        (["claims_digest", "expires_at", "consumed_at", "schema"].all fun k ↦
          PyKey.str (.ofString k) ∈ items.map Prod.fst) = false then
      .error (refused "etcd consumed record schema mismatch")
    else if isText (field "schema" previous) recordSchema = false ∨
        isText (field "claims_digest" previous) c.claimsDigest = false ∨
        isInt c.expiresAt (field "expires_at" previous) = false ∨
        ((field "consumed_at" previous).any fun v ↦ match v with
          | .int _ => true
          | _ => false) = false then
      .error (refused "capability ID collided with different signed claims")
    else .ok false
  | _ => .error (refused "etcd consumed record schema mismatch")

/-- The branch of a transaction that read the key. -/
def readBranch (key : String) (c : Consumption) (branch : PyValue) : Except Exn Bool := do
  let range := (field "response_range" branch).getD .none
  raiseIf (range.isDict = false) (refused "etcd collision read is missing")
  match field "kvs" range with
  | some (.list [row]) =>
    raiseIf (isText (field "key" row) key = false) (refused "etcd collision record key mismatch")
    let raw ← decodeValue (field "value" row)
    match strictJsonLoads raw false with
    | .error e =>
      if e.cls = .canonicalizationError ∨ e.cls = .valueError ∨ e.cls = .typeError ∨
          e.cls = .unicodeEncodeError then
        .error (refused "etcd consumed record is malformed")
      else .error e
    | .ok previous => compareRecord c previous
  | _ => .error (refused "etcd consumed record is missing")

/-- What `consume` makes of the answer to its transaction. -/
def answer (store : EtcdStore σ) (c : Consumption) (response : PyValue) : Except Exn Bool := do
  let (succeeded, branch) ← store.decision response
  if succeeded then
    raiseIf (((field "response_put" branch).getD .none).isDict = false)
      (refused "etcd put acknowledgment missing")
    return true
  else readBranch (store.key c.capabilityId) c branch

/-- `EtcdV3CapabilityConsumptionStore.consume`. -/
def consume (store : EtcdStore σ) (s : σ) (a : Arguments) : Except Exn Bool × σ :=
  match a.validate with
  | .error e => (.error e, s)
  | .ok c =>
    match c.record.canonicalBytes with
    | .error e => (.error e, s)
    | .ok bytes =>
      match store.transport s (transaction (store.key c.capabilityId) (.ofList (b64 bytes))) with
      | (.ok response, s') => (store.answer c response, s')
      | (.error e, s') =>
        if e.cls = .capabilityConsumptionError then (.error e, s')
        else (.error (refused "etcd transaction failed or timed out; deny uncertain outcome"), s')

end Record

end EtcdStore

/-! ## Records -/

section Records

variable [Platform] {σ : Type} {c : Consumption}

/-- The record of a consumption, with its keys in order. -/
def Consumption.recordFields (c : Consumption) : List (String × Json) :=
  [("claims_digest", .str c.claimsDigest), ("consumed_at", .int c.consumedAt),
    ("expires_at", .int c.expiresAt), ("schema", .str recordSchema)]

omit [Platform] in
theorem Consumption.listed_record : c.record.listed = .ofJson (.obj c.recordFields) := by
  have hsort := PyValue.sortItems_ofString [("claims_digest", text c.claimsDigest),
    ("expires_at", .int c.expiresAt), ("consumed_at", .int c.consumedAt),
    ("schema", text recordSchema)]
  simp only [List.map_cons, List.map_nil] at hsort
  rw [record, PyValue.listed]
  refine congrArg PyValue.dict (hsort.trans ?_)
  simp [Json.sortFields, Json.orderedInsert, recordFields, PyValue.ofFields, PyValue.ofJson, text]

omit [Platform] in
theorem Consumption.distinct_record : c.record.Distinct := by
  refine ⟨?_, trivial, trivial, trivial, trivial, trivial⟩
  simp only [List.map_cons, List.map_nil, item]
  decide

omit [Platform] in
theorem Consumption.floatFree_record : c.record.FloatFree :=
    ⟨trivial, trivial, trivial, trivial, trivial⟩

theorem Consumption.exists_canonicalBytes (hc : c.Valid)
    (hexp : c.expiresAt.natAbs ≤ maxSafeInteger)
    (hcon : c.consumedAt.natAbs ≤ maxSafeInteger) : ∃ bytes, c.record.canonicalBytes =
      .ok bytes := by
  have hkey : ∀ k ∈ ["claims_digest", "consumed_at", "expires_at", "schema", recordSchema],
      isAscii k = true ∧ k.toList.length ≤ maxCanonicalStringBytes := by decide +kernel
  have hkeys : ∀ k ∈ ["claims_digest", "consumed_at", "expires_at", "schema", recordSchema],
      IsCanonicalString k := fun k hk ↦ isCanonicalString_of_isAscii (hkey k hk).1 (hkey k hk).2
  have hdigest := isCanonicalString_of_isDigest hc.claimsDigest
  have hcanon : Canonicalizes 0 (.obj c.recordFields) := by
    simp [Consumption.recordFields, canonicalizes_obj, hkeys, hdigest, hexp, hcon,
      maxCanonicalDepth, maxCanonicalItems]
  obtain ⟨v, hv⟩ := hcanon
  refine ⟨spell v, ?_⟩
  rw [PyValue.canonicalBytes, ← PyValue.canonicalValue_listed, listed_record,
    PyValue.canonicalValue_ofJson, hv]
  rfl

omit [Platform] in
theorem encodeUtf8_lt (text : List Char) : ∀ b ∈ encodeUtf8 text, b < 256 := by
  intro b hb
  obtain ⟨c, -, hc⟩ := List.mem_flatMap.mp hb
  have hlt : c.toNat < 0x110000 := by
    have hvalid := c.valid
    have hval : c.toNat = c.val.toNat := rfl
    rcases hvalid with hv | hv <;> omega
  rw [utf8Octets] at hc
  split at hc
  · rw [List.mem_singleton.mp hc]
    omega
  split at hc
  · simp only [List.mem_cons, List.not_mem_nil, or_false] at hc
    omega
  split at hc
  · simp only [List.mem_cons, List.not_mem_nil, or_false] at hc
    omega
  · simp only [List.mem_cons, List.not_mem_nil, or_false] at hc
    omega

theorem Consumption.octets_record {bytes : List ℕ} (h : c.record.canonicalBytes = .ok bytes) :
    ∀ b ∈ bytes, b < 256 := by
  obtain ⟨v, hv, rfl⟩ := map_eq_ok.mp h
  have hread := PyValue.readable_of_canonicalValue c.record distinct_record floatFree_record hv
  rw [spell_eq v (asciiFloats_of_readable (fun _ hf ↦ hf.elim) v hread)]
  exact encodeUtf8_lt _

/-- The value under a key is the record of a consumption. -/
def Recorded (value : String) (c : Consumption) : Prop :=
  ∃ bytes, c.record.canonicalBytes = .ok bytes ∧ value = .ofList (b64 bytes)

/-- What the store reads of a record that it wrote. -/
theorem Recorded.read {value : String} (h : Recorded value c) :
    ∃ raw, decodeValue (some (text value)) = .ok raw ∧
      strictJsonLoads raw false = .ok (.ofJson (.obj c.recordFields)) := by
  obtain ⟨bytes, hbytes, rfl⟩ := h
  refine ⟨bytes, ?_, ?_⟩
  · rw [decodeValue, Option.bind_some, text, textOf, PyStr.text?_ofString]
    simp only [String.toList_ofList, b64decode_b64 (Consumption.octets_record hbytes)]
    rw [if_neg (not_not.mpr rfl)]
  · have hstrict := strictJsonLoads_canonicalBytes Consumption.distinct_record
      Consumption.floatFree_record hbytes
    rw [strictJsonLoads] at hstrict ⊢
    obtain ⟨text, htext, hstrict⟩ := bind_eq_ok.mp hstrict
    obtain ⟨v, hv, hstrict⟩ := bind_eq_ok.mp hstrict
    obtain ⟨encoded, hencoded, hstrict⟩ := bind_eq_ok.mp hstrict
    refine bind_eq_ok.mpr
      ⟨text, htext, bind_eq_ok.mpr ⟨v, hv, bind_eq_ok.mpr ⟨encoded, hencoded, ?_⟩⟩⟩
    split at hstrict
    · cases hstrict
    · rw [if_neg (by simp), ← Consumption.listed_record]
      exact hstrict

omit [Platform] in
theorem field_dict (fields : List (String × PyValue)) (k : String) :
    field k (.dict (fields.map fun f ↦ item f.1 f.2)) = fields.lookup k := by
  rw [field]
  induction fields with
  | nil => rfl
  | cons f fields ih =>
    obtain ⟨l, v⟩ := f
    rw [List.map_cons, item, List.lookup_cons, List.lookup_cons]
    by_cases hk : k = l
    · subst hk
      simp
    · have hne : PyKey.str (.ofString k) ≠ .str (.ofString l) := fun h ↦
        hk (PyStr.ofString_injective (PyKey.str.inj h))
      rw [beq_eq_false_iff_ne.mpr hk, beq_eq_false_iff_ne.mpr hne]
      exact ih

omit [Platform] in
theorem fields_record :
    field "claims_digest" (.ofJson (.obj c.recordFields)) = some (text c.claimsDigest) ∧
    field "consumed_at" (.ofJson (.obj c.recordFields)) = some (.int c.consumedAt) ∧
    field "expires_at" (.ofJson (.obj c.recordFields)) = some (.int c.expiresAt) ∧
    field "schema" (.ofJson (.obj c.recordFields)) = some (text recordSchema) := by
  have hfields : ∀ k, field k (.ofJson (.obj c.recordFields)) = _ :=
    field_dict [("claims_digest", text c.claimsDigest), ("consumed_at", .int c.consumedAt),
      ("expires_at", .int c.expiresAt), ("schema", text recordSchema)]
  simp only [hfields]
  exact ⟨rfl, rfl, rfl, rfl⟩

omit [Platform] in
theorem isText_text (s t : String) : isText (some (text s)) t = decide (s = t) := by
  rw [isText, Option.bind_some, text, textOf, PyStr.text?_ofString]
  by_cases h : s = t
  · simp [h]
  · simp [h]

namespace EtcdStore

omit [Platform] in
theorem compareRecord_recordFields (d : Consumption) :
    compareRecord d (.ofJson (.obj c.recordFields)) =
      if (c.claimsDigest, c.expiresAt) = (d.claimsDigest, d.expiresAt) then .ok false
      else .error (refused "capability ID collided with different signed claims") := by
  obtain ⟨hdigest, hconsumed, hexpires, hschema⟩ := fields_record (c := c)
  have hkeys : (PyValue.ofFields c.recordFields).map Prod.fst =
      ["claims_digest", "consumed_at", "expires_at", "schema"].map fun k ↦
        PyKey.str (.ofString k) := rfl
  have hall : ((PyValue.ofFields c.recordFields).all fun f ↦ decide (f.1 ∈ ["claims_digest",
      "expires_at", "consumed_at", "schema"].map fun k ↦ PyKey.str (.ofString k))) = true := by
    have hmem : ((PyValue.ofFields c.recordFields).map Prod.fst).all (fun k ↦ decide (k ∈
        ["claims_digest", "expires_at", "consumed_at", "schema"].map fun k ↦
          PyKey.str (.ofString k))) = true := by
      rw [hkeys]
      decide +kernel
    rwa [List.all_map] at hmem
  have hany : (["claims_digest", "expires_at", "consumed_at", "schema"].all fun k ↦
      decide (PyKey.str (.ofString k) ∈
        (PyValue.ofFields c.recordFields).map Prod.fst)) = true := by
    rw [hkeys]
    decide +kernel
  have hobj : PyValue.ofJson (.obj c.recordFields) = .dict (PyValue.ofFields c.recordFields) := by
    rw [PyValue.ofJson]
  rw [hobj] at hdigest hconsumed hexpires hschema ⊢
  rw [compareRecord, if_neg (by rw [hall, hany]; decide), hschema, hdigest, hexpires, hconsumed,
    isText_text, isText_text]
  simp only [isInt, Option.any_some, Prod.mk.injEq]
  by_cases hd : c.claimsDigest = d.claimsDigest
  · by_cases he : c.expiresAt = d.expiresAt
    · simp [hd, he]
    · simp [hd, he]
  · simp [hd]

/-- What a value under a key of the store binds its capability to. -/
def claimOf (value : String) : Option (String × ℤ) := do
  let raw ← (decodeValue (some (text value))).toOption
  let previous ← (strictJsonLoads raw false).toOption
  let claimsDigest ← (field "claims_digest" previous).bind textOf
  match field "expires_at" previous with
  | some (.int expiresAt) => some (claimsDigest, expiresAt)
  | _ => none

/-- The bindings of a store in a cluster with these keys and values. -/
def bindings (store : EtcdStore σ) (kvs : σ → String → Option String) (s : σ) (id : String) :
    Option (String × ℤ) :=
  (kvs s (store.key id)).bind claimOf

/-- Every key of the store holds a record that the store wrote. -/
def Holds (store : EtcdStore σ) (kvs : σ → String → Option String) (s : σ) : Prop :=
  ∀ id value, kvs s (store.key id) = some value → ∃ c, Recorded value c

theorem claimOf_eq {value : String} (h : Recorded value c) :
    claimOf value = some (c.claimsDigest, c.expiresAt) := by
  obtain ⟨raw, hraw, hrecord⟩ := h.read
  obtain ⟨hdigest, -, hexpires, -⟩ := fields_record (c := c)
  have htext : textOf (text c.claimsDigest) = some c.claimsDigest := by
    rw [text, textOf, PyStr.text?_ofString]
  rw [claimOf, hraw]
  simp [Except.toOption, hrecord, hdigest, hexpires, htext]

omit [Platform] in
theorem key_injective (store : EtcdStore σ) : Function.Injective store.key := by
  intro x y h
  have hb64 := congrArg String.toList h
  rw [key, key, String.toList_ofList, String.toList_ofList] at hb64
  have hbytes := b64_injective (encodeUtf8_lt _) (encodeUtf8_lt _) hb64
  have htext := congrArg decodeUtf8 hbytes
  rw [decodeUtf8_encodeUtf8, decodeUtf8_encodeUtf8, Option.some.injEq, String.toList_inj] at htext
  simpa using htext

omit [Platform] in
theorem checkNumber_decimal {n : ℕ} (h : 0 < n) (what : String) :
    checkNumber what (some (text (decimal n))) = .ok () := by
  have hne : Nat.toDigits 10 n ≠ [] := by
    rcases toDigits_cases n with ⟨-, hn⟩ | ⟨c, rest, hn, -⟩
    · simp [hn]
    · simp [hn]
  have hall : (Nat.toDigits 10 n).all Char.isDigit = true :=
    List.all_eq_true.mpr fun c ↦ isDigit_of_mem_toDigits
  rw [checkNumber, Option.bind_some, text, textOf, PyStr.text?_ofString]
  simp only [decimal, String.toList_ofList, Nat.ofDigitChars_ten_toDigits]
  rw [if_neg (by rw [hall]; simp [hne]), if_neg (by omega)]

end EtcdStore

/-! ## The answers of etcd -/

/-- The header of an answer of the cluster: its own number, a revision and a term, all as decimal
texts. -/
structure Answered (clusterId : String) (response : PyValue) : Prop where
  isDict : response.isDict = true
  header : ∃ header revision raftTerm, field "header" response = some header ∧
    header.isDict = true ∧ field "cluster_id" header = some (text clusterId) ∧
    0 < revision ∧ field "revision" header = some (text (decimal revision)) ∧
    0 < raftTerm ∧ field "raft_term" header = some (text (decimal raftTerm))

/-- What etcd documents of the transaction, as its JSON gateway answers it: the comparison and the
branch are one step. A key that was never written has version 0, so the value is put; for any other
key the row that is there is read. The gateway may leave out a false `succeeded`. -/
structure EtcdTransport.Atomic {σ : Type} (transport : EtcdTransport σ) (clusterId : String)
    (kvs : σ → String → Option String) : Prop where
  put : ∀ s key value, kvs s key = none →
    ∃ response s', transport s (transaction key value) = (.ok response, s') ∧
      kvs s' = Function.update (kvs s) key (some value) ∧ Answered clusterId response ∧
      field "succeeded" response = some (.bool true) ∧
      ∃ branch put, field "responses" response = some (.list [branch]) ∧
        field "response_put" branch = some put ∧ put.isDict = true
  range : ∀ s key value old, kvs s key = some old →
    ∃ response s', transport s (transaction key value) = (.ok response, s') ∧
      kvs s' = kvs s ∧ Answered clusterId response ∧
      (field "succeeded" response).getD (.bool false) = .bool false ∧
      ∃ branch range row, field "responses" response = some (.list [branch]) ∧
        field "response_range" branch = some range ∧ range.isDict = true ∧
        field "kvs" range = some (.list [row]) ∧ field "key" row = some (text key) ∧
        field "value" row = some (text old)

namespace EtcdStore

omit [Platform] in
/-- An answer of the cluster passes the checks. -/
theorem decision_eq_ok (store : EtcdStore σ) {branch response : PyValue} {succeeded : Bool}
    (h : Answered store.clusterId response)
    (hsucceeded : (field "succeeded" response).getD (.bool false) = .bool succeeded)
    (hresponses : field "responses" response = some (.list [branch])) :
    store.decision response = .ok (succeeded, branch) := by
  obtain ⟨header, revision, raftTerm, hheader, hdict, hcluster, hrev, hrevision, hterm, hraft⟩ :=
    h.header
  have hid : isClusterId store.clusterId (some (text store.clusterId)) = true := by
    rw [text, isClusterId, PyStr.text?_ofString, beq_self_eq_true]
  rw [decision, hheader, Option.getD_some]
  dsimp only
  rw [hcluster, hrevision, hraft]
  refine raiseIf_bind_eq_ok.mpr ⟨by simp [h.isDict], raiseIf_bind_eq_ok.mpr ⟨by simp [hdict], ?_⟩⟩
  refine raiseIf_bind_eq_ok.mpr ⟨by simp [hid], ?_⟩
  refine bind_eq_ok.mpr ⟨(), checkNumber_decimal hrev "revision", ?_⟩
  refine bind_eq_ok.mpr ⟨(), checkNumber_decimal hterm "term", ?_⟩
  rw [hsucceeded, hresponses]
  rfl

theorem readBranch_recorded {key value : String} {branch range row : PyValue}
    (hvalue : Recorded value c) (d : Consumption)
    (hrange : field "response_range" branch = some range) (hdict : range.isDict = true)
    (hkvs : field "kvs" range = some (.list [row])) (hkey : field "key" row = some (text key))
    (hrow : field "value" row = some (text value)) :
    readBranch key d branch = compareRecord d (.ofJson (.obj c.recordFields)) := by
  have htext : isText (some (text key)) key = true :=
      (isText_text key key).trans (decide_eq_true rfl)
  obtain ⟨raw, hdecode, hread⟩ := hvalue.read
  rw [readBranch, hrange, Option.getD_some, hkvs]
  simp [hdict, hkey, htext, hrow, hdecode, hread, raiseIf, bind, Except.bind]

variable {store : EtcdStore σ} {kvs : σ → String → Option String} {s : σ} {a : Arguments}

/-- A call for a key that was never written puts the record. -/
theorem consume_of_none {bytes : List ℕ} (hetcd : store.transport.Atomic store.clusterId kvs)
    (hvalid : a.validate = .ok c) (hbytes : c.record.canonicalBytes = .ok bytes)
    (hget : kvs s (store.key c.capabilityId) = none) :
    (store.consume s a).1 = .ok true ∧ kvs (store.consume s a).2 =
      Function.update (kvs s) (store.key c.capabilityId) (some (.ofList (b64 bytes))) := by
  obtain ⟨response, s', hcall, hkvs, hanswered, hsucceeded, branch, put, hbranch, hput, hdict⟩ :=
    hetcd.put s _ (.ofList (b64 bytes)) hget
  have hanswer : store.answer c response = .ok true := by
    refine bind_eq_ok.mpr ⟨_, store.decision_eq_ok hanswered (by rw [hsucceeded]; rfl) hbranch, ?_⟩
    simp [hput, hdict, raiseIf, bind, Except.bind, pure, Except.pure]
  rw [consume, hvalid]
  simp only [hbytes, hcall]
  exact ⟨hanswer, hkvs⟩

/-- A call for a key that holds a record compares with the record. -/
theorem consume_of_recorded {bytes : List ℕ} {d : Consumption} {value : String}
    (hetcd : store.transport.Atomic store.clusterId kvs) (hvalid : a.validate = .ok d)
    (hbytes : d.record.canonicalBytes = .ok bytes)
    (hget : kvs s (store.key d.capabilityId) = some value) (hvalue : Recorded value c) :
    (store.consume s a).1 =
      (if (c.claimsDigest, c.expiresAt) = (d.claimsDigest, d.expiresAt) then .ok false
        else .error (refused "capability ID collided with different signed claims")) ∧
      kvs (store.consume s a).2 = kvs s := by
  obtain ⟨response, s', hcall, hkvs, hanswered, hsucceeded, branch, range, row, hbranch, hrange,
    hdict, hrows, hkey, hrow⟩ := hetcd.range s _ (.ofList (b64 bytes)) value hget
  have hanswer : store.answer d response = compareRecord d (.ofJson (.obj c.recordFields)) := by
    rw [answer, store.decision_eq_ok hanswered hsucceeded hbranch]
    exact readBranch_recorded hvalue d hrange hdict hrows hkey hrow
  rw [consume, hvalid]
  simp only [hbytes, hcall]
  exact ⟨hanswer.trans (compareRecord_recordFields d), hkvs⟩

theorem consume_of_bindings {claim : String × ℤ}
    (hetcd : store.transport.Atomic store.clusterId kvs) (hholds : store.Holds kvs s)
    (hsafe : a.Safe) (hvalid : a.validate = .ok c)
    (hsome : store.bindings kvs s c.capabilityId = some claim) :
    (store.consume s a).1 = (if claim = (c.claimsDigest, c.expiresAt) then .ok false
        else .error (refused "capability ID collided with different signed claims")) ∧
      kvs (store.consume s a).2 = kvs s := by
  obtain ⟨hexp, hcon⟩ := hsafe.consumption hvalid
  obtain ⟨bytes, hbytes⟩ :=
    Consumption.exists_canonicalBytes (Arguments.validate_eq_ok hvalid).1 hexp hcon
  obtain ⟨value, hget, hclaim⟩ := Option.bind_eq_some_iff.mp hsome
  obtain ⟨d, hd⟩ := hholds _ _ hget
  rw [claimOf_eq hd, Option.some.injEq] at hclaim
  exact hclaim ▸ consume_of_recorded hetcd hvalid hbytes hget hd

theorem unchanged {s' : σ} (hkvs : kvs s' = kvs s) (hholds : store.Holds kvs s) :
    store.Holds kvs s' ∧ store.bindings kvs s' = store.bindings kvs s := by
  refine ⟨fun id value hvalue ↦ hholds id value (hkvs ▸ hvalue), funext fun id ↦ ?_⟩
  rw [bindings, bindings, hkvs]

/-- The store has the laws of consumption. -/
theorem laws (store : EtcdStore σ) {kvs : σ → String → Option String}
    (hetcd : store.transport.Atomic store.clusterId kvs) :
    Laws store.consume (store.Holds kvs) (store.bindings kvs) where
  refused {s a e} hholds _ he := by
    have hcls := a.raisesOnly_validate e he
    have hconsume : store.consume s a = (.error e, s) := by rw [consume, he]
    rw [hconsume]
    exact ⟨congrArg Except.error hcls, hholds, rfl⟩
  fresh {s a c} hholds hsafe hvalid hnone := by
    obtain ⟨hexp, hcon⟩ := hsafe.consumption hvalid
    obtain ⟨bytes, hbytes⟩ :=
      Consumption.exists_canonicalBytes (Arguments.validate_eq_ok hvalid).1 hexp hcon
    have hget : kvs s (store.key c.capabilityId) = none := by
      cases hget : kvs s (store.key c.capabilityId) with
      | none => rfl
      | some value =>
        obtain ⟨d, hd⟩ := hholds _ _ hget
        rw [bindings, hget, Option.bind_some, claimOf_eq hd] at hnone
        cases hnone
    obtain ⟨hresult, hkvs⟩ := consume_of_none hetcd hvalid hbytes hget
    have hrecorded : Recorded (.ofList (b64 bytes)) c := ⟨bytes, hbytes, rfl⟩
    refine ⟨by rw [hresult]; rfl, ?_, funext fun id ↦ ?_⟩
    · intro id value hvalue
      rw [hkvs, Function.update_apply] at hvalue
      split at hvalue
      · cases hvalue
        exact ⟨c, hrecorded⟩
      · exact hholds id value hvalue
    · rw [bindings, hkvs, Function.update_apply, Function.update_apply]
      by_cases hid : id = c.capabilityId
      · rw [if_pos (congrArg store.key hid), if_pos hid, Option.bind_some, claimOf_eq hrecorded]
      · rw [if_neg (store.key_injective.ne hid), if_neg hid, bindings]
  repeated {s a c} hholds hsafe hvalid hsome := by
    obtain ⟨hresult, hkvs⟩ := consume_of_bindings hetcd hholds hsafe hvalid hsome
    rw [if_pos rfl] at hresult
    exact ⟨by rw [hresult]; rfl, unchanged hkvs hholds⟩
  collided {s a c claim} hholds hsafe hvalid hsome hne := by
    obtain ⟨hresult, hkvs⟩ := consume_of_bindings hetcd hholds hsafe hvalid hsome
    rw [if_neg hne] at hresult
    exact ⟨by rw [hresult]; rfl, unchanged hkvs hholds⟩

end EtcdStore

end Records

end EventHorizon.Replay
