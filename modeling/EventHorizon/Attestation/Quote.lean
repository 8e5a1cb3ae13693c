import EventHorizon.Attestation.Canonical
import EventHorizon.Library.Reader

/-!
# Reading a TPM quote

`parseTpmsAttest` of `attestation/packages/core/src/tpm.ts`. A cursor is what is left of its data. A
read outside of a buffer is an error of its own here, which `parseTpmsAttest_ne_rangeError` shows is
never met. `parseTpmsAttest_eq_ok` says what is accepted: the encodings of `TpmsAttest`.
-/

namespace EventHorizon.Attestation

open BigEndian (ofBytes toBytes)

/-! ## Buffers -/

/-- A `Buffer`. -/
abbrev Buffer := List UInt8

inductive JsError
  | typeError (message : String)
  /-- A read outside of a buffer. -/
  | rangeError

/-- `buffer.readUInt16BE(offset)` and its like. -/
def readUIntBE (width : ℕ) (b : Buffer) (offset : ℕ) : Except JsError ℕ :=
  if offset + width ≤ b.length then .ok (ofBytes ((b.drop offset).take width))
  else .error .rangeError

def tpmGeneratedValue : ℕ := 0xff544347

def tpmStAttestQuote : ℕ := 0x8018

structure HashAlgorithm where
  name : String
  size : ℕ
  deriving DecidableEq

/-- `HASH_ALGORITHMS`. -/
def hashAlgorithms : List (ℕ × HashAlgorithm) :=
  [(0x0004, ⟨"sha1", 20⟩), (0x000b, ⟨"sha256", 32⟩), (0x000c, ⟨"sha384", 48⟩),
    (0x000d, ⟨"sha512", 64⟩)]

/-! ## The cursor -/

namespace Cursor

def take (size : ℕ) (cursor : Buffer) : Except JsError (Buffer × Buffer) :=
  if cursor.length < size then .error (.typeError "truncated TPMS_ATTEST")
  else .ok (cursor.take size, cursor.drop size)

/-- `u8`, `u16`, `u32` and `u64`. -/
def number (width : ℕ) (cursor : Buffer) : Except JsError (ℕ × Buffer) :=
  readThen (take width cursor) fun value cursor ↦ do
    let n ← readUIntBE width value 0
    return (n, cursor)

def sized (maximum : ℕ) (cursor : Buffer) : Except JsError (Buffer × Buffer) :=
  readThen (number 2 cursor) fun size cursor ↦ do
    raiseIf (maximum < size) (.typeError "TPM2B field exceeds limit")
    take size cursor

end Cursor

/-! ## Parsing -/

structure TpmPcrSelection where
  algorithmId : ℕ
  algorithm : String
  selectedPcrs : List ℕ

structure ParsedTpmQuote where
  magic : ℕ
  type : ℕ
  qualifiedSigner : JsString
  extraData : Buffer
  clock : ℕ
  resetCount : ℕ
  restartCount : ℕ
  safe : Bool
  firmwareVersion : ℕ
  pcrSelections : List TpmPcrSelection
  pcrDigest : Buffer

/-- `buffer.toString('hex')`. -/
def toHex (b : Buffer) : JsString :=
  b.flatMap fun x ↦
    [.ofNat (Sha256.hexDigit (x.toNat / 16)).toNat, .ofNat (Sha256.hexDigit (x.toNat % 16)).toNat]

def unwrapAttest (input : Buffer) : Except JsError Buffer :=
  if input.length < 6 then .ok input
  else do
    let length ← readUIntBE 2 input 0
    if length = input.length - 2 then
      let magic ← readUIntBE 4 input 2
      return if magic = tpmGeneratedValue then input.drop 2 else input
    else return input

/-- The loops over a bitmap, from the octet with the given index on. -/
def selectedFrom (byteIndex : ℕ) : Buffer → List ℕ
  | [] => []
  | byte :: rest =>
    ((List.range 8).filter fun bit ↦ byte.toNat &&& (1 <<< bit) ≠ 0).map (byteIndex * 8 + ·) ++
      selectedFrom (byteIndex + 1) rest

/-- The loop over a bitmap. -/
def selectedPcrs (bitmap : Buffer) : List ℕ := selectedFrom 0 bitmap

/-- A turn of the loop of `parseTpmsAttest`. -/
def parseSelection (cursor : Buffer) : Except JsError (TpmPcrSelection × Buffer) :=
  readThen (Cursor.number 2 cursor) fun algorithmId cursor ↦
  match hashAlgorithms.lookup algorithmId with
  | none => .error (.typeError ("unsupported TPM PCR bank: " ++ toString algorithmId))
  | some algorithm =>
    readThen (Cursor.number 1 cursor) fun sizeOfSelect cursor ↦ do
    raiseIf (sizeOfSelect < 1 ∨ 4 < sizeOfSelect) (.typeError "TPM PCR selection width is invalid")
    readThen (Cursor.take sizeOfSelect cursor) fun bitmap cursor ↦ do
    raiseIf (selectedPcrs bitmap = []) (.typeError "TPM quote selected no PCRs")
    return (⟨algorithmId, algorithm.name, selectedPcrs bitmap⟩, cursor)

/-- `parseTpmsAttest`, of what is unwrapped. -/
def parseUnwrapped (data : Buffer) : Except JsError ParsedTpmQuote := do
  raiseIf (data.length < 32 ∨ 16384 < data.length) (.typeError "TPMS_ATTEST size is invalid")
  readThen (Cursor.number 4 data) fun magic cursor ↦
  readThen (Cursor.number 2 cursor) fun type cursor ↦ do
  raiseIf (magic ≠ tpmGeneratedValue) (.typeError "TPMS_ATTEST magic is invalid")
  raiseIf (type ≠ tpmStAttestQuote) (.typeError "attestation is not a TPM quote")
  readThen (Cursor.sized 128 cursor) fun signer cursor ↦
  readThen (Cursor.sized 1024 cursor) fun extraData cursor ↦
  readThen (Cursor.number 8 cursor) fun clock cursor ↦
  readThen (Cursor.number 4 cursor) fun resetCount cursor ↦
  readThen (Cursor.number 4 cursor) fun restartCount cursor ↦
  readThen (Cursor.number 1 cursor) fun safeValue cursor ↦ do
  raiseIf (safeValue ≠ 0 ∧ safeValue ≠ 1) (.typeError "TPM clock safe flag is invalid")
  readThen (Cursor.number 8 cursor) fun firmwareVersion cursor ↦
  readThen (Cursor.number 4 cursor) fun selectionCount cursor ↦ do
  raiseIf (selectionCount < 1 ∨ 8 < selectionCount)
    (.typeError "TPM PCR selection count is invalid")
  readThen (readTimes parseSelection selectionCount cursor) fun pcrSelections cursor ↦
  readThen (Cursor.sized 128 cursor) fun pcrDigest cursor ↦ do
  raiseIf (cursor ≠ []) (.typeError "TPMS_ATTEST has trailing bytes")
  return {
    magic := magic
    type := type
    qualifiedSigner := toHex signer
    extraData := extraData
    clock := clock
    resetCount := resetCount
    restartCount := restartCount
    safe := safeValue = 1
    firmwareVersion := firmwareVersion
    pcrSelections := pcrSelections
    pcrDigest := pcrDigest }

def parseTpmsAttest (input : Buffer) : Except JsError ParsedTpmQuote := do
  let data ← unwrapAttest input
  parseUnwrapped data

/-! ## Quotes -/

/-- A selection of a supported bank, with a bit that is set. -/
structure Selection where
  algorithmId : ℕ
  algorithm : HashAlgorithm
  bitmap : Buffer
  lookup_algorithmId : hashAlgorithms.lookup algorithmId = some algorithm
  length_pos : 1 ≤ bitmap.length
  length_le : bitmap.length ≤ 4
  exists_bit : ∃ byte ∈ bitmap, byte ≠ 0

/-- A quote that may be attested. -/
structure TpmsAttest where
  signer : Buffer
  extraData : Buffer
  clock : ℕ
  resetCount : ℕ
  restartCount : ℕ
  safe : Bool
  firmwareVersion : ℕ
  selections : List Selection
  pcrDigest : Buffer
  length_signer : signer.length ≤ 128
  length_extraData : extraData.length ≤ 1024
  clock_lt : clock < 2 ^ 64
  resetCount_lt : resetCount < 2 ^ 32
  restartCount_lt : restartCount < 2 ^ 32
  firmwareVersion_lt : firmwareVersion < 2 ^ 64
  selections_pos : 1 ≤ selections.length
  selections_le : selections.length ≤ 8
  length_pcrDigest : pcrDigest.length ≤ 128

/-- A buffer after its length in two octets. -/
def encodeSized (b : Buffer) : Buffer := toBytes 2 b.length ++ b

def Selection.encode (s : Selection) : Buffer :=
  toBytes 2 s.algorithmId ++ toBytes 1 s.bitmap.length ++ s.bitmap

def Selection.parsed (s : Selection) : TpmPcrSelection :=
  ⟨s.algorithmId, s.algorithm.name, selectedPcrs s.bitmap⟩

namespace TpmsAttest

def encode (q : TpmsAttest) : Buffer :=
  toBytes 4 tpmGeneratedValue ++ toBytes 2 tpmStAttestQuote ++ encodeSized q.signer ++
    encodeSized q.extraData ++ toBytes 8 q.clock ++ toBytes 4 q.resetCount ++
    toBytes 4 q.restartCount ++ toBytes 1 (if q.safe then 1 else 0) ++
    toBytes 8 q.firmwareVersion ++
    toBytes 4 q.selections.length ++ q.selections.flatMap Selection.encode ++
    encodeSized q.pcrDigest

def parsed (q : TpmsAttest) : ParsedTpmQuote where
  magic := tpmGeneratedValue
  type := tpmStAttestQuote
  qualifiedSigner := toHex q.signer
  extraData := q.extraData
  clock := q.clock
  resetCount := q.resetCount
  restartCount := q.restartCount
  safe := q.safe
  firmwareVersion := q.firmwareVersion
  pcrSelections := q.selections.map Selection.parsed
  pcrDigest := q.pcrDigest

end TpmsAttest

/-! ## What a reader takes -/

theorem readUIntBE_zero {width : ℕ} {b : Buffer} (h : b.length = width) :
    readUIntBE width b 0 = .ok (ofBytes b) := by
  rw [readUIntBE, if_pos (by omega), List.drop_zero, List.take_of_length_le h.le]

namespace Cursor

variable {xs rest : Buffer}

theorem take_eq_ok {size : ℕ} {b : Buffer} :
    take size xs = .ok (b, rest) ↔ b.length = size ∧ xs = b ++ rest := by
  rw [take]
  split
  case isTrue hlt =>
    refine iff_of_false (fun h ↦ nomatch h) fun ⟨hlength, hxs⟩ ↦ ?_
    rw [hxs, List.length_append] at hlt
    omega
  case isFalse hle =>
    rw [Except.ok.injEq, Prod.mk.injEq]
    constructor
    · rintro ⟨rfl, rfl⟩
      exact ⟨List.length_take_of_le (not_lt.mp hle), (List.take_append_drop size xs).symm⟩
    · rintro ⟨rfl, rfl⟩
      exact ⟨List.take_left, List.drop_left⟩

theorem number_eq_ok {width n : ℕ} :
    number width xs = .ok (n, rest) ↔ n < 256 ^ width ∧ xs = toBytes width n ++ rest := by
  rw [number, readThen_eq_ok]
  constructor
  · rintro ⟨b, rest', htake, h⟩
    obtain ⟨hlength, rfl⟩ := take_eq_ok.mp htake
    obtain ⟨n', hn, h⟩ := bind_eq_ok.mp h
    rw [readUIntBE_zero hlength, Except.ok.injEq] at hn
    cases h
    subst hn
    rw [← hlength]
    exact ⟨BigEndian.ofBytes_lt b, by rw [BigEndian.toBytes_ofBytes]⟩
  · rintro ⟨hlt, rfl⟩
    refine ⟨toBytes width n, rest, take_eq_ok.mpr ⟨BigEndian.length_toBytes, rfl⟩, ?_⟩
    refine bind_eq_ok.mpr ⟨n, ?_, rfl⟩
    rw [readUIntBE_zero BigEndian.length_toBytes, BigEndian.ofBytes_toBytes hlt]

theorem sized_eq_ok {maximum : ℕ} {b : Buffer} (hmax : maximum < 256 ^ 2) :
    sized maximum xs = .ok (b, rest) ↔ b.length ≤ maximum ∧ xs = encodeSized b ++ rest := by
  rw [sized, readThen_eq_ok]
  constructor
  · rintro ⟨size, rest', hsize, h⟩
    obtain ⟨-, rfl⟩ := number_eq_ok.mp hsize
    obtain ⟨hle, h⟩ := raiseIf_bind_eq_ok.mp h
    obtain ⟨rfl, rfl⟩ := take_eq_ok.mp h
    rw [encodeSized, List.append_assoc]
    exact ⟨not_lt.mp hle, rfl⟩
  · rintro ⟨hle, rfl⟩
    rw [encodeSized, List.append_assoc]
    refine ⟨b.length, b ++ rest, number_eq_ok.mpr ⟨by omega, rfl⟩, ?_⟩
    exact raiseIf_bind_eq_ok.mpr ⟨not_lt.mpr hle, take_eq_ok.mpr ⟨rfl, rfl⟩⟩

section Then

variable {δ : Type} {d : δ}

theorem take_then {size : ℕ} {f : Buffer → Buffer → Except JsError δ} :
    readThen (take size xs) f = .ok d ↔
      ∃ b rest, b.length = size ∧ xs = b ++ rest ∧ f b rest = .ok d := by
  simp only [readThen_eq_ok, take_eq_ok, and_assoc]

theorem number_then {width : ℕ} {f : ℕ → Buffer → Except JsError δ} :
    readThen (number width xs) f = .ok d ↔
      ∃ n rest, n < 256 ^ width ∧ xs = toBytes width n ++ rest ∧ f n rest = .ok d := by
  simp only [readThen_eq_ok, number_eq_ok, and_assoc]

theorem sized_then {maximum : ℕ} {f : Buffer → Buffer → Except JsError δ}
    (hmax : maximum < 256 ^ 2) :
    readThen (sized maximum xs) f = .ok d ↔
      ∃ b rest, b.length ≤ maximum ∧ xs = encodeSized b ++ rest ∧ f b rest = .ok d := by
  simp only [readThen_eq_ok, sized_eq_ok hmax, and_assoc]

end Then

end Cursor

/-! ## Bitmaps -/

theorem and_shiftLeft_ne_zero {m bit : ℕ} : m &&& (1 <<< bit) ≠ 0 ↔ m.testBit bit = true := by
  rw [Nat.one_shiftLeft]
  constructor
  · intro h
    obtain ⟨i, hi⟩ := Nat.exists_testBit_of_ne_zero h
    rw [Nat.testBit_and, Nat.testBit_two_pow, Bool.and_eq_true, decide_eq_true_iff] at hi
    rw [hi.2]
    exact hi.1
  · intro h hzero
    have hbit := congrArg (fun k ↦ Nat.testBit k bit) hzero
    simp only [Nat.testBit_and, Nat.testBit_two_pow_self, h, Nat.zero_testBit] at hbit
    cases hbit

theorem mem_selectedFrom {bitmap : Buffer} {byteIndex n : ℕ} : n ∈ selectedFrom byteIndex bitmap ↔
    ∃ i byte, bitmap[i]? = some byte ∧ ∃ bit < 8, byte.toNat.testBit bit = true ∧
      n = (byteIndex + i) * 8 + bit := by
  induction bitmap generalizing byteIndex with
  | nil => simp [selectedFrom]
  | cons byte rest ih =>
    rw [selectedFrom, List.mem_append, @ih (byteIndex + 1), List.mem_map]
    constructor
    · rintro (⟨bit, hbit, rfl⟩ | ⟨i, byte', hbyte, bit, hbit, hset, rfl⟩)
      · rw [List.mem_filter, List.mem_range, decide_eq_true_iff, and_shiftLeft_ne_zero] at hbit
        exact ⟨0, byte, rfl, bit, hbit.1, hbit.2, rfl⟩
      · exact ⟨i + 1, byte', hbyte, bit, hbit, hset, by omega⟩
    · rintro ⟨i, byte', hbyte, bit, hbit, hset, rfl⟩
      cases i with
      | zero =>
        obtain rfl := Option.some.inj hbyte
        refine .inl ⟨bit, ?_, rfl⟩
        rw [List.mem_filter, List.mem_range, decide_eq_true_iff, and_shiftLeft_ne_zero]
        exact ⟨hbit, hset⟩
      | succ i => exact .inr ⟨i, byte', hbyte, bit, hbit, hset, by omega⟩

/-- The selected registers are the bits of the bitmap that are set. -/
theorem mem_selectedPcrs {bitmap : Buffer} {n : ℕ} : n ∈ selectedPcrs bitmap ↔
    ∃ byte, bitmap[n / 8]? = some byte ∧ byte.toNat.testBit (n % 8) = true := by
  rw [selectedPcrs, mem_selectedFrom]
  constructor
  · rintro ⟨i, byte, hbyte, bit, hbit, hset, rfl⟩
    have hdiv : ((0 + i) * 8 + bit) / 8 = i := by omega
    have hmod : ((0 + i) * 8 + bit) % 8 = bit := by omega
    rw [hdiv, hmod]
    exact ⟨byte, hbyte, hset⟩
  · rintro ⟨byte, hbyte, hset⟩
    exact ⟨n / 8, byte, hbyte, n % 8, Nat.mod_lt n (by decide), hset, by omega⟩

/-- They come in increasing order. -/
theorem pairwise_selectedFrom (bitmap : Buffer) (byteIndex : ℕ) :
    (selectedFrom byteIndex bitmap).Pairwise (· < ·) := by
  induction bitmap generalizing byteIndex with
  | nil => exact .nil
  | cons byte rest ih =>
    rw [selectedFrom, List.pairwise_append]
    refine ⟨?_, ih _, ?_⟩
    · refine List.Pairwise.map _ (fun a b h ↦ Nat.add_lt_add_left h _) ?_
      exact List.Pairwise.filter _ List.pairwise_lt_range
    · intro a ha b hb
      obtain ⟨bit, hbit, rfl⟩ := List.mem_map.mp ha
      obtain ⟨i, _, _, bit', -, -, rfl⟩ := mem_selectedFrom.mp hb
      rw [List.mem_filter, List.mem_range] at hbit
      omega

theorem selectedPcrs_ne_nil {bitmap : Buffer} :
    selectedPcrs bitmap ≠ [] ↔ ∃ byte ∈ bitmap, byte ≠ 0 := by
  constructor
  · intro h
    obtain ⟨n, hn⟩ := List.exists_mem_of_ne_nil _ h
    obtain ⟨byte, hbyte, hset⟩ := mem_selectedPcrs.mp hn
    refine ⟨byte, List.mem_of_getElem? hbyte, fun hzero ↦ ?_⟩
    rw [hzero] at hset
    simp at hset
  · rintro ⟨byte, hbyte, hne⟩ hnil
    obtain ⟨i, hi⟩ := List.mem_iff_getElem?.mp hbyte
    have htoNat : byte.toNat ≠ 0 := fun h ↦ hne (UInt8.toNat_inj.mp h)
    obtain ⟨bit, hbit⟩ := Nat.exists_testBit_of_ne_zero htoNat
    have hlt : bit < 8 := by
      by_contra hge
      have hpow : 2 ^ 8 ≤ 2 ^ bit := Nat.pow_le_pow_right (by decide) (not_lt.mp hge)
      have hbound := byte.toNat_lt
      rw [Nat.testBit_lt_two_pow (by omega)] at hbit
      cases hbit
    have hmem : i * 8 + bit ∈ selectedPcrs bitmap := by
      refine mem_selectedPcrs.mpr ⟨byte, ?_, ?_⟩
      · rwa [show (i * 8 + bit) / 8 = i by omega]
      · rwa [show (i * 8 + bit) % 8 = bit by omega]
    rw [hnil] at hmem
    cases hmem

/-! ## What is accepted -/

/-- A selection is read exactly when it is encoded. -/
theorem reads_parseSelection :
    Reads parseSelection Selection.parsed Selection.encode fun _ ↦ True := by
  intro xs rest c
  rw [parseSelection, Cursor.number_then]
  constructor
  · rintro ⟨algorithmId, _, -, rfl, h⟩
    split at h
    case h_1 => cases h
    case h_2 algorithm halgorithm =>
    rw [Cursor.number_then] at h
    obtain ⟨_, _, -, rfl, h⟩ := h
    rw [raiseIf_bind_eq_ok, Cursor.take_then, not_or, not_lt, not_lt] at h
    obtain ⟨⟨hpos, hle⟩, bitmap, _, rfl, rfl, h⟩ := h
    rw [raiseIf_bind_eq_ok] at h
    obtain ⟨hbits, h⟩ := h
    cases h
    refine ⟨⟨algorithmId, algorithm, bitmap, halgorithm, hpos, hle,
      selectedPcrs_ne_nil.mp hbits⟩, trivial, rfl, ?_⟩
    rw [Selection.encode, List.append_assoc, List.append_assoc]
  · rintro ⟨s, -, rfl, rfl⟩
    have hid : s.algorithmId < 256 ^ 2 := by
      obtain ⟨front, back, hsplit, -⟩ := List.lookup_eq_some_iff.mp s.lookup_algorithmId
      have hbound : ∀ r ∈ hashAlgorithms, r.1 < 256 ^ 2 := by decide
      exact hbound (s.algorithmId, s.algorithm) (by rw [hsplit]; simp)
    have hle := s.length_le
    rw [Selection.encode, List.append_assoc, List.append_assoc]
    refine ⟨_, _, hid, rfl, ?_⟩
    rw [s.lookup_algorithmId]
    refine Cursor.number_then.mpr ⟨_, _, by omega, rfl, raiseIf_bind_eq_ok.mpr ⟨?_, ?_⟩⟩
    · rw [not_or, not_lt, not_lt]
      exact ⟨s.length_pos, hle⟩
    · exact Cursor.take_then.mpr ⟨_, _, rfl, rfl, raiseIf_bind_eq_ok.mpr
        ⟨selectedPcrs_ne_nil.mpr s.exists_bit, rfl⟩⟩

theorem Selection.length_encode (s : Selection) : s.encode.length ≤ 7 := by
  have hle := s.length_le
  rw [encode, List.length_append, List.length_append, BigEndian.length_toBytes,
    BigEndian.length_toBytes]
  omega

namespace TpmsAttest

theorem length_encodeSized (b : Buffer) : (encodeSized b).length = b.length + 2 := by
  rw [encodeSized, List.length_append, BigEndian.length_toBytes, Nat.add_comm]

theorem length_selections (selections : List Selection) :
    (selections.flatMap Selection.encode).length ≤ 7 * selections.length := by
  induction selections with
  | nil => exact Nat.zero_le _
  | cons s selections ih =>
    have hs := s.length_encode
    rw [List.flatMap_cons, List.length_append, List.length_cons]
    omega

/-- The encoding of a quote passes the check of its size, whatever its parts are. -/
theorem length_encode (q : TpmsAttest) : 32 ≤ q.encode.length ∧ q.encode.length ≤ 1377 := by
  have hsigner := q.length_signer
  have hextra := q.length_extraData
  have hdigest := q.length_pcrDigest
  have hcount := q.selections_le
  have hselections := length_selections q.selections
  simp only [encode, List.length_append, BigEndian.length_toBytes, length_encodeSized]
  omega

end TpmsAttest

/-- What is parsed without its length is the encoding of a quote. -/
theorem parseUnwrapped_eq_ok {data : Buffer} {p : ParsedTpmQuote} :
    parseUnwrapped data = .ok p ↔ ∃ q : TpmsAttest, data = q.encode ∧ p = q.parsed := by
  have hsized : 128 < 256 ^ 2 := by decide
  have hextra : 1024 < 256 ^ 2 := by decide
  rw [parseUnwrapped]
  simp only [raiseIf_bind_eq_ok, Cursor.number_then, Cursor.sized_then hsized,
    Cursor.sized_then hextra, not_or, not_and_or, not_lt, not_not]
  constructor
  · rintro ⟨-, _, _, -, rfl, _, _, -, rfl, rfl, rfl, signer, _, hsigner, rfl, extraData, _,
      hextraData, rfl, clock, _, hclock, rfl, resetCount, _, hreset, rfl, restartCount, _, hrestart,
      rfl,
      safeValue, _, -, rfl, hsafe, firmwareVersion, _, hfirmware, rfl, _, _, -, rfl, ⟨hpos, hle⟩, h⟩
    rw [readThen_eq_ok] at h
    obtain ⟨_, _, hselections, h⟩ := h
    obtain ⟨selections, ⟨rfl, -⟩, rfl, rfl⟩ := (reads_parseSelection.times _).mp hselections
    rw [Cursor.sized_then hsized] at h
    obtain ⟨pcrDigest, _, hdigest, rfl, h⟩ := h
    rw [raiseIf_bind_eq_ok, not_not] at h
    obtain ⟨rfl, h⟩ := h
    refine ⟨⟨signer, extraData, clock, resetCount, restartCount, decide (safeValue = 1),
      firmwareVersion, selections, pcrDigest, hsigner, hextraData, hclock, hreset, hrestart,
      hfirmware, hpos, hle, hdigest⟩, ?_, (Except.ok.inj h).symm⟩
    have hsafeValue : safeValue = if decide (safeValue = 1) then 1 else 0 := by
      obtain rfl | rfl := hsafe
      · rfl
      · rfl
    rw [TpmsAttest.encode]
    dsimp only
    rw [← hsafeValue]
    simp only [List.append_assoc, List.append_nil]
  · rintro ⟨q, rfl, rfl⟩
    obtain ⟨hmin, hmax⟩ := q.length_encode
    have hcount := q.selections_le
    refine ⟨⟨hmin, by omega⟩, ?_⟩
    rw [TpmsAttest.encode]
    simp only [List.append_assoc]
    refine ⟨_, _, by decide, rfl, _, _, by decide, rfl, rfl, rfl, _, _, q.length_signer, rfl, _, _,
      q.length_extraData, rfl, _, _, q.clock_lt, rfl, _, _, q.resetCount_lt, rfl, _, _,
      q.restartCount_lt, rfl, _, _, ?_, rfl, ?_, _, _, q.firmwareVersion_lt, rfl, _,
      _, by omega, rfl, ⟨q.selections_pos, hcount⟩, ?_⟩
    · cases q.safe <;> decide
    · cases q.safe
      · exact .inl rfl
      · exact .inr rfl
    refine readThen_eq_ok.mpr ⟨_, _, (reads_parseSelection.times _).mpr
      ⟨q.selections, ⟨rfl, fun _ _ ↦ trivial⟩, rfl, rfl⟩, ?_⟩
    refine (Cursor.sized_then hsized).mpr
      ⟨_, _, q.length_pcrDigest, (List.append_nil _).symm, raiseIf_bind_eq_ok.mpr
        ⟨not_not.mpr rfl, congrArg Except.ok ?_⟩⟩
    have hsafe : decide ((if q.safe = true then 1 else 0) = 1) = q.safe := by
      cases q.safe <;> rfl
    rw [TpmsAttest.parsed]
    simp only [hsafe]


/-! ## The length before a quote -/

/-- What is unwrapped: all of the input, or what comes after its length. -/
theorem unwrapAttest_eq (input : Buffer) : unwrapAttest input = .ok
    (if 6 ≤ input.length ∧ ofBytes (input.take 2) = input.length - 2 ∧
        ofBytes ((input.drop 2).take 4) = tpmGeneratedValue then input.drop 2 else input) := by
  rw [unwrapAttest]
  split
  case isTrue hlt => rw [if_neg fun h ↦ absurd h.1 (by omega)]
  case isFalse hle =>
    rw [not_lt] at hle
    have hlength : readUIntBE 2 input 0 = .ok (ofBytes (input.take 2)) := if_pos (by omega)
    have hmagic : readUIntBE 4 input 2 = .ok (ofBytes ((input.drop 2).take 4)) := if_pos (by omega)
    rw [hlength, hmagic]
    by_cases hsame : ofBytes (input.take 2) = input.length - 2
    · by_cases hgenerated : ofBytes ((input.drop 2).take 4) = tpmGeneratedValue
      · rw [if_pos ⟨hle, hsame, hgenerated⟩]
        exact (if_pos hsame).trans (congrArg Except.ok (if_pos hgenerated))
      · rw [if_neg fun h ↦ hgenerated h.2.2]
        exact (if_pos hsame).trans (congrArg Except.ok (if_neg hgenerated))
    · rw [if_neg fun h ↦ hsame h.2.1]
      exact if_neg hsame

/-- The first octets of a quote are not its length. -/
theorem TpmsAttest.unwrapAttest_encode (q : TpmsAttest) : unwrapAttest q.encode = .ok q.encode := by
  rw [unwrapAttest_eq, if_neg]
  rintro ⟨-, hlength, -⟩
  have hhead : q.encode.take 2 = [0xff, 0x54] := rfl
  have hnumber : ofBytes [0xff, 0x54] = 0xff54 := by decide
  have hmax := q.length_encode.2
  rw [hhead, hnumber] at hlength
  omega

/-- With its length before it, a quote is unwrapped. -/
theorem TpmsAttest.unwrapAttest_wrapped (q : TpmsAttest) :
    unwrapAttest (encodeSized q.encode) = .ok q.encode := by
  obtain ⟨hmin, hmax⟩ := q.length_encode
  have hhead : q.encode.take 4 = toBytes 4 tpmGeneratedValue := rfl
  have htake : (encodeSized q.encode).take 2 = toBytes 2 q.encode.length :=
    List.take_left' BigEndian.length_toBytes
  have hdrop : (encodeSized q.encode).drop 2 = q.encode := List.drop_left' BigEndian.length_toBytes
  have hlength := TpmsAttest.length_encodeSized q.encode
  rw [unwrapAttest_eq, if_pos, hdrop]
  rw [hdrop, htake, hhead, BigEndian.ofBytes_toBytes (by omega),
    BigEndian.ofBytes_toBytes (by decide)]
  exact ⟨by omega, by omega, rfl⟩

/-- **What `parseTpmsAttest` accepts**: the encoding of a quote, with its length before it or not;
and what it returns is that quote. -/
theorem parseTpmsAttest_eq_ok {input : Buffer} {p : ParsedTpmQuote} :
    parseTpmsAttest input = .ok p ↔
      ∃ q : TpmsAttest, (input = q.encode ∨ input = encodeSized q.encode) ∧ p = q.parsed := by
  rw [parseTpmsAttest, bind_eq_ok]
  constructor
  · rintro ⟨data, hdata, h⟩
    obtain ⟨q, rfl, rfl⟩ := parseUnwrapped_eq_ok.mp h
    refine ⟨q, ?_, rfl⟩
    rw [unwrapAttest_eq, Except.ok.injEq] at hdata
    split at hdata
    case isFalse => exact .inl hdata
    case isTrue hwrapped =>
      obtain ⟨hle, hlength, -⟩ := hwrapped
      right
      have htake : input.take 2 = toBytes 2 q.encode.length := by
        rw [BigEndian.eq_toBytes (List.length_take_of_le (show 2 ≤ input.length by omega)), hlength,
          ← hdata, List.length_drop]
      rw [encodeSized, ← htake, ← hdata, List.take_append_drop]
  · rintro ⟨q, hinput, rfl⟩
    refine ⟨q.encode, ?_, parseUnwrapped_eq_ok.mpr ⟨q, rfl, rfl⟩⟩
    obtain rfl | rfl := hinput
    · exact q.unwrapAttest_encode
    · exact q.unwrapAttest_wrapped

/-! ## What is read is there -/

theorem Cursor.take_ne_rangeError (size : ℕ) (cursor : Buffer) :
    Cursor.take size cursor ≠ .error .rangeError := by
  rw [Cursor.take]
  split
  · exact fun h ↦ nomatch h
  · exact fun h ↦ nomatch h

theorem Cursor.number_ne_rangeError (width : ℕ) (cursor : Buffer) :
    Cursor.number width cursor ≠ .error .rangeError := by
  rw [Cursor.number]
  refine readThen_ne_error (take_ne_rangeError width cursor) fun value rest h ↦ ?_
  rw [readUIntBE_zero (take_eq_ok.mp h).1]
  exact fun h ↦ nomatch h

theorem Cursor.sized_ne_rangeError (maximum : ℕ) (cursor : Buffer) :
    Cursor.sized maximum cursor ≠ .error .rangeError := by
  rw [Cursor.sized]
  refine readThen_ne_error (number_ne_rangeError 2 cursor) fun size rest _ ↦ ?_
  exact bind_ne_error (raiseIf_ne_error fun _ h ↦ nomatch h) fun _ _ ↦ take_ne_rangeError size rest

theorem parseSelection_ne_rangeError (cursor : Buffer) :
    parseSelection cursor ≠ .error .rangeError := by
  rw [parseSelection]
  refine readThen_ne_error (Cursor.number_ne_rangeError 2 cursor) fun _ _ _ ↦ ?_
  split
  · exact fun h ↦ nomatch h
  · refine readThen_ne_error (Cursor.number_ne_rangeError 1 _) fun _ _ _ ↦ ?_
    refine bind_ne_error (raiseIf_ne_error fun _ h ↦ nomatch h) fun _ _ ↦ ?_
    refine readThen_ne_error (Cursor.take_ne_rangeError _ _) fun _ _ _ ↦ ?_
    exact bind_ne_error (raiseIf_ne_error fun _ h ↦ nomatch h) fun _ _ h ↦ nomatch h

/-- No read is outside of its buffer, whatever the input is. -/
theorem parseTpmsAttest_ne_rangeError (input : Buffer) :
    parseTpmsAttest input ≠ .error .rangeError := by
  have hnumber := Cursor.number_ne_rangeError
  have hsized := Cursor.sized_ne_rangeError
  have hcheck :
      ∀ {p : Prop} [Decidable p] {message : String} {f : Unit → Except JsError ParsedTpmQuote},
      f () ≠ .error .rangeError →
      (raiseIf p (.typeError message) >>= f) ≠ .error .rangeError := fun hf ↦
    bind_ne_error (raiseIf_ne_error fun _ h ↦ nomatch h) fun _ _ ↦ hf
  rw [parseTpmsAttest, unwrapAttest_eq]
  refine hcheck (readThen_ne_error (hnumber _ _) fun _ _ _ ↦ ?_)
  refine readThen_ne_error (hnumber _ _) fun _ _ _ ↦ hcheck (hcheck ?_)
  refine readThen_ne_error (hsized _ _) fun _ _ _ ↦ readThen_ne_error (hsized _ _) fun _ _ _ ↦ ?_
  refine readThen_ne_error (hnumber _ _) fun _ _ _ ↦ readThen_ne_error (hnumber _ _) fun _ _ _ ↦ ?_
  refine readThen_ne_error (hnumber _ _) fun _ _ _ ↦ readThen_ne_error (hnumber _ _) fun _ _ _ ↦ ?_
  refine hcheck (readThen_ne_error (hnumber _ _) fun _ _ _ ↦ ?_)
  refine readThen_ne_error (hnumber _ _) fun _ _ _ ↦ hcheck ?_
  refine readThen_ne_error (readTimes_ne_error parseSelection_ne_rangeError _ _) fun _ _ _ ↦ ?_
  exact readThen_ne_error (hsized _ _) fun _ _ _ ↦ hcheck fun h ↦ nomatch h

end EventHorizon.Attestation
