import EventHorizon.Canonical.Encodable
import EventHorizon.Canonical.RoundTrip

/-!
# Length-framed messages

The frames of `protocol.py`: four octets with the length of the payload, then the payload, which is
the canonical JSON of an object. `encode_frame` checks a message with `validate_value` and again
with the canonical form; `read_frame` reads the payload in as many pieces as the stream gives it,
parses it, and makes both checks on what it has parsed.
-/

namespace EventHorizon.Protocol

/-! ## Exceptions -/

structure ProtocolError where
  code : PyStr
  message : PyStr
  deriving DecidableEq, Repr

/-- What a call may raise, as far as `serve` tells exceptions apart. -/
inductive Raised
  /-- `EOFError`. -/
  | eof
  | protocol (e : ProtocolError)
  /-- Another `Exception`. -/
  | exception (e : Exn)
  /-- A `BaseException` that is no `Exception`. -/
  | base
  deriving DecidableEq, Repr

/-- `ProtocolError(code, message)` with texts of the source. -/
def refusal (code message : String) : Raised := .protocol ⟨.ofString code, .ofString message⟩

/-! ## Validation -/

def maxFrameBytes : ℕ := 65536

def maxNesting : ℕ := 8

def maxStringBytes : ℕ := 16384

def maxCollectionItems : ℕ := 256

section Validation

variable [Platform]

/-- The string branch of `validate_value`. -/
def validateText (depth : ℕ) (s : PyStr) : Except Raised Unit :=
  if maxNesting < depth then .error (refusal "nesting_limit" "message nesting limit exceeded")
  else if !s.isNfc then
    .error (refusal "unicode_normalization" "strings must already be Unicode NFC")
  else match s.text? with
    | none => .error (.exception s.encodeError)
    | some t =>
      if maxStringBytes < t.utf8ByteSize then
        .error (refusal "string_limit" "string byte limit exceeded")
      else .ok ()

mutual

/-- `validate_value`. A tuple is an unsupported value. -/
def validateValue (depth : ℕ) : PyValue → Except Raised Unit
  | .none | .bool _ =>
    if maxNesting < depth then .error (refusal "nesting_limit" "message nesting limit exceeded")
    else .ok ()
  | .int n =>
    if maxNesting < depth then .error (refusal "nesting_limit" "message nesting limit exceeded")
    else if maxSafeInteger < n.natAbs then
      .error (refusal "number_limit" "integer exceeds interoperable range")
    else .ok ()
  | .float f =>
    if maxNesting < depth then .error (refusal "nesting_limit" "message nesting limit exceeded")
    else if !f.isFinite || f.isNegativeZero then
      .error (refusal "invalid_number" "non-finite numbers and negative zero are rejected")
    else .ok ()
  | .str s => validateText depth s
  | .list xs =>
    if maxNesting < depth then .error (refusal "nesting_limit" "message nesting limit exceeded")
    else if maxCollectionItems < xs.length then
      .error (refusal "collection_limit" "array item limit exceeded")
    else validateItems (depth + 1) xs
  | .dict items =>
    if maxNesting < depth then .error (refusal "nesting_limit" "message nesting limit exceeded")
    else if maxCollectionItems < items.length then
      .error (refusal "collection_limit" "object field limit exceeded")
    else validateFields (depth + 1) items
  | .tuple _ =>
    if maxNesting < depth then .error (refusal "nesting_limit" "message nesting limit exceeded")
    else .error (refusal "invalid_type" "unsupported JSON value: tuple")
  | .other name =>
    if maxNesting < depth then .error (refusal "nesting_limit" "message nesting limit exceeded")
    else .error (refusal "invalid_type" ("unsupported JSON value: " ++ name))

def validateItems (depth : ℕ) : List PyValue → Except Raised Unit
  | [] => .ok ()
  | x :: xs => do
    validateValue depth x
    validateItems depth xs

def validateFields (depth : ℕ) : List (PyKey × PyValue) → Except Raised Unit
  | [] => .ok ()
  | (.other, _) :: _ => .error (refusal "invalid_field" "object field names must be strings")
  | (.str k, x) :: rest => do
    validateText depth k
    validateValue depth x
    validateFields depth rest

end

/-! ## Frames -/

/-- `struct.pack(">I", n)`. -/
def packLength (n : ℕ) : List ℕ :=
    [n / 0x1000000 % 256, n / 0x10000 % 256, n / 0x100 % 256, n % 256]

/-- `struct.unpack(">I", header)[0]`. -/
def unpackLength (header : List ℕ) : ℕ := header.foldl (fun n b ↦ n * 256 + b) 0

/-- `encode_frame`. -/
def encodeFrame (maxBytes : ℕ) (message : PyValue) : Except Raised (List ℕ) := do
  validateValue 0 message
  let payload ← message.canonicalBytes.mapError .exception
  if payload = [] ∨ maxBytes < payload.length then
    .error (refusal "frame_limit" "frame byte limit exceeded")
  else if 0x100000000 ≤ payload.length then
    .error (.exception ⟨.structError, "'I' format requires 0 <= number <= 4294967295"⟩)
  else return packLength payload.length ++ payload

end Validation

/-! ### Streams -/

/-- A stream with the bytes that are left in it. How many bytes a read of a body returns is up to
the stream: at most the given numbers and one, read by read. -/
structure Source where
  data : List ℕ
  sizes : ℕ → ℕ
  octets : ∀ b ∈ data, b < 256

namespace Source

/-- The source after some bytes have been taken from it. -/
def advance (src : Source) (n : ℕ) (sizes : ℕ → ℕ) : Source where
  data := src.data.drop n
  sizes := sizes
  octets b hb := src.octets b (List.mem_of_mem_drop hb)

/-- A read of a header returns all of it, or all there is. -/
def readHeader (src : Source) : List ℕ × Source := (src.data.take 4, src.advance 4 src.sizes)

/-- A read of up to `n` bytes of a body. -/
def read (src : Source) (n : ℕ) : List ℕ × Source :=
  (src.data.take (min n (src.sizes 0 + 1)),
    src.advance (min n (src.sizes 0 + 1)) fun i ↦ src.sizes (i + 1))

/-- The loop of `_read_exact`, with a bound on its turns. -/
def readLoop : ℕ → ℕ → Source → Option (List ℕ) × Source
  | _, 0, src => (some [], src)
  | 0, _ + 1, src => (none, src)
  | fuel + 1, remaining + 1, src =>
    if (src.read (remaining + 1)).1 = [] then (none, (src.read (remaining + 1)).2)
    else
      let more := readLoop fuel (remaining + 1 - (src.read (remaining + 1)).1.length)
        (src.read (remaining + 1)).2
      (more.1.map fun rest ↦ (src.read (remaining + 1)).1 ++ rest, more.2)

/-- `_read_exact`: nothing when the stream ends first. Every turn reads a byte at least. -/
def readExact (src : Source) (size : ℕ) : Option (List ℕ) × Source := readLoop size size src

end Source

/-- `float(text)` on the text of a JSON number. -/
class FloatReader where
  ofText : List Char → FloatValue

section Reading

variable [Platform] [FloatReader]

/-- The hooks of `read_frame`. -/
def frameHooks : Hooks Raised where
  pairs := objectWithoutDuplicates fun key ↦
    .protocol ⟨.ofString "duplicate_field", .ofString "duplicate field: " ++ key⟩
  float text := .ok (.float (FloatReader.ofText text))
  constant value := .error (refusal "invalid_number" ("non-finite number: " ++ value))

/-- What `read_frame` makes of an exception of the decoder. -/
def frameError : LoadError Raised → Raised
  | .malformed => refusal "invalid_json" "frame is not valid JSON"
  | .digits =>
    .exception ⟨.valueError, "Exceeds the limit (4300 digits) for integer string conversion"⟩
  | .raised e => e

def frameText (payload : List ℕ) : Except Raised (List Char) :=
  match decodeUtf8 payload with
  | none => .error (refusal "invalid_utf8" "frame is not valid UTF-8")
  | some text => .ok text

/-- `read_frame` from its payload on. -/
def decodePayload (payload : List ℕ) : Except Raised PyValue := do
  let text ← frameText payload
  let message ← (loads frameHooks text).mapError frameError
  raiseIf (message.isDict = false) (refusal "invalid_envelope" "frame must contain an object")
  validateValue 0 message
  let encoded ← message.canonicalBytes.mapError Raised.exception
  raiseIf (encoded ≠ payload) (refusal "noncanonical_frame" "frame must use canonical JSON")
  return message

/-- `read_frame`. -/
def readFrame (maxBytes : ℕ) (src : Source) : Except Raised PyValue × Source :=
  let header := src.readHeader
  if header.1 = [] then (.error .eof, header.2)
  else if header.1.length ≠ 4 then
    (.error (refusal "truncated_frame" "incomplete frame header"), header.2)
  else
    let size := unpackLength header.1
    if size = 0 ∨ maxBytes < size then
      (.error (refusal "frame_limit" "frame byte limit exceeded"), header.2)
    else
      match header.2.readExact size with
      | (none, src) => (.error .eof, src)
      | (some payload, src) => (decodePayload payload, src)

end Reading

/-! ## Reading bodies -/

namespace Source

theorem readHeader_data (src : Source) : src.readHeader.2.data = src.data.drop 4 := rfl

theorem read_fst (src : Source) (n : ℕ) :
    (src.read n).1 = src.data.take (min n (src.sizes 0 + 1)) := rfl

theorem read_data (src : Source) (n : ℕ) :
    (src.read n).2.data = src.data.drop (min n (src.sizes 0 + 1)) := rfl

/-- Whatever pieces the stream gives, the loop collects the bytes it was asked for. -/
theorem readLoop_spec {fuel : ℕ} : ∀ {remaining : ℕ} {src : Source}, remaining ≤ fuel →
    (remaining ≤ src.data.length →
      (readLoop fuel remaining src).1 = some (src.data.take remaining) ∧
        (readLoop fuel remaining src).2.data = src.data.drop remaining) ∧
    (src.data.length < remaining → (readLoop fuel remaining src).1 = none) := by
  induction fuel with
  | zero =>
    intro remaining src hle
    obtain rfl : remaining = 0 := by omega
    exact ⟨fun _ ↦ ⟨rfl, rfl⟩, fun h ↦ absurd h (by omega)⟩
  | succ fuel ih =>
    intro remaining src hle
    cases remaining with
    | zero => exact ⟨fun _ ↦ ⟨by rw [readLoop, List.take_zero], by rw [readLoop]; rfl⟩,
        fun h ↦ absurd h (by omega)⟩
    | succ remaining =>
      rw [readLoop]
      by_cases hdata : src.data = []
      · have hempty : (src.read (remaining + 1)).1 = [] := by rw [read_fst, hdata, List.take_nil]
        rw [if_pos hempty, hdata]
        exact ⟨fun h ↦ absurd h (by simp), fun _ ↦ rfl⟩
      have hpos : 0 < src.data.length := List.length_pos_iff.mpr hdata
      have hne : (src.read (remaining + 1)).1 ≠ [] := by
        rw [read_fst, ← List.length_pos_iff, List.length_take]
        omega
      have hlen : (src.read (remaining + 1)).1.length =
          min (min (remaining + 1) (src.sizes 0 + 1)) src.data.length := by
        rw [read_fst, List.length_take]
      -- a read returns at least one octet, so what remains is less
      have hrest := @ih (remaining + 1 - (src.read (remaining + 1)).1.length)
        (src.read (remaining + 1)).2 (by omega)
      have hdrop : (src.read (remaining + 1)).2.data.length =
          src.data.length - min (remaining + 1) (src.sizes 0 + 1) := by
        rw [read_data, List.length_drop]
      rw [if_neg hne]
      constructor
      · intro hle'
        obtain ⟨hread, hleft⟩ := hrest.1 (by omega)
        have hchunk : (src.read (remaining + 1)).1.length =
            min (remaining + 1) (src.sizes 0 + 1) := by omega
        constructor
        · simp only [hread, Option.map_some, Option.some.injEq]
          rw [hchunk, read_data, read_fst, ← List.take_add]
          congr 1
          omega
        · simp only [hleft]
          rw [hchunk, read_data, List.drop_drop]
          congr 1
          omega
      · intro hlt
        simp only [hrest.2 (by omega), Option.map_none]

theorem readExact_of_le {src : Source} {size : ℕ} (h : size ≤ src.data.length) :
    (src.readExact size).1 = some (src.data.take size) ∧
      (src.readExact size).2.data = src.data.drop size := (readLoop_spec le_rfl).1 h

theorem readExact_of_lt {src : Source} {size : ℕ} (h : src.data.length < size) :
    (src.readExact size).1 = none := (readLoop_spec le_rfl).2 h

end Source

/-! ## Headers -/

theorem unpackLength_packLength {n : ℕ} (h : n < 0x100000000) :
    unpackLength (packLength n) = n := by
  simp only [unpackLength, packLength, List.foldl_cons, List.foldl_nil]
  omega

theorem packLength_unpackLength {header : List ℕ} (hlen : header.length = 4)
    (hoctets : ∀ b ∈ header, b < 256) : packLength (unpackLength header) = header := by
  match header, hlen with
  | [a, b, c, d], _ =>
    simp only [List.forall_mem_cons] at hoctets
    obtain ⟨ha, hb, hc, hd, -⟩ := hoctets
    simp only [unpackLength, packLength, List.foldl_cons, List.foldl_nil, List.cons.injEq, and_true]
    omega

theorem unpackLength_lt {header : List ℕ} (hlen : header.length = 4)
    (hoctets : ∀ b ∈ header, b < 256) : unpackLength header < 0x100000000 := by
  match header, hlen with
  | [a, b, c, d], _ =>
    simp only [List.forall_mem_cons] at hoctets
    obtain ⟨ha, hb, hc, hd, -⟩ := hoctets
    simp only [unpackLength, List.foldl_cons, List.foldl_nil]
    omega

/-! ## The two checks agree -/

section Checks

variable [Platform]

omit [Platform] in
/-- The limits of the two checks are the same numbers. -/
theorem nesting_of_le {d : ℕ} (h : d ≤ maxCanonicalDepth) : ¬maxNesting < d := Nat.not_lt.mpr h

omit [Platform] in
theorem items_of_le {n : ℕ} (h : n ≤ maxCanonicalItems) : ¬maxCollectionItems < n :=
  Nat.not_lt.mpr h

theorem validateText_ofString {d : ℕ} {s : String} (hd : d ≤ maxCanonicalDepth)
    (hs : IsCanonicalString s) : validateText d (.ofString s) = .ok () := by
  rw [validateText, if_neg (nesting_of_le hd), PyStr.isNfc_ofString, hs.1, PyStr.text?_ofString]
  simp only [Bool.not_true, Bool.false_eq_true, if_false]
  exact if_neg (show ¬maxStringBytes < s.utf8ByteSize from Nat.not_lt.mpr hs.2)

/-- The texts that pass `validate_text`. -/
theorem validateText_eq_ok {d : ℕ} {s : PyStr} : validateText d s = .ok () ↔
    d ≤ maxCanonicalDepth ∧ s.IsCanonical := by
  constructor
  · intro h
    rw [validateText] at h
    split at h
    · cases h
    case isFalse hd =>
    split at h
    · cases h
    case isFalse hnfc =>
    split at h
    · cases h
    case h_2 t ht =>
    split at h
    · cases h
    case isFalse hsize =>
    obtain rfl := PyStr.eq_ofString_of_text? ht
    rw [Bool.not_eq_true', Bool.not_eq_false, PyStr.isNfc_ofString] at hnfc
    exact ⟨Nat.not_lt.mp hd, t, rfl, hnfc, Nat.not_lt.mp hsize⟩
  · rintro ⟨hd, t, rfl, ht⟩
    exact validateText_ofString hd ht

/-- A value with a canonical form passes `validate_value`. -/
theorem validateValue_ofJson (c : Json) : ∀ d, Canonicalizes d c →
    validateValue d (.ofJson c) = .ok () := by
  induction c using Json.induction with
  | null | bool b =>
    intro d h
    first | rw [canonicalizes_null] at h | rw [canonicalizes_bool] at h
    rw [PyValue.ofJson, validateValue, if_neg (nesting_of_le h)]
  | int n =>
    intro d h
    rw [canonicalizes_int] at h
    rw [PyValue.ofJson, validateValue, if_neg (nesting_of_le h.1), if_neg (Nat.not_lt.mpr h.2)]
  | float f =>
    intro d h
    obtain ⟨hd, hfinite, hzero⟩ := canonicalizes_float.mp h
    rw [PyValue.ofJson, validateValue, if_neg (nesting_of_le hd)]
    simp [hfinite, hzero]
  | str s =>
    intro d h
    rw [canonicalizes_str] at h
    exact validateText_ofString h.1 h.2
  | arr xs ih =>
    intro d h
    obtain ⟨hd, hlen, hall⟩ := canonicalizes_arr.mp h
    rw [PyValue.ofJson, validateValue, if_neg (nesting_of_le hd), PyValue.ofItems_eq_map,
      List.length_map, if_neg (items_of_le hlen)]
    clear h hlen
    induction xs with
    | nil => rfl
    | cons x xs ihxs =>
      rw [List.map_cons, validateItems, ih x List.mem_cons_self _ (hall x List.mem_cons_self)]
      exact ihxs (fun y hy ↦ ih y (List.mem_cons_of_mem _ hy))
        fun y hy ↦ hall y (List.mem_cons_of_mem _ hy)
  | obj fields ih =>
    intro d h
    obtain ⟨hd, hlen, hall⟩ := canonicalizes_obj.mp h
    rw [PyValue.ofJson, validateValue, if_neg (nesting_of_le hd), PyValue.ofFields_eq_map,
      List.length_map, if_neg (items_of_le hlen)]
    clear h hlen
    induction fields with
    | nil => rfl
    | cons f fields ihf =>
      obtain ⟨hdepth, hkey, hvalue⟩ := hall f List.mem_cons_self
      rw [List.map_cons, validateFields, validateText_ofString hdepth hkey,
        ih f List.mem_cons_self _ hvalue]
      exact ihf (fun g hg ↦ ih g (List.mem_cons_of_mem _ hg))
        fun g hg ↦ hall g (List.mem_cons_of_mem _ hg)

end Checks

/-! ## Frames are read back -/

section RoundTrip

variable [Platform] [FloatReader] {maxBytes : ℕ} {m : PyValue} {b : List ℕ} {src : Source}

omit [Platform] in
theorem frameHooks_reads : frameHooks.Reads fun _ ↦ False where
  pairs _ h := objectWithoutDuplicates_eq_ok.mpr ⟨h, rfl⟩
  float _ h := h.elim

omit [FloatReader] in
theorem encodeFrame_eq_ok : encodeFrame maxBytes m = .ok b ↔ validateValue 0 m = .ok () ∧
    ∃ payload, m.canonicalBytes = .ok payload ∧ payload ≠ [] ∧ payload.length ≤ maxBytes ∧
      payload.length < 0x100000000 ∧ b = packLength payload.length ++ payload := by
  rw [encodeFrame]
  constructor
  · intro h
    obtain ⟨⟨⟩, hvalid, h⟩ := bind_eq_ok.mp h
    obtain ⟨payload, hpayload, h⟩ := bind_eq_ok.mp h
    split at h
    · cases h
    case isFalse hlimit =>
    split at h
    · cases h
    case isFalse hpack =>
    cases h
    rw [not_or, not_lt] at hlimit
    exact ⟨hvalid, payload, mapError_eq_ok.mp hpayload, hlimit.1, hlimit.2, not_le.mp hpack, rfl⟩
  · rintro ⟨hvalid, payload, hpayload, hne, hle, hlt, rfl⟩
    refine bind_eq_ok.mpr ⟨(), hvalid, bind_eq_ok.mpr ⟨payload, mapError_eq_ok.mpr hpayload, ?_⟩⟩
    rw [if_neg (by rw [not_or, not_lt]; exact ⟨hne, hle⟩), if_neg (not_le.mpr hlt)]
    rfl

/-- The payload of a message is decoded as that message. -/
theorem decodePayload_canonicalBytes (hdict : m.isDict = true) (hdist : m.Distinct)
    (hfloat : m.FloatFree) (h : m.canonicalBytes = .ok b) : decodePayload b = .ok m.listed := by
  obtain ⟨c, hc, rfl⟩ := map_eq_ok.mp h
  have hread := PyValue.readable_of_canonicalValue m hdist hfloat hc
  have hlisted := PyValue.listed_of_canonicalValue m 0 c hc
  have hspell : spell c = encodeUtf8 (dumps c) :=
    spell_eq c (asciiFloats_of_readable (fun _ hf ↦ hf.elim) c hread)
  have htext : frameText (spell c) = .ok (dumps c) := by
    rw [frameText, hspell, decodeUtf8_encodeUtf8]
  have hloads : loads frameHooks (dumps c) = .ok m.listed := by
    have hloads := loads_dumps frameHooks_reads hread (show skipSpace [] = [] from rfl)
      (fun c hc ↦ nomatch hc)
    rwa [List.append_nil, ← hlisted] at hloads
  have hcanon : m.listed.canonicalBytes = .ok (spell c) := by
    rw [PyValue.canonicalBytes, PyValue.canonicalValue_listed, hc]
    rfl
  have hvalid : validateValue 0 m.listed = .ok () := by
    rw [hlisted]
    refine validateValue_ofJson c 0 ⟨c, ?_⟩
    rw [← PyValue.canonicalValue_ofJson, ← hlisted, PyValue.canonicalValue_listed, hc]
  have hdict' : m.listed.isDict = true := by
    cases m with
    | dict items => rfl
    | _ => cases hdict
  rw [decodePayload]
  refine bind_eq_ok.mpr ⟨_, htext, bind_eq_ok.mpr ⟨_, mapError_eq_ok.mpr hloads, ?_⟩⟩
  refine raiseIf_bind_eq_ok.mpr ⟨by simp [hdict'], bind_eq_ok.mpr ⟨(), hvalid, ?_⟩⟩
  refine bind_eq_ok.mpr ⟨_, mapError_eq_ok.mpr hcanon, raiseIf_bind_eq_ok.mpr ⟨by simp, rfl⟩⟩

/-- What is decoded has the payload for its canonical bytes, and passes the check of a message. -/
theorem decodePayload_eq_ok (h : decodePayload b = .ok m) :
    m.isDict = true ∧ validateValue 0 m = .ok () ∧ m.canonicalBytes = .ok b := by
  rw [decodePayload] at h
  obtain ⟨text, -, h⟩ := bind_eq_ok.mp h
  obtain ⟨message, -, h⟩ := bind_eq_ok.mp h
  obtain ⟨hdict, h⟩ := raiseIf_bind_eq_ok.mp h
  obtain ⟨⟨⟩, hvalid, h⟩ := bind_eq_ok.mp h
  obtain ⟨encoded, hencoded, h⟩ := bind_eq_ok.mp h
  obtain ⟨heq, h⟩ := raiseIf_bind_eq_ok.mp h
  cases h
  rw [not_not] at heq
  rw [← heq]
  exact ⟨by simpa using hdict, hvalid, mapError_eq_ok.mp hencoded⟩

/-- Reading a frame that is there whole. -/
theorem readFrame_frame {payload rest : List ℕ} (hne : payload ≠ [])
    (hle : payload.length ≤ maxBytes) (hlt : payload.length < 0x100000000)
    (hdata : src.data = packLength payload.length ++ payload ++ rest) :
    (readFrame maxBytes src).1 = decodePayload payload ∧
      (readFrame maxBytes src).2.data = rest := by
  have hheader : src.readHeader.1 = packLength payload.length := by
    rw [Source.readHeader, hdata]
    rfl
  have hleft : src.readHeader.2.data = payload ++ rest := by
    rw [Source.readHeader_data, hdata]
    rfl
  have hlen : payload.length ≤ src.readHeader.2.data.length := by
    rw [hleft, List.length_append]
    omega
  have hpos : 0 < payload.length := List.length_pos_iff.mpr hne
  obtain ⟨hbody, hrest⟩ := Source.readExact_of_le hlen
  rw [hleft, List.take_left] at hbody
  rw [hleft, List.drop_left] at hrest
  rw [readFrame]
  simp only [hheader, unpackLength_packLength hlt]
  rw [if_neg (by simp [packLength]), if_neg (by simp [packLength]), if_neg (by omega)]
  generalize src.readHeader.2.readExact payload.length = r at hbody hrest
  obtain ⟨body, src'⟩ := r
  simp only at hbody hrest
  subst hbody
  exact ⟨rfl, hrest⟩

/-- A read ends before a payload, with the end of the stream or a refusal, or it has consumed a
frame and decodes its payload. -/
theorem readFrame_cases (maxBytes : ℕ) (src : Source) :
    (∃ r, (readFrame maxBytes src).1 = .error r ∧ (r = .eof ∨ ∃ e, r = .protocol e)) ∨
    ∃ payload, src.data = packLength payload.length ++ payload ++ (readFrame maxBytes src).2.data ∧
      payload ≠ [] ∧ payload.length ≤ maxBytes ∧ payload.length < 0x100000000 ∧
      (readFrame maxBytes src).1 = decodePayload payload := by
  have hoctets : ∀ b ∈ src.readHeader.1, b < 256 := fun b hb ↦
    src.octets b (List.mem_of_mem_take hb)
  rw [readFrame]
  simp only
  split
  · exact .inl ⟨_, rfl, .inl rfl⟩
  case isFalse hheader =>
  split
  · exact .inl ⟨_, rfl, .inr ⟨_, rfl⟩⟩
  case isFalse hlen =>
  rw [not_not] at hlen
  split
  · exact .inl ⟨_, rfl, .inr ⟨_, rfl⟩⟩
  case isFalse hsize =>
  rw [not_or, not_lt] at hsize
  have hlt := unpackLength_lt hlen hoctets
  rcases Nat.lt_or_ge src.readHeader.2.data.length (unpackLength src.readHeader.1) with hshort |
    hfull
  · have hnone := Source.readExact_of_lt hshort
    generalize src.readHeader.2.readExact (unpackLength src.readHeader.1) = r at hnone ⊢
    obtain ⟨body, src'⟩ := r
    simp only at hnone
    subst hnone
    exact .inl ⟨_, rfl, .inl rfl⟩
  · obtain ⟨hbody, hrest⟩ := Source.readExact_of_le hfull
    generalize src.readHeader.2.readExact (unpackLength src.readHeader.1) = r at hbody hrest ⊢
    obtain ⟨body, src'⟩ := r
    simp only at hbody hrest
    subst hbody
    have htake : (src.readHeader.2.data.take (unpackLength src.readHeader.1)).length =
        unpackLength src.readHeader.1 := List.length_take_of_le hfull
    refine .inr ⟨_, ?_, ?_, ?_, ?_, rfl⟩
    · rw [htake, packLength_unpackLength hlen hoctets, hrest, List.append_assoc,
        List.take_append_drop]
      exact (List.take_append_drop 4 src.data).symm
    · rw [← List.length_pos_iff, htake]
      omega
    · rw [htake]
      exact hsize.2
    · rw [htake]
      exact hlt

/-- What a successful read has consumed. -/
theorem readFrame_eq_ok (h : (readFrame maxBytes src).1 = .ok m) : ∃ payload,
    src.data = packLength payload.length ++ payload ++ (readFrame maxBytes src).2.data ∧
    payload ≠ [] ∧ payload.length ≤ maxBytes ∧ payload.length < 0x100000000 ∧
    decodePayload payload = .ok m := by
  rcases readFrame_cases maxBytes src with ⟨r, hr, -⟩ | ⟨payload, hdata, hne, hle, hlt, hread⟩
  · rw [hr] at h
    cases h
  · exact ⟨payload, hdata, hne, hle, hlt, hread ▸ h⟩

/-- Reading several frames. -/
def readFrames (maxBytes : ℕ) : ℕ → Source → Except Raised (List PyValue) × Source
  | 0, src => (.ok [], src)
  | n + 1, src =>
    match readFrame maxBytes src with
    | (.error e, src) => (.error e, src)
    | (.ok m, src) =>
      let more := readFrames maxBytes n src
      (more.1.map (m :: ·), more.2)

/-- A message that can be sent, with its frame. -/
structure Framed (maxBytes : ℕ) (m : PyValue) (b : List ℕ) : Prop where
  mapping : m.isDict = true
  distinct : m.Distinct
  floatFree : m.FloatFree
  encoded : encodeFrame maxBytes m = .ok b

theorem Framed.readFrame (h : Framed maxBytes m b) {rest : List ℕ} (hdata : src.data = b ++ rest) :
    (Protocol.readFrame maxBytes src).1 = .ok m.listed ∧
      (Protocol.readFrame maxBytes src).2.data = rest := by
  obtain ⟨-, payload, hpayload, hne, hle, hlt, rfl⟩ := encodeFrame_eq_ok.mp h.encoded
  rw [← decodePayload_canonicalBytes h.mapping h.distinct h.floatFree hpayload]
  exact readFrame_frame hne hle hlt hdata

theorem Framed.readFrames {ms : List PyValue} {bs : List (List ℕ)}
    (h : List.Forall₂ (Framed maxBytes) ms bs) {rest : List ℕ} :
    ∀ {src : Source}, src.data = bs.flatten ++ rest →
      (Protocol.readFrames maxBytes ms.length src).1 = .ok (ms.map PyValue.listed) ∧
      (Protocol.readFrames maxBytes ms.length src).2.data = rest := by
  induction h with
  | nil => exact fun hdata ↦ ⟨rfl, hdata⟩
  | cons hm _ ih =>
    intro src hdata
    rw [List.flatten_cons, List.append_assoc] at hdata
    obtain ⟨hread, hleft⟩ := hm.readFrame hdata
    rw [List.length_cons, Protocol.readFrames]
    generalize Protocol.readFrame maxBytes src = r at hread hleft ⊢
    obtain ⟨result, src'⟩ := r
    simp only at hread hleft
    subst hread
    obtain ⟨hmore, hrest⟩ := ih hleft
    simp only
    rw [hmore]
    exact ⟨rfl, hrest⟩

/-- Frames are a codec: a frame followed by anything is read back as its message, in whatever pieces
the stream gives the body, and leaves what follows; a sequence of frames is read back as the
sequence of messages; and what has been consumed by a successful read is the frame of the message
read. -/
theorem frame_roundTrip (maxBytes : ℕ) :
    (∀ m b, Framed maxBytes m b → ∀ (src : Source) (rest : List ℕ), src.data = b ++ rest →
      (readFrame maxBytes src).1 = .ok m.listed ∧ (readFrame maxBytes src).2.data = rest) ∧
    (∀ ms bs, List.Forall₂ (Framed maxBytes) ms bs →
      ∀ (src : Source) (rest : List ℕ), src.data = bs.flatten ++ rest →
        (readFrames maxBytes ms.length src).1 = .ok (ms.map PyValue.listed) ∧
        (readFrames maxBytes ms.length src).2.data = rest) ∧
    ∀ (src : Source) (m : PyValue), (readFrame maxBytes src).1 = .ok m →
      ∃ b, src.data = b ++ (readFrame maxBytes src).2.data ∧ encodeFrame maxBytes m = .ok b := by
  refine ⟨fun m b h src rest ↦ h.readFrame, fun ms bs h src rest ↦ Framed.readFrames h, ?_⟩
  intro src m h
  obtain ⟨payload, hdata, hne, hle, hlt, hpayload⟩ := readFrame_eq_ok h
  obtain ⟨-, hvalid, hbytes⟩ := decodePayload_eq_ok hpayload
  exact ⟨_, hdata, encodeFrame_eq_ok.mpr ⟨hvalid, payload, hbytes, hne, hle, hlt, rfl⟩⟩

end RoundTrip

end EventHorizon.Protocol
