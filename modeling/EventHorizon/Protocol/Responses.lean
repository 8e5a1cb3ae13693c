import EventHorizon.Protocol.Frames

/-!
# Responses

A server answers a request with a frame of its own, which passes the same checks as a request. The
text of an error comes from the exception that is reported, and parts of it may come from the
request. This module says which error responses can be sent: their texts are in normal form C, have
no lone surrogate, and are short enough.
-/

namespace EventHorizon.Protocol

/-! ## Text -/

/-- Two properties of normal form C: a part of a text in normal form is in normal form, and a space
takes part in no composition and in no reordering. -/
class NormalForm [Platform] : Prop where
  isNfc_part : ∀ a b c : List Char,
    Platform.isNfc (.ofList (a ++ b ++ c)) = true → Platform.isNfc (.ofList b) = true
  isNfc_join : ∀ a b : List Char, Platform.isNfc (.ofList a) = true →
    Platform.isNfc (.ofList b) = true → Platform.isNfc (.ofList (a ++ ' ' :: b)) = true

/-- `unicodedata` on the texts of the concrete runs has both properties. -/
theorem normalForm_pythonPlatform : @NormalForm pythonPlatform := by
  let _ := pythonPlatform
  refine ⟨fun a b c h ↦ ?_, fun a b ha hb ↦ ?_⟩
  · change ((String.ofList (a ++ b ++ c)).toList.all fun c ↦ decide (c.toNat < 0x300)) = true at h
    change ((String.ofList b).toList.all fun c ↦ decide (c.toNat < 0x300)) = true
    rw [String.toList_ofList, List.all_append, List.all_append, Bool.and_eq_true,
      Bool.and_eq_true] at h
    rw [String.toList_ofList]
    exact h.1.2
  · change ((String.ofList a).toList.all fun c ↦ decide (c.toNat < 0x300)) = true at ha
    change ((String.ofList b).toList.all fun c ↦ decide (c.toNat < 0x300)) = true at hb
    change ((String.ofList (a ++ ' ' :: b)).toList.all fun c ↦ decide (c.toNat < 0x300)) = true
    rw [String.toList_ofList] at ha hb ⊢
    rw [List.all_append, List.all_cons, ha, hb]
    decide

section Plain

variable [Platform]

/-- A string that can be sent if it is short: it has no surrogate and is in normal form C. -/
def Plain (s : PyStr) : Prop := ∃ t : String, s = .ofString t ∧ Platform.isNfc t = true

theorem Plain.of_isAscii {t : String} (h : isAscii t = true) : Plain (.ofString t) :=
  ⟨t, rfl, Platform.isNfc_of_isAscii t h⟩

theorem plain_ofString {t : String} : Plain (.ofString t) ↔ Platform.isNfc t = true :=
  ⟨fun ⟨_, hs, h⟩ ↦ PyStr.ofString_injective hs ▸ h, fun h ↦ ⟨t, rfl, h⟩⟩

theorem plain_map_scalar {cs : List Char} :
    Plain (cs.map .scalar) ↔ Platform.isNfc (.ofList cs) = true := by
  have hcs : cs.map CodePoint.scalar = PyStr.ofString (.ofList cs) := by
    rw [PyStr.ofString, String.toList_ofList]
  rw [hcs, plain_ofString]

/-- A plain string is a list of scalar values. -/
theorem Plain.exists_chars {s : PyStr} (h : Plain s) : ∃ cs : List Char,
    s = cs.map .scalar ∧ Platform.isNfc (.ofList cs) = true := by
  obtain ⟨t, rfl, ht⟩ := h
  exact ⟨t.toList, rfl, by rwa [String.ofList_toList]⟩

variable [NormalForm]

/-- A part of a plain string is plain. -/
theorem Plain.part {a b c : PyStr} (h : Plain (a ++ b ++ c)) : Plain b := by
  obtain ⟨cs, hcs, hnfc⟩ := h.exists_chars
  obtain ⟨ab, c', rfl, hab, rfl⟩ := List.append_eq_map_iff.mp hcs
  obtain ⟨a', b', rfl, rfl, rfl⟩ := List.append_eq_map_iff.mp hab.symm
  exact plain_map_scalar.mpr (NormalForm.isNfc_part a' b' c' hnfc)

theorem Plain.take {s : PyStr} (h : Plain s) (n : ℕ) : Plain (s.take n) := by
  refine Plain.part (a := []) (c := s.drop n) ?_
  rwa [List.nil_append, List.take_append_drop]

/-- Two plain strings with a space between them. -/
theorem Plain.join {a b : PyStr} (ha : Plain a) (hb : Plain b) :
    Plain (a ++ .scalar ' ' :: b) := by
  obtain ⟨as, rfl, has⟩ := ha.exists_chars
  obtain ⟨bs, rfl, hbs⟩ := hb.exists_chars
  rw [← List.map_cons, ← List.map_append]
  exact plain_map_scalar.mpr (NormalForm.isNfc_join as bs has hbs)

end Plain

/-! ## Texts that pass the check -/

section Checks

variable [Platform] {d : ℕ}

omit [Platform] in
theorem utf8ByteSize_le (t : String) : t.utf8ByteSize ≤ 4 * t.toList.length := by
  have hlist : ∀ l : List Char, (String.ofList l).utf8ByteSize ≤ 4 * l.length := by
    intro l
    induction l with
    | nil => simp
    | cons c l ih =>
      have hc := c.utf8Size_le_four
      rw [String.ofList_cons, String.utf8ByteSize_append, String.utf8ByteSize_singleton,
        List.length_cons]
      omega
  have ht := hlist t.toList
  rwa [String.ofList_toList] at ht

/-- A plain string of so few characters can be sent. -/
theorem Plain.isCanonicalString {s : PyStr} (h : Plain s) (hlen : s.length ≤ 4096) :
    ∃ t, s = .ofString t ∧ IsCanonicalString t := by
  obtain ⟨t, rfl, ht⟩ := h
  have hsize := utf8ByteSize_le t
  have hlist : (PyStr.ofString t).length = t.toList.length := List.length_map _
  refine ⟨t, rfl, ht, ?_⟩
  unfold maxCanonicalStringBytes
  omega

omit [Platform] in
/-- A character takes at most six octets inside a JSON string. -/
theorem length_spellChar_le (c : Char) : (spellChar c).length ≤ 6 := by
  rcases Nat.lt_or_ge c.toNat 0x80 with h | h
  · revert h
    exact of_ascii (P := fun c ↦ (spellChar c).length ≤ 6) (by decide)
  · rw [spellChar_of_le h, utf8Octets]
    split
    · simp
    split
    · simp
    split <;> simp

omit [Platform] in
theorem length_spellString_le (t : String) :
    (spellString t).length ≤ 6 * t.toList.length + 2 := by
  have hlist : ∀ l : List Char, (l.flatMap spellChar).length ≤ 6 * l.length := by
    intro l
    induction l with
    | nil => simp
    | cons c l ih =>
      have hc := length_spellChar_le c
      rw [List.flatMap_cons, List.length_append, List.length_cons]
      omega
  have ht := hlist t.toList
  rw [spellString, List.length_append, List.length_cons, List.length_singleton]
  omega

end Checks

/-! ## Responses -/

/-- The request id of a response to something without one. -/
def unavailable : PyStr := .ofString "unavailable"

private def entry (key : String) (value : PyValue) : PyKey × PyValue :=
    (.str (.ofString key), value)

/-- `success_response`. -/
def successResponse (requestId : PyStr) (body : List (PyKey × PyValue)) : PyValue :=
  .dict [entry "request_id" (.str requestId), entry "ok" (.bool true), entry "body" (.dict body),
    entry "error" .none]

/-- `error_response`. -/
def errorResponse (requestId : PyStr) (error : ProtocolError) : PyValue :=
  .dict [entry "request_id" (.str requestId), entry "ok" (.bool false), entry "body" (.dict []),
    entry "error" (.dict [entry "code" (.str error.code),
      entry "message" (.str (error.message.take 512))])]

section Frames

variable [Platform] {rid : PyStr} {e : ProtocolError}

/-- An error response as JSON, with its fields in the given order. -/
def errorFields (r c m : String) : List (String × Json) :=
  [("body", .obj []), ("error", .obj [("code", .str c), ("message", .str m)]), ("ok", .bool false),
    ("request_id", .str r)]

theorem isCanonicalString_key : ∀ k ∈ ["body", "error", "ok", "request_id", "code", "message"],
    IsCanonicalString k := by
  have hkey : ∀ k ∈ ["body", "error", "ok", "request_id", "code", "message"],
      isAscii k = true ∧ k.toList.length ≤ maxCanonicalStringBytes := by decide
  intro k hk
  exact isCanonicalString_of_isAscii (hkey k hk).1 (hkey k hk).2

theorem canonicalValue_errorFields {r c m : String} (hr : IsCanonicalString r)
    (hc : IsCanonicalString c) (hm : IsCanonicalString m) :
    canonicalValue 0 (.obj (errorFields r c m)) = .ok (.obj (errorFields r c m)) := by
  have hcanon : Canonicalizes 0 (.obj (errorFields r c m)) := by
    simp [errorFields, canonicalizes_obj, isCanonicalString_key, hr, hc, hm, maxCanonicalDepth,
      maxCanonicalItems]
  obtain ⟨v, hv⟩ := hcanon
  rw [hv, eq_of_canonicalValue_obj ?_ ?_ hv]
  · simp [Json.Sorted, errorFields]
  · simp only [errorFields, List.forall_mem_cons, List.not_mem_nil, false_implies, implies_true,
      and_true]
    refine ⟨fun x hx ↦ ?_, fun x hx ↦ ?_, fun x hx ↦ ?_, fun x hx ↦ eq_of_canonicalValue_str hx⟩
    · exact eq_of_canonicalValue_obj List.Pairwise.nil (fun _ h ↦ absurd h List.not_mem_nil) hx
    · refine eq_of_canonicalValue_obj (by simp [Json.Sorted]) ?_ hx
      simp only [List.forall_mem_cons, List.not_mem_nil, false_implies, implies_true, and_true]
      exact ⟨fun x hx ↦ eq_of_canonicalValue_str hx, fun x hx ↦ eq_of_canonicalValue_str hx⟩
    · exact (Except.ok.inj hx).symm

omit [Platform] in
/-- One check after another. -/
private theorem seq_eq_ok {x : Except Raised Unit} {y : Except Raised Unit} :
    (do x; y) = .ok () ↔ x = .ok () ∧ y = .ok () :=
  bind_eq_ok.trans ⟨fun ⟨⟨⟩, hx, hy⟩ ↦ ⟨hx, hy⟩, fun ⟨hx, hy⟩ ↦ ⟨(), hx, hy⟩⟩

theorem validateValue_errorResponse : validateValue 0 (errorResponse rid e) = .ok () ↔
    validateText 1 rid = .ok () ∧ validateText 2 e.code = .ok () ∧
      validateText 2 (e.message.take 512) = .ok () := by
  have hkey : ∀ k ∈ ["body", "error", "ok", "request_id", "code", "message"], ∀ d ≤ 2,
      validateText d (.ofString k) = .ok () := fun k hk d hd ↦
    validateText_ofString (hd.trans (by decide)) (isCanonicalString_key k hk)
  simp [errorResponse, entry, validateValue, validateFields, hkey, maxNesting, maxCollectionItems,
    seq_eq_ok]

/-- The octets of an error response that are not its texts. -/
def errorFrameBytes : ℕ := 65

omit [Platform] in
theorem length_spell_errorFields (r c m : String) : (spell (.obj (errorFields r c m))).length =
    (spellString r).length + (spellString c).length + (spellString m).length + errorFrameBytes := by
  have hbody : (spellString "body").length = 6 := by decide
  have herror : (spellString "error").length = 7 := by decide
  have hok : (spellString "ok").length = 4 := by decide
  have hid : (spellString "request_id").length = 12 := by decide
  have hcode : (spellString "code").length = 6 := by decide
  have hmessage : (spellString "message").length = 9 := by decide
  simp only [errorFields, spell, spellFields, asciiOctets, List.length_append, List.length_cons,
    List.length_nil, List.length_map, String.length_toList, hbody, herror, hok, hid,
    hcode, hmessage, errorFrameBytes]
  have hempty : "\x7b\x7d".length = 2 := by decide
  have hfalse : "false".length = 5 := by decide
  omega

omit [Platform] in
theorem listed_errorResponse {r c m : String} (hcode : e.code = PyStr.ofString c)
    (hmessage : e.message.take 512 = PyStr.ofString m) :
    (errorResponse (.ofString r) e).listed = .ofJson (.obj (errorFields r c m)) := by
  have herror : PyValue.sortItems [entry "code" (.str (.ofString c)),
      entry "message" (.str (.ofString m))] = [entry "code" (.str (.ofString c)),
      entry "message" (.str (.ofString m))] := by
    refine (PyValue.sortItems_ofString [("code", PyValue.str (.ofString c)),
      ("message", .str (.ofString m))]).trans ?_
    simp [Json.sortFields, Json.orderedInsert, entry]
  have hfields : ∀ body error, PyValue.sortItems [entry "request_id" (.str (.ofString r)),
      entry "ok" (.bool false), entry "body" body, entry "error" error] =
      [entry "body" body, entry "error" error, entry "ok" (.bool false),
        entry "request_id" (.str (.ofString r))] := by
    intro body error
    refine (PyValue.sortItems_ofString [("request_id", .str (.ofString r)), ("ok", .bool false),
      ("body", body), ("error", error)]).trans ?_
    simp [Json.sortFields, Json.orderedInsert, entry]
  rw [errorResponse, hcode, hmessage, PyValue.listed]
  exact congrArg PyValue.dict ((hfields (.dict []) _).trans (by
    simp only [PyValue.listedFields, PyValue.listed, entry] at herror ⊢
    rw [herror]
    rfl))

theorem canonicalBytes_errorResponse {r c m : String} (hr : IsCanonicalString r)
    (hc : IsCanonicalString c) (hm : IsCanonicalString m) (hcode : e.code = PyStr.ofString c)
    (hmessage : e.message.take 512 = PyStr.ofString m) :
    (errorResponse (.ofString r) e).canonicalBytes = .ok (spell (.obj (errorFields r c m))) := by
  rw [PyValue.canonicalBytes, ← PyValue.canonicalValue_listed, listed_errorResponse hcode hmessage,
    PyValue.canonicalValue_ofJson, canonicalValue_errorFields hr hc hm]
  rfl

/-- Which error responses can be sent. -/
theorem exists_encodeFrame_errorResponse :
    (∃ b, encodeFrame maxFrameBytes (errorResponse rid e) = .ok b) ↔
      ∃ r c m, rid = PyStr.ofString r ∧ e.code = PyStr.ofString c ∧
        e.message.take 512 = PyStr.ofString m ∧ IsCanonicalString r ∧ IsCanonicalString c ∧
        IsCanonicalString m ∧ (spellString r).length + (spellString c).length +
          (spellString m).length + errorFrameBytes ≤ maxFrameBytes := by
  constructor
  · rintro ⟨b, hb⟩
    obtain ⟨hvalid, payload, hpayload, -, hle, -⟩ := encodeFrame_eq_ok.mp hb
    obtain ⟨hrid, hcode, hmessage⟩ := validateValue_errorResponse.mp hvalid
    obtain ⟨-, r, rfl, hr⟩ := validateText_eq_ok.mp hrid
    obtain ⟨-, c, hc, hcanon⟩ := validateText_eq_ok.mp hcode
    obtain ⟨-, m, hm, hmcanon⟩ := validateText_eq_ok.mp hmessage
    rw [canonicalBytes_errorResponse hr hcanon hmcanon hc hm] at hpayload
    rw [← Except.ok.inj hpayload, length_spell_errorFields] at hle
    exact ⟨r, c, m, rfl, hc, hm, hr, hcanon, hmcanon, hle⟩
  · rintro ⟨r, c, m, rfl, hcode, hmessage, hr, hc, hm, hle⟩
    rw [← length_spell_errorFields] at hle
    refine ⟨_, encodeFrame_eq_ok.mpr ⟨validateValue_errorResponse.mpr ⟨?_, ?_, ?_⟩, _,
      canonicalBytes_errorResponse hr hc hm hcode hmessage, ?_, hle,
      Nat.lt_of_le_of_lt hle (by decide), rfl⟩⟩
    · exact validateText_ofString (by decide) hr
    · rw [hcode]
      exact validateText_ofString (by decide) hc
    · rw [hmessage]
      exact validateText_ofString (by decide) hm
    · rw [← List.length_pos_iff, length_spell_errorFields, errorFrameBytes]
      omega

end Frames

/-! ## Exceptions that are reported -/

/-- The exception of `_object_without_duplicates`. -/
def duplicateField (key : PyStr) : Raised :=
  .protocol ⟨.ofString "duplicate_field", .ofString "duplicate field: " ++ key⟩

/-- The exception of `validate_value` for an object of another type. -/
def unsupported (typeName : String) : Raised :=
  refusal "invalid_type" ("unsupported JSON value: " ++ typeName)

/-- The codes on which `serve` returns. -/
def closingCodes : List PyStr := [.ofString "frame_limit", .ofString "truncated_frame"]

section Reports

variable [Platform]

/-- An error whose response can be sent, whatever request it answers, and that does not end the
service. -/
structure ProtocolError.Reportable (e : ProtocolError) : Prop where
  plain : Plain e.code
  short : e.code.length ≤ 64
  continues : e.code ∉ closingCodes
  message : Plain (e.message.take 512)

/-- `serve` goes on after the exception, with a response. -/
def Raised.Reportable : Raised → Prop
  | .exception _ => True
  | .protocol e => e.Reportable
  | .eof | .base => False

variable {rid : PyStr} {e : ProtocolError}

/-- A response with a code of the source. -/
theorem exists_encodeFrame_of_plain (hrid : Plain rid) (hlen : rid.length ≤ 128)
    (hcode : Plain e.code) (hshort : e.code.length ≤ 64) (hmessage : Plain (e.message.take 512)) :
    ∃ b, encodeFrame maxFrameBytes (errorResponse rid e) = .ok b := by
  have htake : (e.message.take 512).length ≤ 512 := List.length_take_le _ _
  obtain ⟨r, rfl, hr⟩ := hrid.isCanonicalString (by omega)
  obtain ⟨c, hc, hcanon⟩ := hcode.isCanonicalString (by omega)
  obtain ⟨m, hm, hmcanon⟩ := hmessage.isCanonicalString (by omega)
  refine exists_encodeFrame_errorResponse.mpr ⟨r, c, m, rfl, hc, hm, hr, hcanon, hmcanon, ?_⟩
  have hlist : ∀ t : String, (PyStr.ofString t).length = t.toList.length := fun t ↦
    List.length_map _
  have h1 := length_spellString_le r
  have h2 := length_spellString_le c
  have h3 := length_spellString_le m
  rw [hc] at hshort
  rw [hm] at htake
  rw [hlist] at hlen hshort htake
  unfold errorFrameBytes maxFrameBytes
  omega

variable [NormalForm]

/-- The codes of the source are ASCII. -/
theorem reportable_protocol {code : String} {message : PyStr}
    (h : isAscii code = true ∧ code.toList.length ≤ 64 ∧ PyStr.ofString code ∉ closingCodes)
    (hmessage : Plain message) : (Raised.protocol ⟨.ofString code, message⟩).Reportable where
  plain := Plain.of_isAscii h.1
  short := (List.length_map _).trans_le h.2.1
  continues := h.2.2
  message := hmessage.take 512

theorem reportable_of_isAscii {code message : String}
    (h : isAscii code = true ∧ code.toList.length ≤ 64 ∧ PyStr.ofString code ∉ closingCodes ∧
      isAscii message = true) : (refusal code message).Reportable :=
  reportable_protocol ⟨h.1, h.2.1, h.2.2.1⟩ (Plain.of_isAscii h.2.2.2)

/-- A refusal whose texts are literals: they are looked at as lists of characters. -/
theorem reportable_ofList {code message : List Char}
    (h : (code.all (fun c ↦ c.toNat < 128) && code.length ≤ 64 &&
      code ∉ ["frame_limit".toList, "truncated_frame".toList] &&
      message.all (fun c ↦ c.toNat < 128)) = true) :
    (refusal (String.ofList code) (String.ofList message)).Reportable := by
  simp only [Bool.and_eq_true, decide_eq_true_iff] at h
  obtain ⟨⟨⟨hcode, hlength⟩, hclosing⟩, hmessage⟩ := h
  refine reportable_of_isAscii ⟨?_, ?_, fun hmem ↦ hclosing ?_, ?_⟩
  · rwa [isAscii, String.toList_ofList]
  · rwa [String.toList_ofList]
  · have hlist : ∀ {t : String}, PyStr.ofString (String.ofList code) = .ofString t →
        code = t.toList := fun heq ↦ by rw [← PyStr.ofString_injective heq, String.toList_ofList]
    rw [closingCodes, List.mem_cons, List.mem_singleton] at hmem
    exact List.mem_cons.mpr (hmem.imp hlist fun heq ↦ List.mem_singleton.mpr (hlist heq))
  · rwa [isAscii, String.toList_ofList]

/-- A text of the source before a text of the peer. -/
theorem Plain.labelled {s : PyStr} (hs : Plain s) (label : String) (h : isAscii label = true) :
    Plain (.ofString (label ++ " ") ++ s) := by
  have happend : PyStr.ofString (label ++ " ") ++ s =
      PyStr.ofString label ++ .scalar ' ' :: s := by
    simp [PyStr.ofString]
  rw [happend]
  exact (Plain.of_isAscii h).join hs

/-- A text of the source after a text of the peer. -/
theorem Plain.followed {s : PyStr} (hs : Plain s) (label : String) (h : isAscii label = true) :
    Plain (s ++ .ofString (" " ++ label)) := by
  have happend : s ++ PyStr.ofString (" " ++ label) =
      s ++ .scalar ' ' :: PyStr.ofString label := by
    simp [PyStr.ofString]
  rw [happend]
  exact hs.join (Plain.of_isAscii h)

/-- The first characters of two strings that are joined by a space. -/
theorem plain_take_append {label : String} (h : isAscii label = true) (s : PyStr) (n : ℕ) :
    Plain ((.ofString (label ++ " ") ++ s).take (label.length + 1 + n)) ↔ Plain (s.take n) := by
  have happend : PyStr.ofString (label ++ " ") ++ s =
      PyStr.ofString label ++ .scalar ' ' :: s := by
    simp [PyStr.ofString]
  have htake : (PyStr.ofString (label ++ " ") ++ s).take (label.length + 1 + n) =
      PyStr.ofString label ++ .scalar ' ' :: s.take n := by
    rw [happend, List.take_append, PyStr.ofString, List.length_map, String.length_toList,
      List.take_of_length_le (by rw [List.length_map, String.length_toList]; omega), Nat.add_assoc,
      Nat.add_sub_cancel_left, Nat.add_comm 1, List.take_succ_cons]
  rw [htake]
  constructor
  · intro hplain
    refine Plain.part (a := PyStr.ofString label ++ [.scalar ' ']) (c := []) ?_
    simpa using hplain
  · exact fun hplain ↦ (Plain.of_isAscii h).join hplain

/-! ### What `validate_value` raises -/

/-- The refusals of `validate_value` but the one that names a type. -/
def validationRefusals : List (String × String) :=
  [("nesting_limit", "message nesting limit exceeded"),
    ("number_limit", "integer exceeds interoperable range"),
    ("invalid_number", "non-finite numbers and negative zero are rejected"),
    ("unicode_normalization", "strings must already be Unicode NFC"),
    ("string_limit", "string byte limit exceeded"),
    ("collection_limit", "array item limit exceeded"),
    ("collection_limit", "object field limit exceeded"),
    ("invalid_field", "object field names must be strings"),
    ("invalid_type", "unsupported JSON value: tuple")]

end Reports

section Refusals

variable [Platform] {E : Raised → Prop}

/-- What `validate_value` raises for a value is as required. -/
def Refuses (E : Raised → Prop) (v : PyValue) : Prop :=
  ∀ d r, validateValue d v = .error r → E r

/-- A property of what `validate_value` raises, types apart. -/
structure AllowsRefusals (E : Raised → Prop) : Prop where
  refusal : ∀ code message, (code, message) ∈ validationRefusals → E (refusal code message)
  exception : ∀ e, E (.exception e)

namespace AllowsRefusals

variable (H : AllowsRefusals E)

include H

theorem validateText {d : ℕ} {s : PyStr} {r : Raised} (h : validateText d s = .error r) : E r := by
  rw [Protocol.validateText] at h
  split at h
  · cases h
    exact H.refusal _ _ (by simp [validationRefusals])
  split at h
  · cases h
    exact H.refusal _ _ (by simp [validationRefusals])
  split at h
  · cases h
    exact H.exception _
  split at h
  · cases h
    exact H.refusal _ _ (by simp [validationRefusals])
  · cases h

theorem none : Refuses E .none := by
  intro d r h
  rw [validateValue] at h
  split at h
  · cases h
    exact H.refusal _ _ (by simp [validationRefusals])
  · cases h

theorem bool (b : Bool) : Refuses E (.bool b) := by
  intro d r h
  rw [validateValue] at h
  split at h
  · cases h
    exact H.refusal _ _ (by simp [validationRefusals])
  · cases h

theorem int (n : ℤ) : Refuses E (.int n) := by
  intro d r h
  rw [validateValue] at h
  split at h
  · cases h
    exact H.refusal _ _ (by simp [validationRefusals])
  split at h
  · cases h
    exact H.refusal _ _ (by simp [validationRefusals])
  · cases h

theorem float (f : FloatValue) : Refuses E (.float f) := by
  intro d r h
  rw [validateValue] at h
  split at h
  · cases h
    exact H.refusal _ _ (by simp [validationRefusals])
  split at h
  · cases h
    exact H.refusal _ _ (by simp [validationRefusals])
  · cases h

theorem str (s : PyStr) : Refuses E (.str s) := by
  intro d r h
  rw [validateValue] at h
  exact H.validateText h

theorem tuple (xs : List PyValue) : Refuses E (.tuple xs) := by
  intro d r h
  rw [validateValue] at h
  split at h
  · cases h
    exact H.refusal _ _ (by simp [validationRefusals])
  · cases h
    exact H.refusal _ _ (by simp [validationRefusals])

theorem other {name : String} (hname : E (unsupported name)) : Refuses E (.other name) := by
  intro d r h
  rw [validateValue] at h
  split at h
  · cases h
    exact H.refusal _ _ (by simp [validationRefusals])
  · cases h
    exact hname

theorem list {xs : List PyValue} (hxs : ∀ x ∈ xs, Refuses E x) : Refuses E (.list xs) := by
  have hitems : ∀ d r, validateItems d xs = .error r → E r := by
    intro d r h
    induction xs with
    | nil => cases h
    | cons x xs ih =>
      rw [validateItems] at h
      cases hx : validateValue d x with
      | error r' =>
        rw [hx] at h
        cases h
        exact hxs x List.mem_cons_self d r hx
      | ok u =>
        rw [hx] at h
        exact ih (fun y hy ↦ hxs y (List.mem_cons_of_mem _ hy)) h
  intro d r h
  rw [validateValue] at h
  split at h
  · cases h
    exact H.refusal _ _ (by simp [validationRefusals])
  split at h
  · cases h
    exact H.refusal _ _ (by simp [validationRefusals])
  · exact hitems _ _ h

theorem dict {items : List (PyKey × PyValue)} (hitems : ∀ f ∈ items, Refuses E f.2) :
    Refuses E (.dict items) := by
  have hfields : ∀ d r, validateFields d items = .error r → E r := by
    intro d r h
    induction items with
    | nil => cases h
    | cons f items ih =>
      obtain ⟨key, x⟩ := f
      cases key with
      | other =>
        cases h
        exact H.refusal _ _ (by simp [validationRefusals])
      | str k =>
        rw [validateFields] at h
        cases hk : Protocol.validateText d k with
        | error r' =>
          rw [hk] at h
          cases h
          exact H.validateText hk
        | ok u =>
          rw [hk] at h
          cases hx : validateValue d x with
          | error r' =>
            change (validateValue d x >>= fun _ ↦ validateFields d items) = .error r at h
            rw [hx] at h
            cases h
            exact hitems _ List.mem_cons_self d r hx
          | ok u =>
            change (validateValue d x >>= fun _ ↦ validateFields d items) = .error r at h
            rw [hx] at h
            exact ih (fun y hy ↦ hitems y (List.mem_cons_of_mem _ hy)) h
  intro d r h
  rw [validateValue] at h
  split at h
  · cases h
    exact H.refusal _ _ (by simp [validationRefusals])
  split at h
  · cases h
    exact H.refusal _ _ (by simp [validationRefusals])
  · exact hfields _ _ h

/-- Every value, when the exceptions that name a type are as required. -/
theorem refuses (hname : ∀ name, E (unsupported name)) (v : PyValue) : Refuses E v := by
  induction v using PyValue.induction with
  | none => exact H.none
  | bool b => exact H.bool b
  | int n => exact H.int n
  | float f => exact H.float f
  | str s => exact H.str s
  | list xs ih => exact H.list ih
  | tuple xs ih => exact H.tuple xs
  | dict items ih => exact H.dict ih
  | other name => exact H.other (hname name)

end AllowsRefusals

end Refusals

section Decoding

variable [Platform] [NormalForm]

theorem allowsRefusals_reportable : AllowsRefusals Raised.Reportable where
  refusal code message h := by
    simp only [validationRefusals, List.mem_cons, Prod.mk.injEq, List.not_mem_nil, or_false] at h
    rcases h with ⟨rfl, rfl⟩ | ⟨rfl, rfl⟩ | ⟨rfl, rfl⟩ | ⟨rfl, rfl⟩ | ⟨rfl, rfl⟩ | ⟨rfl, rfl⟩ |
      ⟨rfl, rfl⟩ | ⟨rfl, rfl⟩ | ⟨rfl, rfl⟩
    all_goals exact reportable_ofList (by decide +kernel)
  exception _ := trivial

/-- What is raised for a value that is sent can be reported, or names a type. -/
theorem reportable_of_validateValue {d : ℕ} {v : PyValue} {r : Raised}
    (h : validateValue d v = .error r) : r.Reportable ∨ ∃ name, r = unsupported name :=
  AllowsRefusals.refuses (E := fun r ↦ r.Reportable ∨ ∃ name, r = unsupported name)
    ⟨fun code message h ↦ .inl (allowsRefusals_reportable.refusal code message h),
      fun e ↦ .inl (allowsRefusals_reportable.exception e)⟩
    (fun name ↦ .inr ⟨name, rfl⟩) v d r h

variable [FloatReader]

/-- The decoder builds values whose refusals can be reported, and its hooks raise exceptions that
can be reported, but for a repeated key. -/
theorem frameHooks_builds : frameHooks.Builds (Refuses Raised.Reportable)
    fun r ↦ r.Reportable ∨ ∃ key, r = duplicateField key where
  none := allowsRefusals_reportable.none
  bool := allowsRefusals_reportable.bool
  int := allowsRefusals_reportable.int
  str := allowsRefusals_reportable.str
  list _ := allowsRefusals_reportable.list
  pairs ps hps := by
    refine yields_objectWithoutDuplicates ps (allowsRefusals_reportable.dict fun f hf ↦ ?_)
      fun key ↦ .inr ⟨key, rfl⟩
    obtain ⟨g, hg, rfl⟩ := List.mem_map.mp hf
    exact hps g hg
  float text := allowsRefusals_reportable.float _
  constant := by
    have hall : ∀ name ∈ ["NaN", "Infinity", "-Infinity"], isAscii "invalid_number" = true ∧
        "invalid_number".toList.length ≤ 64 ∧ PyStr.ofString "invalid_number" ∉ closingCodes ∧
        isAscii ("non-finite number: " ++ name) = true := by decide +kernel
    exact fun name hname ↦ .inl (reportable_of_isAscii (hall name hname))

/-- What `read_frame` raises for a payload. -/
theorem raisesOnly_decodePayload (payload : List ℕ) :
    RaisesOnly (fun r ↦ r.Reportable ∨ ∃ key, r = duplicateField key) (decodePayload payload) := by
  have hall : ∀ p ∈ [("invalid_utf8", "frame is not valid UTF-8"),
      ("invalid_json", "frame is not valid JSON"),
      ("invalid_envelope", "frame must contain an object"),
      ("noncanonical_frame", "frame must use canonical JSON")], isAscii p.1 = true ∧
      p.1.toList.length ≤ 64 ∧ PyStr.ofString p.1 ∉ closingCodes ∧ isAscii p.2 = true := by
    decide +kernel
  refine RaisesOnly.bind ?_ fun text _ ↦ ?_
  · rw [frameText]
    split
    · exact raisesOnly_error (.inl (reportable_of_isAscii (hall ("invalid_utf8", _) (by simp))))
    · exact raisesOnly_ok
  have hyields := yields_loads frameHooks_builds text
  cases hloads : loads frameHooks text with
  | error e =>
    rw [hloads] at hyields
    refine raisesOnly_error ?_
    cases e with
    | malformed => exact .inl (reportable_of_isAscii (hall ("invalid_json", _) (by simp)))
    | digits => exact .inl trivial
    | raised r => exact hyields
  | ok message =>
    rw [hloads] at hyields
    refine (raisesOnly_raiseIf fun _ ↦ ?_).bind fun _ _ ↦ ?_
    · exact .inl (reportable_of_isAscii (hall ("invalid_envelope", _) (by simp)))
    refine RaisesOnly.bind (fun r hr ↦ .inl (hyields 0 r hr)) fun _ _ ↦ ?_
    refine RaisesOnly.bind (fun r hr ↦ ?_) fun encoded _ ↦ ?_
    · cases hbytes : message.canonicalBytes with
      | error e =>
        rw [hbytes] at hr
        cases hr
        exact .inl trivial
      | ok b =>
        rw [hbytes] at hr
        cases hr
    refine (raisesOnly_raiseIf fun _ ↦ ?_).bind fun _ _ ↦ raisesOnly_ok
    exact .inl (reportable_of_isAscii (hall ("noncanonical_frame", _) (by simp)))

end Decoding

end EventHorizon.Protocol
