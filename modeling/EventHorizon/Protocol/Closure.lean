import EventHorizon.Canonical.Surrogates
import EventHorizon.Protocol.Frames

/-!
# What the parsers raise

`strict_json_loads` translates the exceptions of the decoder to `CanonicalizationError`, and
`read_frame` translates them to `ProtocolError`; the callers of both catch these classes. One
exception is translated by neither: the `UnicodeEncodeError` of a string with a lone surrogate, when
such a string is the first thing that the check of the decoded value refuses. Every other byte
string and every other stream ends in a value or in an exception that callers expect.

The two checks differ in the order in which they visit a mapping: `_canonical_value` sorts its keys,
`validate_value` takes them as they come.
-/

namespace EventHorizon.Protocol

/-- The exceptions that the callers of `read_frame` catch. -/
def Raised.Declared : Raised → Prop
  | .eof | .protocol _ => True
  | .exception e => e.cls = .canonicalizationError
  | .base => False

/-- Any other exception. -/
def Raised.IsForeign (r : Raised) : Prop := ¬r.Declared

theorem not_raises_declared {α : Type} {r : Raised} (h : r.Declared) :
    ¬Raises Raised.IsForeign (.error r : Except Raised α) := fun hr ↦ raises_error.mp hr h

/-! ## What `validate_value` raises -/

section Validation

variable [Platform] {d : ℕ}

theorem raises_validateText {s : PyStr} :
    Raises Raised.IsForeign (validateText d s) ↔ s.Unencodable d := by
  rw [validateText, PyStr.Unencodable, ← Nat.not_lt]
  split
  case isTrue h => exact iff_of_false (not_raises_declared trivial) fun h' ↦ h'.1 h
  case isFalse h =>
  split
  case isTrue hn =>
    rw [Bool.not_eq_true'] at hn
    exact iff_of_false (not_raises_declared trivial) fun h' ↦ absurd h'.2.1 (by simp [hn])
  case isFalse hn =>
  rw [Bool.not_eq_true', Bool.not_eq_false] at hn
  split
  case h_1 ht => exact iff_of_true ⟨_, rfl, fun h ↦ by cases h⟩ ⟨h, hn, ht⟩
  case h_2 t ht =>
    have hnone : ¬(s.text? = none) := by simp [ht]
    split
    · exact iff_of_false (not_raises_declared trivial) fun h' ↦ hnone h'.2.2
    · exact iff_of_false not_raises_ok fun h' ↦ hnone h'.2.2

theorem validateItems_eq_ok {xs : List PyValue} :
    validateItems d xs = .ok () ↔ ∀ x ∈ xs, validateValue d x = .ok () := by
  induction xs with
  | nil => simp [validateItems]
  | cons x xs ih =>
    rw [validateItems, bind_eq_ok, List.forall_mem_cons, ← ih]
    constructor
    · rintro ⟨_, hx, hxs⟩
      exact ⟨hx, hxs⟩
    · rintro ⟨hx, hxs⟩
      exact ⟨(), hx, hxs⟩

theorem raises_validateItems {xs : List PyValue} :
    Raises Raised.IsForeign (validateItems d xs) ↔
      ∃ before x after, xs = before ++ x :: after ∧ (∀ y ∈ before, validateValue d y = .ok ()) ∧
        Raises Raised.IsForeign (validateValue d x) := by
  induction xs with
  | nil => exact iff_of_false not_raises_ok (by rintro ⟨before, x, after, h, -⟩; simp at h)
  | cons x xs ih =>
    rw [validateItems, raises_bind]
    constructor
    · rintro (h | ⟨_, hx, h⟩)
      · exact ⟨[], x, xs, rfl, (fun _ h ↦ absurd h List.not_mem_nil), h⟩
      · obtain ⟨before, z, after, rfl, hbefore, hz⟩ := ih.mp h
        exact ⟨x :: before, z, after, rfl, List.forall_mem_cons.mpr ⟨hx, hbefore⟩, hz⟩
    · rintro ⟨before, z, after, hxs, hbefore, hz⟩
      cases before with
      | nil =>
        cases hxs
        exact .inl hz
      | cons y before =>
        cases hxs
        obtain ⟨hy, hbefore⟩ := List.forall_mem_cons.mp hbefore
        exact .inr ⟨(), hy, ih.mpr ⟨before, z, after, rfl, hbefore, hz⟩⟩

theorem validateFields_cons (k : PyStr) (x : PyValue) (rest : List (PyKey × PyValue)) :
    validateFields d ((.str k, x) :: rest) = (validateText d k >>= fun _ ↦
      validateValue d x >>= fun _ ↦ validateFields d rest) := by
  rw [validateFields]

/-- The check of the items of a decoded mapping. -/
theorem validateFields_eq_ok {pairs : List (PyStr × PyValue)} :
    validateFields d (pairs.map fun f ↦ (.str f.1, f.2)) = .ok () ↔
      ∀ f ∈ pairs, validateText d f.1 = .ok () ∧ validateValue d f.2 = .ok () := by
  induction pairs with
  | nil => simp [validateFields]
  | cons f pairs ih =>
    rw [List.map_cons, validateFields_cons, bind_eq_ok, List.forall_mem_cons, ← ih]
    constructor
    · rintro ⟨_, hk, h⟩
      obtain ⟨_, hx, h⟩ := bind_eq_ok.mp h
      exact ⟨⟨hk, hx⟩, h⟩
    · rintro ⟨⟨hk, hx⟩, h⟩
      exact ⟨(), hk, bind_eq_ok.mpr ⟨(), hx, h⟩⟩

theorem raises_validateFields {pairs : List (PyStr × PyValue)} :
    Raises Raised.IsForeign (validateFields d (pairs.map fun f ↦ (.str f.1, f.2))) ↔
      ∃ before k x after, pairs = before ++ (k, x) :: after ∧
        (∀ f ∈ before, validateText d f.1 = .ok () ∧ validateValue d f.2 = .ok ()) ∧
        (k.Unencodable d ∨
          validateText d k = .ok () ∧ Raises Raised.IsForeign (validateValue d x)) := by
  induction pairs with
  | nil => exact iff_of_false not_raises_ok (by rintro ⟨before, k, x, after, h, -⟩; simp at h)
  | cons f pairs ih =>
    obtain ⟨k, x⟩ := f
    rw [List.map_cons, validateFields_cons, raises_bind, raises_validateText]
    constructor
    · rintro (h | ⟨_, hk, h⟩)
      · exact ⟨[], k, x, pairs, rfl, (fun _ h ↦ nomatch h), .inl h⟩
      rcases raises_bind.mp h with h | ⟨_, hx, h⟩
      · exact ⟨[], k, x, pairs, rfl, (fun _ h ↦ nomatch h), .inr ⟨hk, h⟩⟩
      obtain ⟨before, l, z, after, rfl, hbefore, hz⟩ := ih.mp h
      exact ⟨(k, x) :: before, l, z, after, rfl,
        List.forall_mem_cons.mpr ⟨⟨hk, hx⟩, hbefore⟩, hz⟩
    · rintro ⟨before, l, z, after, hpairs, hbefore, hz⟩
      cases before with
      | nil =>
        cases hpairs
        rcases hz with h | ⟨hk, h⟩
        · exact .inl h
        · exact .inr ⟨(), hk, raises_bind.mpr (.inl h)⟩
      | cons g before =>
        cases hpairs
        obtain ⟨⟨hk, hx⟩, hbefore⟩ := List.forall_mem_cons.mp hbefore
        exact .inr ⟨(), hk, raises_bind.mpr
          (.inr ⟨(), hx, ih.mpr ⟨before, l, z, after, rfl, hbefore, hz⟩⟩)⟩

/-- On decoded values the two checks pass the same. -/
theorem validateValue_eq_ok {v : PyValue} (hv : v.Decoded) :
    ∀ d, validateValue d v = .ok () ↔ v.Canonicalizes d := by
  induction hv with
  | none =>
    intro d
    rw [validateValue, PyValue.canonicalizes_none]
    exact ite_eq_right_iff.trans ⟨fun h ↦ Nat.not_lt.mp fun hd ↦ (by cases h hd),
      fun hd h ↦ absurd h (nesting_of_le hd)⟩
  | bool b =>
    intro d
    rw [validateValue, PyValue.canonicalizes_bool]
    exact ite_eq_right_iff.trans ⟨fun h ↦ Nat.not_lt.mp fun hd ↦ (by cases h hd),
      fun hd h ↦ absurd h (nesting_of_le hd)⟩
  | int n =>
    intro d
    rw [PyValue.canonicalizes_int]
    constructor
    · intro h
      rw [validateValue] at h
      split at h
      · cases h
      case isFalse hd =>
      split at h
      · cases h
      case isFalse hn => exact ⟨Nat.not_lt.mp hd, Nat.not_lt.mp hn⟩
    · rintro ⟨hd, hn⟩
      rw [validateValue, if_neg (nesting_of_le hd), if_neg (Nat.not_lt.mpr hn)]
  | float f =>
    intro d
    rw [← PyValue.ofJson, PyValue.canonicalizes_ofJson]
    constructor
    · intro h
      rw [PyValue.ofJson, validateValue] at h
      split at h
      · cases h
      case isFalse hd =>
      split at h
      · cases h
      case isFalse hf =>
        rw [Bool.or_eq_true, not_or, Bool.not_eq_true', Bool.not_eq_false, Bool.not_eq_true] at hf
        exact canonicalizes_float.mpr ⟨Nat.not_lt.mp hd, hf⟩
    · exact validateValue_ofJson (.float f) d
  | str s =>
    intro d
    rw [validateValue, validateText_eq_ok, PyValue.canonicalizes_str]
  | list xs _ ih =>
    intro d
    rw [PyValue.canonicalizes_list]
    have hitems : validateItems (d + 1) xs = .ok () ↔ ∀ x ∈ xs, x.Canonicalizes (d + 1) :=
      validateItems_eq_ok.trans (forall₂_congr fun x hx ↦ ih x hx (d + 1))
    rw [← hitems]
    constructor
    · intro h
      rw [validateValue] at h
      split at h
      · cases h
      case isFalse hd =>
      split at h
      · cases h
      case isFalse hlen => exact ⟨Nat.not_lt.mp hd, Nat.not_lt.mp hlen, h⟩
    · rintro ⟨hd, hlen, h⟩
      rw [validateValue, if_neg (nesting_of_le hd), if_neg (items_of_le hlen)]
      exact h
  | dict pairs _ ih =>
    intro d
    rw [PyValue.canonicalizes_dict]
    have hitems : validateFields (d + 1) (pairs.map fun f ↦ (.str f.1, f.2)) = .ok () ↔
        ∀ f ∈ pairs.map (fun f ↦ ((.str f.1 : PyKey), f.2)), d + 1 ≤ maxCanonicalDepth ∧
          (∃ k, f.1 = .str k ∧ k.IsCanonical) ∧ f.2.Canonicalizes (d + 1) := by
      rw [validateFields_eq_ok, List.forall_mem_map]
      refine forall₂_congr fun f hf ↦ ?_
      rw [validateText_eq_ok, ih f hf (d + 1), and_assoc]
      simp
    rw [← hitems]
    constructor
    · intro h
      rw [validateValue] at h
      split at h
      · cases h
      case isFalse hd =>
      split at h
      · cases h
      case isFalse hlen => exact ⟨Nat.not_lt.mp hd, Nat.not_lt.mp hlen, h⟩
    · rintro ⟨hd, hlen, h⟩
      rw [validateValue, if_neg (nesting_of_le hd), if_neg (items_of_le hlen)]
      exact h

theorem itemPasses_of_validate {f : PyStr × PyValue} (hf : f.2.Decoded) :
    PyValue.ItemPasses d (.str f.1, f.2) ↔
      validateText d f.1 = .ok () ∧ validateValue d f.2 = .ok () := by
  rw [PyValue.ItemPasses, validateText_eq_ok, validateValue_eq_ok hf]
  simp

/-- `validate_value` raises an exception of another class exactly where it meets a lone surrogate,
with the items of mappings in their order. -/
theorem raises_validateValue {v : PyValue} (hv : v.Decoded) :
    ∀ d, Raises Raised.IsForeign (validateValue d v) ↔ v.MeetsSurrogate id d := by
  -- a scalar raises only what is declared, a container what its first refused item raises
  induction hv with
  | none =>
    intro d
    refine iff_of_false ?_ fun h ↦ by cases h
    rw [validateValue]
    split
    · exact not_raises_declared trivial
    · exact not_raises_ok
  | bool b =>
    intro d
    refine iff_of_false ?_ fun h ↦ by cases h
    rw [validateValue]
    split
    · exact not_raises_declared trivial
    · exact not_raises_ok
  | int n =>
    intro d
    refine iff_of_false ?_ fun h ↦ by cases h
    rw [validateValue]
    split
    · exact not_raises_declared trivial
    split
    · exact not_raises_declared trivial
    · exact not_raises_ok
  | float f =>
    intro d
    refine iff_of_false ?_ fun h ↦ by cases h
    rw [validateValue]
    split
    · exact not_raises_declared trivial
    split
    · exact not_raises_declared trivial
    · exact not_raises_ok
  | str s =>
    intro d
    rw [validateValue, raises_validateText]
    exact ⟨.str, fun h ↦ by cases h; assumption⟩
  | list xs hxs ih =>
    intro d
    rw [validateValue]
    split
    case isTrue h =>
      exact iff_of_false (not_raises_declared trivial) fun hm ↦ by
        cases hm
        exact nesting_of_le ‹_› h
    case isFalse hd =>
    split
    case isTrue h =>
      exact iff_of_false (not_raises_declared trivial) fun hm ↦ by cases hm; exact items_of_le ‹_› h
    case isFalse hlen =>
    rw [raises_validateItems]
    constructor
    · rintro ⟨before, x, after, rfl, hbefore, hx⟩
      refine .item (Nat.not_lt.mp hd) (Nat.not_lt.mp hlen) rfl (fun y hy ↦ ?_)
        ((ih x (by simp) (d + 1)).mp hx)
      exact (validateValue_eq_ok (hxs y (List.mem_append_left _ hy)) _).mp (hbefore y hy)
    · intro hm
      cases hm with
      | item _ _ hsplit hbefore h =>
        subst hsplit
        refine ⟨_, _, _, rfl, fun y hy ↦ ?_, (ih _ (by simp) (d + 1)).mpr h⟩
        exact (validateValue_eq_ok (hxs y (List.mem_append_left _ hy)) _).mpr (hbefore y hy)
  | dict pairs hpairs ih =>
    intro d
    rw [validateValue]
    split
    case isTrue h =>
      exact iff_of_false (not_raises_declared trivial) fun hm ↦ by
        cases hm <;> exact nesting_of_le ‹_› h
    case isFalse hd =>
    split
    case isTrue h =>
      exact iff_of_false (not_raises_declared trivial) fun hm ↦ by
        cases hm <;> exact items_of_le ‹_› h
    case isFalse hlen =>
    rw [raises_validateFields]
    constructor
    · rintro ⟨before, k, x, after, rfl, hbefore, hx⟩
      have hsplit : id ((before ++ (k, x) :: after).map fun f ↦ ((.str f.1 : PyKey), f.2)) =
          before.map (fun f ↦ (.str f.1, f.2)) ++
            (.str k, x) :: after.map fun f ↦ (.str f.1, f.2) := by simp
      have hitems : ∀ f ∈ before.map (fun f ↦ ((.str f.1 : PyKey), f.2)),
          PyValue.ItemPasses (d + 1) f := List.forall_mem_map.mpr fun f hf ↦
        (itemPasses_of_validate (hpairs f (List.mem_append_left _ hf))).mpr (hbefore f hf)
      -- the key of an item is checked before its value
      rcases hx with hk | ⟨hk, hx⟩
      · exact .key (Nat.not_lt.mp hd) (Nat.not_lt.mp hlen) hsplit hitems hk
      · obtain ⟨hdk, hk⟩ := validateText_eq_ok.mp hk
        exact .value (Nat.not_lt.mp hd) (Nat.not_lt.mp hlen) hsplit hitems hdk hk
          ((ih (k, x) (by simp) (d + 1)).mp hx)
    · intro hm
      cases hm with
      | key _ _ hitems hbefore h =>
        obtain ⟨before', after', rfl, rfl⟩ := PyValue.exists_pairs_of_eq_append hitems
        exact ⟨before', _, _, after', rfl, fun f hf ↦
          (itemPasses_of_validate (hpairs f (List.mem_append_left _ hf))).mp
            (List.forall_mem_map.mp hbefore f hf), .inl h⟩
      | value _ _ hitems hbefore hdk hk h =>
        obtain ⟨before', after', rfl, rfl⟩ := PyValue.exists_pairs_of_eq_append hitems
        exact ⟨before', _, _, after', rfl, fun f hf ↦
          (itemPasses_of_validate (hpairs f (List.mem_append_left _ hf))).mp
            (List.forall_mem_map.mp hbefore f hf),
          .inr ⟨validateText_eq_ok.mpr ⟨hdk, hk⟩,
            (ih _ (List.mem_append_right before' List.mem_cons_self) (d + 1)).mpr h⟩⟩

end Validation

/-! ## What the parsers raise -/

section Parsers

variable [Platform] [FloatReader]

omit [Platform] in
theorem frameHooks_builds_decoded :
    frameHooks.Builds PyValue.Decoded Raised.Declared where
  none := .none
  bool := .bool
  int := .int
  str := .str
  list := .list
  pairs ps hps := yields_objectWithoutDuplicates ps (.dict ps hps) fun _ ↦ trivial
  float _ := .float _
  constant _ _ := trivial

omit [Platform] in
theorem raises_mapError_frameError {text : List Char} :
    Raises Raised.IsForeign ((loads frameHooks text).mapError frameError) ↔
      loads frameHooks text = .error .digits := by
  have hyields := yields_loads frameHooks_builds_decoded text
  rw [raises_mapError]
  cases hloads : loads frameHooks text with
  | ok v => exact iff_of_false not_raises_ok fun h ↦ nomatch h
  | error e =>
    rw [hloads] at hyields
    rw [raises_error]
    cases e with
    | malformed => exact iff_of_false (fun h ↦ h trivial) fun h ↦ nomatch h
    | digits => exact iff_of_true (fun h ↦ nomatch h) rfl
    | raised r => exact iff_of_false (fun h ↦ h hyields) fun h ↦ nomatch h

/-- What is raised for the payload of a frame, and is neither a `ProtocolError` nor a
`CanonicalizationError`. -/
theorem raises_decodePayload {payload : List ℕ} :
    Raises Raised.IsForeign (decodePayload payload) ↔
      ∃ text, decodeUtf8 payload = some text ∧ (loads frameHooks text = .error .digits ∨
        ∃ v, loads frameHooks text = .ok v ∧ v.isDict = true ∧ v.MeetsSurrogate id 0) := by
  have hvalue : ∀ (text : List Char) (v : PyValue), loads frameHooks text = .ok v →
      (Raises Raised.IsForeign (raiseIf (v.isDict = false)
          (refusal "invalid_envelope" "frame must contain an object") >>= fun _ ↦
        validateValue 0 v >>= fun _ ↦ v.canonicalBytes.mapError Raised.exception >>= fun encoded ↦
        raiseIf (encoded ≠ payload)
          (refusal "noncanonical_frame" "frame must use canonical JSON") >>=
          fun _ ↦ return v) ↔ v.isDict = true ∧ v.MeetsSurrogate id 0) := by
    intro text v hv
    have hdecoded := yields_loads frameHooks_builds_decoded text
    rw [hv] at hdecoded
    constructor
    · intro h
      rcases raises_bind.mp h with h | ⟨_, hdict, h⟩
      · exact absurd h (mt raises_raiseIf.mp fun h' ↦ h'.2 trivial)
      rcases raises_bind.mp h with h | ⟨_, hvalid, h⟩
      · exact ⟨by simpa using raiseIf_eq_ok.mp hdict, (raises_validateValue hdecoded 0).mp h⟩
      -- a value that has been validated can be encoded
      obtain ⟨b, hb⟩ :=
        PyValue.canonicalBytes_eq_ok.mpr ((validateValue_eq_ok hdecoded 0).mp hvalid)
      rw [hb] at h
      rcases raises_bind.mp h with h | ⟨_, -, h⟩
      · exact absurd h not_raises_ok
      rcases raises_bind.mp h with h | ⟨_, -, h⟩
      · exact absurd h (mt raises_raiseIf.mp fun h' ↦ h'.2 trivial)
      · exact absurd h not_raises_ok
    · rintro ⟨hdict, h⟩
      exact raises_bind.mpr (.inr ⟨(), raiseIf_eq_ok.mpr (by simp [hdict]), raises_bind.mpr
        (.inl ((raises_validateValue hdecoded 0).mpr h))⟩)
  rw [decodePayload, raises_bind, frameText]
  cases decodeUtf8 payload with
  | none =>
    refine iff_of_false ?_ ?_
    · rintro (h | ⟨_, h, _⟩)
      · exact raises_error.mp h trivial
      · cases h
    · rintro ⟨_, h, _⟩
      cases h
  | some text =>
    constructor
    · rintro (h | ⟨_, htext, h⟩)
      · exact absurd h not_raises_ok
      cases htext
      rcases raises_bind.mp h with h | ⟨v, hv, h⟩
      · exact ⟨text, rfl, .inl (raises_mapError_frameError.mp h)⟩
      · have hv := mapError_eq_ok.mp hv
        exact ⟨text, rfl, .inr ⟨v, hv, (hvalue text v hv).mp h⟩⟩
    · rintro ⟨_, htext, h⟩
      cases htext
      refine .inr ⟨text, rfl, raises_bind.mpr ?_⟩
      rcases h with h | ⟨v, hv, h⟩
      · exact .inl (raises_mapError_frameError.mpr h)
      · exact .inr ⟨v, mapError_eq_ok.mpr hv, (hvalue text v hv).mpr h⟩

/-- The stream starts with a frame of the payload. -/
def Carries (maxBytes : ℕ) (src : Source) (payload : List ℕ) : Prop :=
  payload ≠ [] ∧ payload.length ≤ maxBytes ∧ payload.length < 0x100000000 ∧
    ∃ rest, src.data = packLength payload.length ++ payload ++ rest

omit [Platform] [FloatReader] in
/-- There is one frame at most at the start of a stream. -/
theorem Carries.payload_eq {maxBytes : ℕ} {src : Source} {payload : List ℕ}
    (h : Carries maxBytes src payload) :
    payload = (src.data.drop 4).take (unpackLength (src.data.take 4)) := by
  obtain ⟨-, -, hlt, rest, hdata⟩ := h
  have hheader : src.data.take 4 = packLength payload.length := by
    rw [hdata]
    rfl
  have hbody : src.data.drop 4 = payload ++ rest := by
    rw [hdata]
    rfl
  rw [hheader, hbody, unpackLength_packLength hlt, List.take_left]

theorem raises_readFrame {maxBytes : ℕ} {src : Source} :
    Raises Raised.IsForeign (readFrame maxBytes src).1 ↔
      ∃ payload, Carries maxBytes src payload ∧
        Raises Raised.IsForeign (decodePayload payload) := by
  constructor
  · intro h
    rcases readFrame_cases maxBytes src with ⟨r, hr, hcase⟩ | ⟨payload, hdata, hne, hle, hlt, hread⟩
    · rw [hr] at h
      refine absurd h (not_raises_declared ?_)
      rcases hcase with rfl | ⟨e, rfl⟩ <;> trivial
    · exact ⟨payload, ⟨hne, hle, hlt, _, hdata⟩, hread ▸ h⟩
  · rintro ⟨payload, ⟨hne, hle, hlt, rest, hdata⟩, h⟩
    rwa [(readFrame_frame hne hle hlt hdata).1]

/-- The value that the bytes spell as JSON. -/
def Spells {ε : Type} (hooks : Hooks ε) (data : List ℕ) (v : PyValue) : Prop :=
  ∃ text, decodeUtf8 data = some text ∧ loads hooks text = .ok v

/-- No integer in the bytes has more digits than `int` converts. -/
def WithinDigits {ε : Type} (hooks : Hooks ε) (data : List ℕ) : Prop :=
  ∀ text, decodeUtf8 data = some text → loads hooks text ≠ .error .digits

/-- Parsers of byte strings and of streams raise nothing but what their callers expect, exactly when
what they read does not spell a lone surrogate where nothing before it is refused. -/
theorem parsers_closed :
    (∀ data requireCanonical, WithinDigits strictHooks data →
      (RaisesOnly (fun e ↦ e.cls = .canonicalizationError)
          (strictJsonLoads data requireCanonical) ↔
        ¬∃ v, Spells strictHooks data v ∧ v.MeetsSurrogate PyValue.sortItems 0)) ∧
    ∀ maxBytes src, (∀ payload, Carries maxBytes src payload → WithinDigits frameHooks payload) →
      (RaisesOnly Raised.Declared (readFrame maxBytes src).1 ↔
        ¬∃ payload v, Carries maxBytes src payload ∧ Spells frameHooks payload v ∧
          v.isDict = true ∧ v.MeetsSurrogate id 0) := by
  refine ⟨fun data requireCanonical hdigits ↦ ?_, fun maxBytes src hdigits ↦ ?_⟩
  · rw [← not_raises_iff, not_iff_not]
    refine raises_strictJsonLoads.trans ⟨?_, ?_⟩
    · rintro ⟨text, htext, h | ⟨v, hv, hmeets⟩⟩
      · exact absurd h (hdigits text htext)
      · exact ⟨v, ⟨text, htext, hv⟩, hmeets⟩
    · rintro ⟨v, ⟨text, htext, hv⟩, hmeets⟩
      exact ⟨text, htext, .inr ⟨v, hv, hmeets⟩⟩
  · rw [← not_raises_iff, not_iff_not]
    refine raises_readFrame.trans ⟨?_, ?_⟩
    · rintro ⟨payload, hcarries, h⟩
      obtain ⟨text, htext, h | ⟨v, hv, hmeets⟩⟩ := raises_decodePayload.mp h
      · exact absurd h (hdigits payload hcarries text htext)
      · exact ⟨payload, v, hcarries, ⟨text, htext, hv⟩, hmeets⟩
    · rintro ⟨payload, v, hcarries, ⟨text, htext, hv⟩, hmeets⟩
      exact ⟨payload, hcarries, raises_decodePayload.mpr ⟨text, htext, .inr ⟨v, hv, hmeets⟩⟩⟩

end Parsers

/-! ## Two documents -/

namespace Sample

attribute [local instance] pythonPlatform

/-- A reader of floats, as there are none in these bytes. -/
@[reducible] def noFloats : FloatReader := ⟨fun _ ↦ ⟨true, false, none, "0.0", "0.0"⟩⟩

attribute [local instance] noFloats

/-- The frame of an object with a number and a text, which is read in pieces of three octets. -/
def smallStream : Source where
  data := packLength 15 ++ asciiOctets "\x7b\"n\":7,\"s\":\"a\"\x7d"
  sizes _ := 3
  octets := by decide +kernel

/-- A string of one escape. -/
def surrogateText : List ℕ := asciiOctets "\"\\ud800\""

/-- The frame of an object with that string. -/
def surrogateStream : Source where
  data := packLength 14 ++ asciiOctets "\x7b\"a\":\"\\ud800\"\x7d"
  sizes _ := 100
  octets := by decide +kernel

/-- The value is the list of the number `-12` and the text `a`. -/
def isSmallList {ε : Type} : Except ε PyValue → Bool
  | .ok (.list [.int n, .str s]) => decide (n = -12 ∧ s = .ofString "a")
  | _ => false

theorem eq_of_isSmallList {ε : Type} {r : Except ε PyValue} (h : isSmallList r = true) :
    r = .ok (.list [.int (-12), .str (.ofString "a")]) := by
  unfold isSmallList at h
  split at h
  case h_1 n s =>
    obtain ⟨rfl, rfl⟩ := of_decide_eq_true h
    rfl
  case h_2 => cases h

/-- The value is the object of `smallStream`. -/
def isSmallObject {ε : Type} : Except ε PyValue → Bool
  | .ok (.dict [(.str k, .int n), (.str k', .str s)]) =>
    decide ((k = .ofString "n" ∧ n = 7) ∧ k' = .ofString "s" ∧ s = .ofString "a")
  | _ => false

theorem eq_of_isSmallObject {ε : Type} {r : Except ε PyValue} (h : isSmallObject r = true) :
    r = .ok (.dict [(.str (.ofString "n"), .int 7),
      (.str (.ofString "s"), .str (.ofString "a"))]) := by
  unfold isSmallObject at h
  split at h
  case h_1 k n k' s =>
    obtain ⟨⟨rfl, rfl⟩, rfl, rfl⟩ := of_decide_eq_true h
    rfl
  case h_2 => cases h

theorem not_unencodable (d : ℕ) (s : String) : ¬(PyStr.ofString s).Unencodable d := by
  rintro ⟨-, -, h⟩
  rw [PyStr.text?_ofString] at h
  cases h

end Sample

/-- A list of a number and a text, and the frame of an object with such fields. -/
theorem parsers_closed_sample :
    let _ := pythonPlatform
    let _ := Sample.noFloats
    RaisesOnly (fun e ↦ e.cls = .canonicalizationError)
        (strictJsonLoads (asciiOctets "[-12,\"a\"]") true) ∧
      RaisesOnly Raised.Declared (readFrame maxFrameBytes Sample.smallStream).1 := by
  intro _ _
  have htext : ∀ text, decodeUtf8 (asciiOctets "[-12,\"a\"]") = some text →
      loads strictHooks text = .ok (.list [.int (-12), .str (.ofString "a")]) := by
    intro text h
    have hlist : decodeUtf8 (asciiOctets "[-12,\"a\"]") = some "[-12,\"a\"]".toList := by
      decide +kernel
    rw [hlist] at h
    cases h
    exact Sample.eq_of_isSmallList (by decide +kernel)
  have hpayload : ∀ payload, Carries maxFrameBytes Sample.smallStream payload →
      payload = asciiOctets "\x7b\"n\":7,\"s\":\"a\"\x7d" := fun payload h ↦ h.payload_eq
  have hframe : ∀ text, decodeUtf8 (asciiOctets "\x7b\"n\":7,\"s\":\"a\"\x7d") = some text →
      loads frameHooks text = .ok (.dict [(.str (.ofString "n"), .int 7),
        (.str (.ofString "s"), .str (.ofString "a"))]) := by
    intro text h
    have hobject : decodeUtf8 (asciiOctets "\x7b\"n\":7,\"s\":\"a\"\x7d") =
        some "\x7b\"n\":7,\"s\":\"a\"\x7d".toList := by decide +kernel
    rw [hobject] at h
    cases h
    exact Sample.eq_of_isSmallObject (by decide +kernel)
  constructor
  · refine (parsers_closed.1 _ true fun text h ↦ ?_).mpr ?_
    · rw [htext text h]
      exact fun h ↦ nomatch h
    · rintro ⟨v, ⟨text, h, hv⟩, hmeets⟩
      rw [htext text h] at hv
      cases hv
      cases hmeets with
      | @item d xs before after x hd hlen hxs hbefore hmeets =>
        have hmem : x ∈ [.int (-12), .str (.ofString "a")] :=
          hxs ▸ List.mem_append_right _ List.mem_cons_self
        simp only [List.mem_cons, List.not_mem_nil, or_false] at hmem
        rcases hmem with rfl | rfl
        · cases hmeets
        · cases hmeets with
          | str hstr => exact Sample.not_unencodable _ _ hstr
  · refine (parsers_closed.2 _ _ fun payload hcarries text h ↦ ?_).mpr ?_
    · rw [hpayload payload hcarries] at h
      rw [hframe text h]
      exact fun h ↦ nomatch h
    · rintro ⟨payload, v, hcarries, ⟨text, h, hv⟩, -, hmeets⟩
      rw [hpayload payload hcarries] at h
      rw [hframe text h] at hv
      cases hv
      have hfields : ∀ {before after : List (PyKey × PyValue)} {k : PyStr} {x : PyValue},
          id [(.str (.ofString "n"), .int 7), (.str (.ofString "s"), .str (.ofString "a"))] =
            before ++ (PyKey.str k, x) :: after →
          k = .ofString "n" ∧ x = .int 7 ∨ k = .ofString "s" ∧ x = .str (.ofString "a") := by
        intro before after k x heq
        have hmem : (PyKey.str k, x) ∈ [(PyKey.str (.ofString "n"), PyValue.int 7),
            (PyKey.str (.ofString "s"), PyValue.str (.ofString "a"))] := by
          rw [id] at heq
          rw [heq]
          exact List.mem_append_right _ List.mem_cons_self
        simpa using hmem
      cases hmeets with
      | key _ _ hitems _ hkey =>
        rcases hfields hitems with ⟨rfl, -⟩ | ⟨rfl, -⟩
        · exact Sample.not_unencodable _ _ hkey
        · exact Sample.not_unencodable _ _ hkey
      | value _ _ hitems _ _ _ hmeets =>
        rcases hfields hitems with ⟨-, rfl⟩ | ⟨-, rfl⟩
        · cases hmeets
        · cases hmeets with
          | str hstr => exact Sample.not_unencodable _ _ hstr

/-- The value is an object with a single text, which is a lone surrogate under `a`. -/
def Sample.isSurrogate {ε : Type} : Except ε PyValue → Bool
  | .ok (.dict [(.str k, .str s)]) => decide (k = .ofString "a" ∧ s = [.surrogate 0])
  | _ => false

theorem Sample.eq_of_isSurrogate {ε : Type} {r : Except ε PyValue} (h : isSurrogate r = true) :
    r = .ok (.dict [(.str (.ofString "a"), .str [.surrogate 0])]) := by
  unfold isSurrogate at h
  split at h
  case h_1 k s =>
    obtain ⟨rfl, rfl⟩ := of_decide_eq_true h
    rfl
  case h_2 => cases h

theorem Sample.loads_surrogate :
    let _ := pythonPlatform
    let _ := Sample.noFloats
    loads frameHooks "\x7b\"a\":\"\\ud800\"\x7d".toList =
      .ok (.dict [(.str (.ofString "a"), .str [.surrogate 0])]) := by
  intro _ _
  exact eq_of_isSurrogate (by decide +kernel)

/-- An escape of a lone surrogate, by itself and in a frame, is an error of the encoder. -/
theorem parsers_not_closed :
    let _ := pythonPlatform
    let _ := Sample.noFloats
    WithinDigits strictHooks Sample.surrogateText ∧
      ¬RaisesOnly (fun e ↦ e.cls = .canonicalizationError)
        (strictJsonLoads Sample.surrogateText false) ∧
      (∀ payload, Carries maxFrameBytes Sample.surrogateStream payload →
        WithinDigits frameHooks payload) ∧
      ¬RaisesOnly Raised.Declared (readFrame maxFrameBytes Sample.surrogateStream).1 := by
  intro _ _
  have hframe : decodeUtf8 (asciiOctets "\x7b\"a\":\"\\ud800\"\x7d") =
      some "\x7b\"a\":\"\\ud800\"\x7d".toList := by decide +kernel
  have htext : decodeUtf8 Sample.surrogateText = some "\"\\ud800\"".toList := by decide +kernel
  have hstr : ∀ d, d ≤ maxCanonicalDepth → PyStr.Unencodable d [.surrogate 0] := fun d hd ↦
    ⟨hd, by decide +kernel, rfl⟩
  refine ⟨fun text h ↦ ?_, fun h ↦ ?_, fun payload hcarries text h ↦ ?_, fun h ↦ ?_⟩
  · rw [htext] at h
    cases h
    exact fun h ↦ nomatch h
  · exact not_raises_iff.mpr h (raises_strictJsonLoads.mpr
      ⟨_, htext, .inr ⟨_, rfl, .str (hstr 0 (by decide))⟩⟩)
  · have hpayload : payload = asciiOctets "\x7b\"a\":\"\\ud800\"\x7d" :=
      hcarries.payload_eq.trans (by decide +kernel)
    rw [hpayload, hframe] at h
    cases h
    rw [Sample.loads_surrogate]
    exact fun h ↦ nomatch h
  · have hmeets :
        (PyValue.dict [(.str (.ofString "a"), .str [.surrogate 0])]).MeetsSurrogate id 0 :=
      .value (by decide) (by decide)
        (rfl : _ = [] ++ (PyKey.str (.ofString "a"), PyValue.str [.surrogate 0]) :: [])
        (fun _ h ↦ nomatch h) (by decide) ⟨"a", rfl, by decide +kernel⟩ (.str (hstr 1 (by decide)))
    refine not_raises_iff.mpr h (raises_readFrame.mpr
      ⟨asciiOctets "\x7b\"a\":\"\\ud800\"\x7d", ⟨by decide, by decide, by decide, [], ?_⟩, ?_⟩)
    · decide +kernel
    · exact raises_decodePayload.mpr ⟨_, hframe, .inr ⟨_, Sample.loads_surrogate, rfl, hmeets⟩⟩

end EventHorizon.Protocol
