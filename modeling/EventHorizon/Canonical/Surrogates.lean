import EventHorizon.Canonical.Encodable
import EventHorizon.Canonical.Loads

/-!
# Strings that cannot be encoded

JSON spells a lone surrogate with an escape, so the decoder returns strings that have no UTF-8. Both
checks of a decoded value, `_canonical_value` and `validate_value`, compute the UTF-8 of each string
to measure it, and the exception of `encode` is none of their own.

The checks visit the parts of a value one after the other and stop at the first they refuse. Where a
lone surrogate is what they stop at is described here without reference to either, so that the two
can be compared with it.
-/

namespace EventHorizon

/-! ## Decoded values -/

/-- A value of the decoder: there are no tuples and no objects of other types, and keys are
strings. -/
inductive PyValue.Decoded : PyValue → Prop
  | none : Decoded .none
  | bool (b : Bool) : Decoded (.bool b)
  | int (n : ℤ) : Decoded (.int n)
  | float (f : FloatValue) : Decoded (.float f)
  | str (s : PyStr) : Decoded (.str s)
  | list (xs : List PyValue) (h : ∀ x ∈ xs, Decoded x) : Decoded (.list xs)
  | dict (pairs : List (PyStr × PyValue)) (h : ∀ f ∈ pairs, Decoded f.2) :
    Decoded (.dict (pairs.map fun f ↦ (.str f.1, f.2)))

theorem strictHooks_builds :
    strictHooks.Builds PyValue.Decoded fun e ↦ e.cls = .canonicalizationError where
  none := .none
  bool := .bool
  int := .int
  str := .str
  list := .list
  pairs ps hps := yields_objectWithoutDuplicates ps (.dict ps hps) fun _ ↦ rfl
  float _ := rfl
  constant _ _ := rfl

/-! ## Where a lone surrogate is met -/

section Meets

variable [Platform]

/-- A string that passes every check before its UTF-8 is computed, and has none. -/
def PyStr.Unencodable (d : ℕ) (s : PyStr) : Prop :=
  d ≤ maxCanonicalDepth ∧ s.isNfc = true ∧ s.text? = none

namespace PyValue

/-- An item of a mapping that passes. -/
def ItemPasses (d : ℕ) (f : PyKey × PyValue) : Prop :=
  (∃ k, f.1 = .str k ∧ d ≤ maxCanonicalDepth ∧ k.IsCanonical) ∧ f.2.Canonicalizes d

/-- The first part of the value that is refused is a string with a lone surrogate. The items of a
mapping are visited in the given order, each key before its value. -/
inductive MeetsSurrogate (order : List (PyKey × PyValue) → List (PyKey × PyValue)) :
    ℕ → PyValue → Prop
  | str {d : ℕ} {s : PyStr} (h : s.Unencodable d) : MeetsSurrogate order d (.str s)
  | item {d : ℕ} {xs before after : List PyValue} {x : PyValue} (hd : d ≤ maxCanonicalDepth)
    (hlen : xs.length ≤ maxCanonicalItems) (hxs : xs = before ++ x :: after)
    (hbefore : ∀ y ∈ before, y.Canonicalizes (d + 1)) (h : MeetsSurrogate order (d + 1) x) :
    MeetsSurrogate order d (.list xs)
  | key {d : ℕ} {items before after : List (PyKey × PyValue)} {k : PyStr} {x : PyValue}
    (hd : d ≤ maxCanonicalDepth) (hlen : items.length ≤ maxCanonicalItems)
    (hitems : order items = before ++ (.str k, x) :: after)
    (hbefore : ∀ f ∈ before, ItemPasses (d + 1) f) (h : k.Unencodable (d + 1)) :
    MeetsSurrogate order d (.dict items)
  | value {d : ℕ} {items before after : List (PyKey × PyValue)} {k : PyStr} {x : PyValue}
    (hd : d ≤ maxCanonicalDepth) (hlen : items.length ≤ maxCanonicalItems)
    (hitems : order items = before ++ (.str k, x) :: after)
    (hbefore : ∀ f ∈ before, ItemPasses (d + 1) f) (hdk : d + 1 ≤ maxCanonicalDepth)
    (hk : k.IsCanonical) (h : MeetsSurrogate order (d + 1) x) :
    MeetsSurrogate order d (.dict items)

end PyValue

end Meets

/-! ## What `_canonical_value` raises -/

section Escapes

variable [Platform] {d : ℕ}

/-- The exception is no `CanonicalizationError`. -/
def Exn.IsForeign (e : Exn) : Prop := ¬e.cls = .canonicalizationError

omit [Platform] in
theorem not_raises_reject {α : Type} {e : Exn} (h : e.cls = .canonicalizationError) :
    ¬Raises Exn.IsForeign (.error e : Except Exn α) := fun he ↦ raises_error.mp he h

theorem raises_canonicalText {s : PyStr} :
    Raises Exn.IsForeign (s.canonicalText d) ↔ s.Unencodable d := by
  rw [PyStr.canonicalText, PyStr.Unencodable, ← Nat.not_lt]
  split
  case isTrue h => exact iff_of_false (not_raises_reject rfl) fun h' ↦ h'.1 h
  case isFalse h =>
  split
  case isTrue hn =>
    rw [Bool.not_eq_true'] at hn
    exact iff_of_false (not_raises_reject rfl) fun h' ↦ absurd h'.2.1 (by simp [hn])
  case isFalse hn =>
  rw [Bool.not_eq_true', Bool.not_eq_false] at hn
  split
  case h_1 ht => exact iff_of_true ⟨_, rfl, fun h ↦ by cases h⟩ ⟨h, hn, ht⟩
  case h_2 t ht =>
    have hnone : ¬(s.text? = none) := by simp [ht]
    split
    · exact iff_of_false (not_raises_reject rfl) fun h' ↦ hnone h'.2.2
    · exact iff_of_false not_raises_ok fun h' ↦ hnone h'.2.2

namespace PyValue

theorem raises_canonicalItems {xs : List PyValue} : Raises Exn.IsForeign (canonicalItems d xs) ↔
    ∃ before x after, xs = before ++ x :: after ∧ (∀ y ∈ before, y.Canonicalizes d) ∧
      Raises Exn.IsForeign (x.canonicalValue d) := by
  induction xs with
  | nil => exact iff_of_false not_raises_ok (by rintro ⟨before, x, after, h, -⟩; simp at h)
  | cons x xs ih =>
    rw [canonicalItems, raises_bind]
    constructor
    · rintro (h | ⟨y, hy, h⟩)
      · exact ⟨[], x, xs, rfl, (fun _ h ↦ nomatch h), h⟩
      · have hrest : Raises Exn.IsForeign (canonicalItems d xs) := by
          rcases raises_bind.mp h with h | ⟨ys, -, h⟩
          · exact h
          · exact absurd h not_raises_ok
        obtain ⟨before, z, after, rfl, hbefore, hz⟩ := ih.mp hrest
        exact ⟨x :: before, z, after, rfl, List.forall_mem_cons.mpr ⟨⟨y, hy⟩, hbefore⟩, hz⟩
    · rintro ⟨before, z, after, hxs, hbefore, hz⟩
      cases before with
      | nil =>
        cases hxs
        exact .inl hz
      | cons y before =>
        cases hxs
        obtain ⟨⟨c, hc⟩, hbefore⟩ := List.forall_mem_cons.mp hbefore
        exact .inr ⟨c, hc, raises_bind.mpr (.inl (ih.mpr ⟨before, z, after, rfl, hbefore, hz⟩))⟩

/-- The items of a mapping in sorted order, whose keys are strings. -/
theorem raises_canonicalEntries {pairs : List (PyStr × PyValue)} :
    Raises Exn.IsForeign (canonicalEntries d (pairs.map fun f ↦ (.str f.1, f.2.canonicalValue d))) ↔
      ∃ before k x after, pairs = before ++ (k, x) :: after ∧
        (∀ f ∈ before, ItemPasses d (.str f.1, f.2)) ∧
        (k.Unencodable d ∨
          d ≤ maxCanonicalDepth ∧ k.IsCanonical ∧ Raises Exn.IsForeign (x.canonicalValue d)) := by
  induction pairs with
  | nil => exact iff_of_false not_raises_ok (by rintro ⟨before, k, x, after, h, -⟩; simp at h)
  | cons f pairs ih =>
    obtain ⟨k, x⟩ := f
    rw [List.map_cons, canonicalEntries, raises_bind, raises_canonicalText]
    constructor
    · rintro (h | ⟨t, ht, h⟩)
      · exact ⟨[], k, x, pairs, rfl, (fun _ h ↦ absurd h List.not_mem_nil), .inl h⟩
      obtain ⟨hd, hk, hcanon⟩ := PyStr.canonicalText_eq_ok.mp ht
      rcases raises_bind.mp h with h | ⟨c, hc, h⟩
      · exact ⟨[], k, x, pairs, rfl, (fun _ h ↦ absurd h List.not_mem_nil),
        .inr ⟨hd, ⟨t, hk, hcanon⟩, h⟩⟩
      have hrest : Raises Exn.IsForeign
          (canonicalEntries d (pairs.map fun f ↦ (.str f.1, f.2.canonicalValue d))) := by
        rcases raises_bind.mp h with h | ⟨ys, -, h⟩
        · exact h
        · exact absurd h not_raises_ok
      obtain ⟨before, l, z, after, rfl, hbefore, hz⟩ := ih.mp hrest
      exact ⟨(k, x) :: before, l, z, after, rfl,
        List.forall_mem_cons.mpr ⟨⟨⟨k, rfl, hd, t, hk, hcanon⟩, c, hc⟩, hbefore⟩, hz⟩
    · rintro ⟨before, l, z, after, hpairs, hbefore, hz⟩
      cases before with
      | nil =>
        cases hpairs
        rcases hz with h | ⟨hd, ⟨t, hk, hcanon⟩, h⟩
        · exact .inl h
        · exact .inr ⟨t, PyStr.canonicalText_eq_ok.mpr ⟨hd, hk, hcanon⟩, raises_bind.mpr (.inl h)⟩
      | cons g before =>
        cases hpairs
        obtain ⟨⟨⟨k', hkey, hd, t, hk, hcanon⟩, c, hc⟩, hbefore⟩ := List.forall_mem_cons.mp hbefore
        cases hkey
        exact .inr ⟨t, PyStr.canonicalText_eq_ok.mpr ⟨hd, hk, hcanon⟩, raises_bind.mpr
          (.inr ⟨c, hc, raises_bind.mpr (.inl (ih.mpr ⟨before, l, z, after, rfl, hbefore, hz⟩))⟩)⟩

omit [Platform] in
/-- Where the items of a decoded mapping are split, its pairs are. -/
theorem exists_pairs_of_eq_append {pairs : List (PyStr × PyValue)}
    {before after : List (PyKey × PyValue)} {k : PyStr} {x : PyValue}
    (h : (pairs.map fun f ↦ ((.str f.1 : PyKey), f.2)) = before ++ (.str k, x) :: after) :
    ∃ before' after', pairs = before' ++ (k, x) :: after' ∧
      before = before'.map fun f ↦ (.str f.1, f.2) := by
  obtain ⟨before', rest, rfl, hbefore, hrest⟩ := List.map_eq_append_iff.mp h
  obtain ⟨⟨k', x'⟩, after', rfl, hf, -⟩ := List.map_eq_cons_iff.mp hrest
  cases hf
  exact ⟨before', after', rfl, hbefore.symm⟩

/-- `_canonical_value` raises an exception of another class exactly where it meets a lone
surrogate. -/
theorem raises_canonicalValue {v : PyValue} (hv : v.Decoded) :
    ∀ d, Raises Exn.IsForeign (v.canonicalValue d) ↔ MeetsSurrogate sortItems d v := by
  induction hv with
  | none =>
    intro d
    refine iff_of_false ?_ fun h ↦ nomatch h
    rw [canonicalValue]
    split
    · exact not_raises_reject rfl
    · exact not_raises_ok
  | bool b =>
    intro d
    refine iff_of_false ?_ fun h ↦ nomatch h
    rw [canonicalValue]
    split
    · exact not_raises_reject rfl
    · exact not_raises_ok
  | int n =>
    intro d
    refine iff_of_false ?_ fun h ↦ nomatch h
    rw [canonicalValue]
    split
    · exact not_raises_reject rfl
    split
    · exact not_raises_reject rfl
    · exact not_raises_ok
  | float f =>
    intro d
    refine iff_of_false ?_ fun h ↦ nomatch h
    rw [canonicalValue]
    split
    · exact not_raises_reject rfl
    split
    · exact not_raises_reject rfl
    split
    · exact not_raises_reject rfl
    · exact not_raises_ok
  | str s =>
    intro d
    rw [canonicalValue, raises_map, raises_canonicalText]
    exact ⟨.str, fun h ↦ by cases h; assumption⟩
  | list xs _ ih =>
    intro d
    rw [canonicalValue]
    split
    case isTrue h =>
      exact iff_of_false (not_raises_reject rfl) fun hm ↦ by cases hm; omega
    case isFalse hd =>
    split
    case isTrue h =>
      exact iff_of_false (not_raises_reject rfl) fun hm ↦ by cases hm; omega
    case isFalse hlen =>
    rw [raises_map, raises_canonicalItems]
    constructor
    · rintro ⟨before, x, after, hxs, hbefore, hx⟩
      exact .item (Nat.not_lt.mp hd) (Nat.not_lt.mp hlen) hxs hbefore
        ((ih x (by simp [hxs]) (d + 1)).mp hx)
    · intro hm
      cases hm with
      | item _ _ hxs hbefore h =>
        exact ⟨_, _, _, hxs, hbefore, (ih _ (by simp [hxs]) (d + 1)).mpr h⟩
  | dict pairs _ ih =>
    intro d
    have hany : ((pairs.map fun f ↦ ((.str f.1 : PyKey), f.2)).any fun f ↦ f.1 = .other) =
        false := by
      simp
    rw [canonicalValue, hany]
    split
    case isTrue h =>
      exact iff_of_false (not_raises_reject rfl) fun hm ↦ by cases hm <;> omega
    case isFalse hd =>
    split
    case isTrue h =>
      exact iff_of_false (not_raises_reject rfl) fun hm ↦ by cases hm <;> omega
    case isFalse hlen =>
    rw [if_neg Bool.false_ne_true, raises_map]
    -- The pairs in the order in which they are visited.
    obtain ⟨sorted, hsorted⟩ : ∃ sorted : List (PyStr × PyValue),
        sortItems (pairs.map fun f ↦ ((.str f.1 : PyKey), f.2)) =
          sorted.map fun f ↦ (.str f.1, f.2) := by
      refine ⟨pairs.insertionSort fun f g ↦ f.1.codes ≤ g.1.codes, ?_⟩
      rw [sortItems, List.map_insertionSort _ (fun f g ↦ f.1.codes ≤ g.1.codes)]
      exact fun _ _ _ _ ↦ Iff.rfl
    have hmem : ∀ f ∈ sorted, f ∈ pairs := by
      intro f hf
      have hmap : ((.str f.1 : PyKey), f.2) ∈ sortItems (pairs.map fun f ↦ (.str f.1, f.2)) :=
        hsorted ▸ List.mem_map_of_mem hf
      obtain ⟨g, hg, heq⟩ := List.mem_map.mp (mem_sortItems.mp hmap)
      simp only [Prod.mk.injEq, PyKey.str.injEq] at heq
      exact (Prod.ext heq.1 heq.2 : g = f) ▸ hg
    have hentries : sortItems (canonicalFields (d + 1) (pairs.map fun f ↦ (.str f.1, f.2))) =
        sorted.map fun f ↦ (.str f.1, f.2.canonicalValue (d + 1)) := by
      rw [canonicalFields_eq_map, sortItems_map, hsorted, List.map_map]
      rfl
    rw [hentries, raises_canonicalEntries]
    constructor
    · rintro ⟨before, k, x, after, rfl, hbefore, hx⟩
      have hitems : ∀ f ∈ before.map (fun f ↦ ((.str f.1 : PyKey), f.2)), ItemPasses (d + 1) f := by
        exact List.forall_mem_map.mpr hbefore
      rw [List.map_append, List.map_cons] at hsorted
      rcases hx with hk | ⟨hdk, hk, hx⟩
      · exact .key (Nat.not_lt.mp hd) (Nat.not_lt.mp hlen) hsorted hitems hk
      · exact .value (Nat.not_lt.mp hd) (Nat.not_lt.mp hlen) hsorted hitems hdk hk
          ((ih (k, x) (hmem _ (by simp)) (d + 1)).mp hx)
    · intro hm
      cases hm with
      | key _ _ hitems hbefore h =>
        obtain ⟨before', after', hs, rfl⟩ := exists_pairs_of_eq_append (hsorted.symm.trans hitems)
        exact ⟨before', _, _, after', hs, List.forall_mem_map.mp hbefore, .inl h⟩
      | value _ _ hitems hbefore hdk hk h =>
        obtain ⟨before', after', rfl, rfl⟩ := exists_pairs_of_eq_append (hsorted.symm.trans hitems)
        have hx := hmem _ (List.mem_append_right before' List.mem_cons_self)
        exact ⟨before', _, _, after', rfl, List.forall_mem_map.mp hbefore,
          .inr ⟨hdk, hk, (ih _ hx (d + 1)).mpr h⟩⟩

theorem raises_canonicalBytes {v : PyValue} (hv : v.Decoded) :
    Raises Exn.IsForeign v.canonicalBytes ↔ MeetsSurrogate sortItems 0 v :=
  raises_map.trans (raises_canonicalValue hv 0)

end PyValue

omit [Platform] in
/-- Of the exceptions of the decoder only that of `int` is not translated. -/
theorem raises_mapError_strictError {text : List Char} :
    Raises Exn.IsForeign ((loads strictHooks text).mapError strictError) ↔
      loads strictHooks text = .error .digits := by
  have hyields := yields_loads strictHooks_builds text
  rw [raises_mapError]
  cases hloads : loads strictHooks text with
  | ok v => exact iff_of_false not_raises_ok fun h ↦ nomatch h
  | error e =>
    rw [hloads] at hyields
    rw [raises_error]
    cases e with
    | malformed => exact iff_of_false (fun h ↦ h rfl) fun h ↦ nomatch h
    | digits => exact iff_of_true (fun h ↦ nomatch h) rfl
    | raised e => exact iff_of_false (fun h ↦ h hyields) fun h ↦ nomatch h

/-- What `strict_json_loads` lets escape: the limit of `int` on digits, and a lone surrogate that is
met before anything else is refused. -/
theorem raises_strictJsonLoads {data : List ℕ} {requireCanonical : Bool} :
    Raises Exn.IsForeign (strictJsonLoads data requireCanonical) ↔
      ∃ text, decodeUtf8 data = some text ∧ (loads strictHooks text = .error .digits ∨
        ∃ v, loads strictHooks text = .ok v ∧ v.MeetsSurrogate PyValue.sortItems 0) := by
  have hvalue : ∀ (text : List Char) (v : PyValue), loads strictHooks text = .ok v →
      (Raises Exn.IsForeign (v.canonicalBytes >>= fun encoded ↦
        if requireCanonical ∧ encoded ≠ encodeUtf8 text then
          .error ⟨.canonicalizationError, "JSON input is not in canonical form"⟩
        else return v) ↔ v.MeetsSurrogate PyValue.sortItems 0) := by
    intro text v hv
    have hyields := yields_loads strictHooks_builds text
    rw [hv] at hyields
    rw [raises_bind, PyValue.raises_canonicalBytes hyields, or_iff_left]
    rintro ⟨encoded, -, h⟩
    split at h
    · exact not_raises_reject rfl h
    · exact not_raises_ok h
  rw [strictJsonLoads, raises_bind, strictText]
  cases decodeUtf8 data with
  | none =>
    refine iff_of_false ?_ fun ⟨_, h, _⟩ ↦ nomatch h
    rintro (h | ⟨_, h, _⟩)
    · exact not_raises_reject rfl h
    · cases h
  | some text =>
    constructor
    · rintro (h | ⟨_, htext, h⟩)
      · exact absurd h not_raises_ok
      cases htext
      rcases raises_bind.mp h with h | ⟨v, hv, h⟩
      · exact ⟨text, rfl, .inl (raises_mapError_strictError.mp h)⟩
      · have hv := mapError_eq_ok.mp hv
        exact ⟨text, rfl, .inr ⟨v, hv, (hvalue text v hv).mp h⟩⟩
    · rintro ⟨_, htext, h⟩
      cases htext
      refine .inr ⟨text, rfl, raises_bind.mpr ?_⟩
      rcases h with h | ⟨v, hv, h⟩
      · exact .inl (raises_mapError_strictError.mpr h)
      · exact .inr ⟨v, mapError_eq_ok.mpr hv, (hvalue text v hv).mpr h⟩

end Escapes

end EventHorizon
