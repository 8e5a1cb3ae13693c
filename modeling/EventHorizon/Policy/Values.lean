import EventHorizon.Canonical.Digest
import EventHorizon.Canonical.Limits
import EventHorizon.Library.Reduction
import EventHorizon.Library.Table

/-!
# Bounded values

The checks of `task_policy.py` on the fields of its records, and when they pass. A check returns the
value it accepts, in normal form: arrays of strings are sorted and free of duplicates.
-/

namespace EventHorizon.Policy

def invalid (message : String) : Exn := ⟨.validationError, message⟩

def maxCollection : ℕ := 256

section Values

variable [Platform]

/-! ## Checks -/

/-- `_text`. -/
def text (value label : String) (maximum : ℕ) : Except Exn String := do
  raiseIf (value = "" ∨ maximum < value.utf8ByteSize)
    (invalid (label ++ " must be a non-empty string <= " ++ toString maximum ++ " UTF-8 bytes"))
  let _ ← canonicalBytes (.str value)
  return value

/-- `_strings`. -/
def strings (values : List String) (label : String) : Except Exn (List String) := do
  raiseIf (maxCollection < values.length) (invalid (label ++ " must be a bounded array"))
  let normalized ← values.mapM fun value ↦ text value (label ++ " item") 256
  raiseIf (¬normalized.Nodup) (invalid (label ++ " contains duplicates"))
  return normalized.insertionSort (· ≤ ·)

omit [Platform] in
/-- `_nonnegative`. -/
def nonnegative (value : ℤ) (label : String) (maximum : ℕ) : Except Exn ℤ := do
  raiseIf (¬(0 ≤ value ∧ value ≤ maximum))
    (invalid (label ++ " must be a non-negative bounded integer"))
  return value

omit [Platform] in
/-- `_positive`. -/
def positive (value : ℤ) (label : String) : Except Exn ℤ := do
  raiseIf (¬(0 < value ∧ value ≤ maxSafeInteger))
    (invalid (label ++ " must be a positive bounded integer"))
  return value

/-- `_digest`. -/
def digestText (value label : String) : Except Exn String := do
  let normalized ← text value label 64
  raiseIf (isDigest normalized = false) (invalid (label ++ " must be a lowercase SHA-256 digest"))
  return normalized

/-- `_mapping_of_string_arrays`. -/
def mappingOfStringArrays (value : Table String (List String)) (label : String) :
    Except Exn (Table String (List String)) := do
  raiseIf (maxCollection < value.length) (invalid (label ++ " must be a bounded object"))
  let normalized ← value.mapM fun row ↦ do
    let items ← strings row.2 (label ++ "." ++ row.1)
    let key ← text row.1 (label ++ " key") 256
    return (key, items)
  return Json.sortFields normalized

/-! ## When they pass -/

/-- A string that `_text` accepts. -/
def IsText (maximum : ℕ) (s : String) : Prop :=
  s ≠ "" ∧ s.utf8ByteSize ≤ maximum ∧ IsCanonicalString s

/-- An array of strings in the normal form of `_strings`. -/
def IsStrings (xs : List String) : Prop :=
  xs.length ≤ maxCollection ∧ (∀ x ∈ xs, IsText 256 x) ∧ xs.Pairwise (· < ·)

/-- A mapping in the normal form of `_mapping_of_string_arrays`. -/
def IsMapping (m : Table String (List String)) : Prop :=
  m.length ≤ maxCollection ∧ (∀ r ∈ m, IsText 256 r.1 ∧ IsStrings r.2) ∧
    (m.map Prod.fst).Pairwise (· < ·)

instance (maximum : ℕ) (s : String) : Decidable (IsText maximum s) :=
  inferInstanceAs (Decidable (_ ∧ _ ∧ _))

instance (xs : List String) : Decidable (IsStrings xs) := inferInstanceAs (Decidable (_ ∧ _ ∧ _))

instance (m : Table String (List String)) : Decidable (IsMapping m) :=
  inferInstanceAs (Decidable (_ ∧ _ ∧ _))

variable {s label : String} {maximum : ℕ} {xs ys : List String} {m : Table String (List String)}

theorem text_eq_ok {r : String} : text s label maximum = .ok r ↔ IsText maximum s ∧ r = s := by
  rw [text, raiseIf_bind_eq_ok, bind_eq_ok, not_or, Nat.not_lt]
  constructor
  · rintro ⟨⟨hne, hle⟩, b, hb, h⟩
    obtain ⟨v, hv, -⟩ := map_eq_ok.mp hb
    exact ⟨⟨hne, hle, (canonicalizes_str.mp ⟨v, hv⟩).2⟩, (Except.ok.inj h).symm⟩
  · rintro ⟨⟨hne, hle, hs⟩, rfl⟩
    obtain ⟨v, hv⟩ := canonicalizes_str.mpr ⟨Nat.zero_le _, hs⟩
    exact ⟨⟨hne, hle⟩, spell v, map_eq_ok.mpr ⟨v, hv, rfl⟩, rfl⟩

theorem text_bind_eq_ok {β : Type} {f : String → Except Exn β} {b : β} :
    (text s label maximum >>= f) = .ok b ↔ IsText maximum s ∧ f s = .ok b := by
  simp only [bind_eq_ok, text_eq_ok, and_assoc, exists_and_left, exists_eq_left]

theorem strings_eq_ok : strings xs label = .ok ys ↔ xs.length ≤ maxCollection ∧
    (∀ x ∈ xs, IsText 256 x) ∧ xs.Nodup ∧ ys = xs.insertionSort (· ≤ ·) := by
  rw [strings, raiseIf_bind_eq_ok, bind_eq_ok, Nat.not_lt]
  refine and_congr_right fun _ ↦ ?_
  constructor
  · rintro ⟨zs, hzs, h⟩
    obtain ⟨hall, rfl⟩ := (mapM_id_eq_ok fun x y ↦ text_eq_ok).mp hzs
    obtain ⟨hnodup, h⟩ := raiseIf_bind_eq_ok.mp h
    exact ⟨hall, not_not.mp hnodup, (Except.ok.inj h).symm⟩
  · rintro ⟨hall, hnodup, rfl⟩
    refine ⟨xs, (mapM_id_eq_ok fun x y ↦ text_eq_ok).mpr ⟨hall, rfl⟩, ?_⟩
    exact raiseIf_bind_eq_ok.mpr ⟨not_not.mpr hnodup, rfl⟩

/-- An array in normal form is accepted as it is, and no other is. -/
theorem strings_eq_ok_self : strings xs label = .ok xs ↔ IsStrings xs := by
  rw [strings_eq_ok, IsStrings]
  refine and_congr_right fun _ ↦ and_congr_right fun _ ↦ ?_
  constructor
  · rintro ⟨hnodup, hsort⟩
    have hle : xs.Pairwise (· ≤ ·) := hsort ▸ List.pairwise_insertionSort _ xs
    exact (hle.and hnodup).imp fun h ↦ lt_of_le_of_ne h.1 h.2
  · intro h
    exact ⟨h.imp fun hlt ↦ ne_of_lt hlt, (insertionSort_of_pairwise h).symm⟩

theorem isStrings_of_eq_ok (h : strings xs label = .ok ys) : IsStrings ys := by
  obtain ⟨hlen, hall, hnodup, rfl⟩ := strings_eq_ok.mp h
  have hperm := List.perm_insertionSort (· ≤ ·) xs
  refine ⟨hperm.length_eq ▸ hlen, fun x hx ↦ hall x (hperm.subset hx), ?_⟩
  exact ((List.pairwise_insertionSort _ xs).and (hperm.nodup_iff.mpr hnodup)).imp
    fun h ↦ lt_of_le_of_ne h.1 h.2

theorem strings_bind_eq_ok_of_pairwise {β : Type} {f : List String → Except Exn β} {b : β}
    (h : xs.Pairwise (· < ·)) :
    (strings xs label >>= f) = .ok b ↔ IsStrings xs ∧ f xs = .ok b := by
  rw [bind_eq_ok]
  constructor
  · rintro ⟨ys, hys, hf⟩
    have hsort := (strings_eq_ok.mp hys).2.2.2
    rw [insertionSort_of_pairwise h] at hsort
    subst hsort
    exact ⟨strings_eq_ok_self.mp hys, hf⟩
  · rintro ⟨hxs, hf⟩
    exact ⟨xs, strings_eq_ok_self.mpr hxs, hf⟩

theorem IsStrings.sublist (h : IsStrings xs) (hs : ys.Sublist xs) : IsStrings ys :=
  ⟨Nat.le_trans hs.length_le h.1, fun y hy ↦ h.2.1 y (hs.subset hy), h.2.2.sublist hs⟩

omit [Platform] in
theorem nonnegative_eq_ok {n r : ℤ} : nonnegative n label maximum = .ok r ↔
    (0 ≤ n ∧ n ≤ maximum) ∧ r = n := by
  rw [nonnegative, raiseIf_bind_eq_ok, not_not]
  exact and_congr_right fun _ ↦ ⟨fun h ↦ (Except.ok.inj h).symm, fun h ↦ h ▸ rfl⟩

omit [Platform] in
theorem positive_eq_ok {n r : ℤ} : positive n label = .ok r ↔
    (0 < n ∧ n ≤ maxSafeInteger) ∧ r = n := by
  rw [positive, raiseIf_bind_eq_ok, not_not]
  exact and_congr_right fun _ ↦ ⟨fun h ↦ (Except.ok.inj h).symm, fun h ↦ h ▸ rfl⟩

omit [Platform] in
theorem nonnegative_bind_eq_ok {β : Type} {n : ℤ} {f : ℤ → Except Exn β} {b : β} :
    (nonnegative n label maximum >>= f) = .ok b ↔ (0 ≤ n ∧ n ≤ maximum) ∧ f n = .ok b := by
  simp only [bind_eq_ok, nonnegative_eq_ok, and_assoc, exists_and_left, exists_eq_left]

omit [Platform] in
theorem positive_bind_eq_ok {β : Type} {n : ℤ} {f : ℤ → Except Exn β} {b : β} :
    (positive n label >>= f) = .ok b ↔ (0 < n ∧ n ≤ maxSafeInteger) ∧ f n = .ok b := by
  simp only [bind_eq_ok, positive_eq_ok, and_assoc, exists_and_left, exists_eq_left]

theorem digestText_eq_ok {r : String} : digestText s label = .ok r ↔
    (IsText 64 s ∧ isDigest s = true) ∧ r = s := by
  rw [digestText, bind_eq_ok]
  constructor
  · rintro ⟨t, ht, h⟩
    obtain ⟨htext, rfl⟩ := text_eq_ok.mp ht
    obtain ⟨hd, h⟩ := raiseIf_bind_eq_ok.mp h
    exact ⟨⟨htext, by simpa using hd⟩, (Except.ok.inj h).symm⟩
  · rintro ⟨⟨htext, hd⟩, rfl⟩
    refine ⟨r, text_eq_ok.mpr ⟨htext, rfl⟩, raiseIf_bind_eq_ok.mpr ⟨?_, rfl⟩⟩
    rw [hd]
    exact Bool.noConfusion

/-- A digest is text. -/
theorem isText_of_isDigest (h : isDigest s = true) : IsText 64 s := by
  have hascii := isAscii_of_isDigest h
  rw [isDigest, Bool.and_eq_true, beq_iff_eq] at h
  refine ⟨?_, ?_, isCanonicalString_of_isAscii hascii (h.1 ▸ by decide)⟩
  · rintro rfl
    cases h.1
  · rw [utf8ByteSize_of_isAscii hascii, h.1]

theorem digestText_bind_eq_ok {β : Type} {f : String → Except Exn β} {b : β} :
    (digestText s label >>= f) = .ok b ↔ isDigest s = true ∧ f s = .ok b := by
  simp only [bind_eq_ok, digestText_eq_ok, and_assoc, exists_and_left, exists_eq_left]
  exact ⟨fun h ↦ h.2, fun h ↦ ⟨isText_of_isDigest h.1, h⟩⟩

/-- A mapping in normal form is accepted as it is. -/
theorem IsMapping.eq_ok (h : IsMapping m) (label : String) :
    mappingOfStringArrays m label = .ok m := by
  obtain ⟨hlen, hrows, hkeys⟩ := h
  rw [mappingOfStringArrays, raiseIf_bind_eq_ok, bind_eq_ok]
  refine ⟨Nat.not_lt.mpr hlen, m, ?_, ?_⟩
  · refine mapM_eq_ok.mpr (List.forall₂_same.mpr fun r hr ↦ bind_eq_ok.mpr ⟨r.2, ?_, ?_⟩)
    · exact strings_eq_ok_self.mpr (hrows r hr).2
    · exact bind_eq_ok.mpr ⟨r.1, text_eq_ok.mpr ⟨(hrows r hr).1, rfl⟩, rfl⟩
  · have hsorted : Json.Sorted m :=
      (List.pairwise_map.mp hkeys).imp fun hlt ↦ le_of_lt hlt
    rw [Json.sortFields_of_sorted hsorted]
    rfl

theorem IsMapping.bind_eq {β : Type} {f : Table String (List String) → Except Exn β}
    (h : IsMapping m) : (mappingOfStringArrays m label >>= f) = f m := by
  rw [h.eq_ok]
  rfl

/-- A mapping with distinct keys that is accepted as it is is in normal form. -/
theorem isMapping_of_eq_ok (hm : (m.map Prod.fst).Nodup)
    (h : mappingOfStringArrays m label = .ok m) : IsMapping m := by
  rw [mappingOfStringArrays, raiseIf_bind_eq_ok, bind_eq_ok, Nat.not_lt] at h
  obtain ⟨hlen, rows, hrows, h⟩ := h
  have hsort : Json.sortFields rows = m := Except.ok.inj h
  have hrow : ∀ r ∈ rows, IsText 256 r.1 ∧ IsStrings r.2 := by
    intro r hr
    obtain ⟨r₀, -, hr₀⟩ := exists_of_mem_mapM hrows hr
    obtain ⟨items, hitems, hr₀⟩ := bind_eq_ok.mp hr₀
    obtain ⟨key, hkey, hr₀⟩ := bind_eq_ok.mp hr₀
    cases hr₀
    obtain ⟨htext, rfl⟩ := text_eq_ok.mp hkey
    exact ⟨htext, isStrings_of_eq_ok hitems⟩
  refine ⟨hlen, fun r hr ↦ hrow r ?_, ?_⟩
  · rw [← hsort] at hr
    exact (Json.sortFields_perm rows).subset hr
  · have hle : (m.map Prod.fst).Pairwise (· ≤ ·) := by
      rw [List.pairwise_map, ← hsort]
      exact Json.sorted_sortFields rows
    exact (hle.and hm).imp fun h ↦ lt_of_le_of_ne h.1 h.2

end Values

end EventHorizon.Policy
