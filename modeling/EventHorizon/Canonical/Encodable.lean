import EventHorizon.Canonical.Limits
import EventHorizon.Canonical.Objects

/-!
# Values that can be encoded

Which Python values have a canonical form: a collection has one when it is within the limits and
each of its parts has one a level deeper.
-/

namespace EventHorizon

variable [Platform] {d : ℕ}

/-- A string within the canonical limits. -/
def PyStr.IsCanonical (s : PyStr) : Prop := ∃ t, s = .ofString t ∧ IsCanonicalString t

@[simp] theorem PyStr.isCanonical_ofString {t : String} :
    (PyStr.ofString t).IsCanonical ↔ IsCanonicalString t := by
  refine ⟨?_, fun h ↦ ⟨t, rfl, h⟩⟩
  rintro ⟨u, hu, h⟩
  rwa [PyStr.ofString_injective hu]

theorem PyStr.canonicalText_eq_ok {s : PyStr} {t : String} : s.canonicalText d = .ok t ↔
    d ≤ maxCanonicalDepth ∧ s = .ofString t ∧ IsCanonicalString t := by
  constructor
  · intro h
    obtain rfl := PyValue.canonicalText_eq_ok h
    rw [PyValue.canonicalText_ofString] at h
    obtain ⟨hd, hs, -⟩ := canonicalString_eq_ok_iff.mp h
    exact ⟨hd, rfl, hs⟩
  · rintro ⟨hd, rfl, hs⟩
    rw [PyValue.canonicalText_ofString]
    exact canonicalString_eq_ok_iff.mpr ⟨hd, hs, rfl⟩

namespace PyValue

/-- The value has a canonical form at the depth. -/
def Canonicalizes (d : ℕ) (v : PyValue) : Prop := ∃ c, v.canonicalValue d = .ok c

theorem canonicalBytes_eq_ok {v : PyValue} :
    (∃ b, v.canonicalBytes = .ok b) ↔ v.Canonicalizes 0 := by
  rw [Canonicalizes, canonicalBytes]
  constructor
  · rintro ⟨b, h⟩
    obtain ⟨c, hc, -⟩ := map_eq_ok.mp h
    exact ⟨c, hc⟩
  · rintro ⟨c, hc⟩
    exact ⟨_, map_eq_ok.mpr ⟨c, hc, rfl⟩⟩

theorem digest_eq_ok {v : PyValue} : (∃ x, v.digest = .ok x) ↔ v.Canonicalizes 0 := by
  rw [← canonicalBytes_eq_ok, digest]
  constructor
  · rintro ⟨x, h⟩
    obtain ⟨b, hb, -⟩ := map_eq_ok.mp h
    exact ⟨b, hb⟩
  · rintro ⟨b, hb⟩
    exact ⟨_, map_eq_ok.mpr ⟨b, hb, rfl⟩⟩

theorem canonicalizes_ofJson {v : Json} :
    (ofJson v).Canonicalizes d ↔ EventHorizon.Canonicalizes d v := by
  rw [Canonicalizes, EventHorizon.Canonicalizes, canonicalValue_ofJson]

@[simp] theorem canonicalizes_none : PyValue.none.Canonicalizes d ↔ d ≤ maxCanonicalDepth :=
  canonicalizes_ofJson.trans canonicalizes_null

@[simp] theorem canonicalizes_bool {b : Bool} :
    (PyValue.bool b).Canonicalizes d ↔ d ≤ maxCanonicalDepth :=
  canonicalizes_ofJson.trans EventHorizon.canonicalizes_bool

@[simp] theorem canonicalizes_int {n : ℤ} : (PyValue.int n).Canonicalizes d ↔
    d ≤ maxCanonicalDepth ∧ n.natAbs ≤ maxSafeInteger :=
  canonicalizes_ofJson.trans EventHorizon.canonicalizes_int

@[simp] theorem canonicalizes_str {s : PyStr} :
    (PyValue.str s).Canonicalizes d ↔ d ≤ maxCanonicalDepth ∧ s.IsCanonical := by
  constructor
  · rintro ⟨c, hc⟩
    obtain ⟨t, ht, -⟩ := map_eq_ok.mp hc
    obtain ⟨hd, hs, ht⟩ := PyStr.canonicalText_eq_ok.mp ht
    exact ⟨hd, t, hs, ht⟩
  · rintro ⟨hd, t, hs, ht⟩
    exact ⟨.str t, map_eq_ok.mpr ⟨t, PyStr.canonicalText_eq_ok.mpr ⟨hd, hs, ht⟩, rfl⟩⟩

theorem exists_canonicalItems {xs : List PyValue} :
    (∃ ys, canonicalItems d xs = .ok ys) ↔ ∀ x ∈ xs, x.Canonicalizes d := by
  induction xs with
  | nil => simp [canonicalItems]
  | cons x xs ih =>
    rw [canonicalItems, List.forall_mem_cons, ← ih]
    constructor
    · rintro ⟨ys, h⟩
      obtain ⟨y, hy, h⟩ := bind_eq_ok.mp h
      obtain ⟨ys', hys, -⟩ := bind_eq_ok.mp h
      exact ⟨⟨y, hy⟩, ys', hys⟩
    · rintro ⟨⟨y, hy⟩, ys, hys⟩
      exact ⟨y :: ys, bind_eq_ok.mpr ⟨y, hy, bind_eq_ok.mpr ⟨ys, hys, rfl⟩⟩⟩

theorem canonicalizes_list {xs : List PyValue} : (PyValue.list xs).Canonicalizes d ↔
    d ≤ maxCanonicalDepth ∧ xs.length ≤ maxCanonicalItems ∧ ∀ x ∈ xs, x.Canonicalizes (d + 1) := by
  rw [Canonicalizes, canonicalValue, ← exists_canonicalItems, ← Nat.not_lt, ← Nat.not_lt]
  split
  case isTrue h => simp [h]
  case isFalse h =>
  split
  case isTrue h' => simp [h']
  case isFalse h' =>
    constructor
    · rintro ⟨v, hv⟩
      obtain ⟨ys, hys, -⟩ := map_eq_ok.mp hv
      exact ⟨h, h', ys, hys⟩
    · rintro ⟨-, -, ys, hys⟩
      exact ⟨.arr ys, map_eq_ok.mpr ⟨ys, hys, rfl⟩⟩

theorem exists_canonicalEntries {es : List (PyKey × Except Exn Json)} :
    (∃ fields, canonicalEntries d es = .ok fields) ↔
      ∀ e ∈ es, d ≤ maxCanonicalDepth ∧ (∃ k, e.1 = .str k ∧ k.IsCanonical) ∧
        ∃ v, e.2 = .ok v := by
  induction es with
  | nil => simp [canonicalEntries]
  | cons e es ih =>
    obtain ⟨k, v⟩ := e
    rw [List.forall_mem_cons, ← ih]
    constructor
    · rintro ⟨fields, h⟩
      cases k with
      | other => cases h
      | str k =>
        obtain ⟨k', hk, h⟩ := bind_eq_ok.mp h
        obtain ⟨v', hv, h⟩ := bind_eq_ok.mp h
        obtain ⟨rest, hrest, -⟩ := bind_eq_ok.mp h
        obtain ⟨hd, hk, hk'⟩ := PyStr.canonicalText_eq_ok.mp hk
        exact ⟨⟨hd, ⟨k, rfl, k', hk, hk'⟩, v', hv⟩, rest, hrest⟩
    · rintro ⟨⟨hd, ⟨k, rfl, k', hk, hk'⟩, v', rfl⟩, rest, hrest⟩
      have hkey := PyStr.canonicalText_eq_ok.mpr ⟨hd, hk, hk'⟩
      exact ⟨_, bind_eq_ok.mpr ⟨k', hkey, bind_eq_ok.mpr ⟨v', rfl,
        bind_eq_ok.mpr ⟨rest, hrest, rfl⟩⟩⟩⟩

theorem canonicalizes_dict {items : List (PyKey × PyValue)} :
    (PyValue.dict items).Canonicalizes d ↔
      d ≤ maxCanonicalDepth ∧ items.length ≤ maxCanonicalItems ∧
        ∀ f ∈ items, d + 1 ≤ maxCanonicalDepth ∧ (∃ k, f.1 = .str k ∧ k.IsCanonical) ∧
          f.2.Canonicalizes (d + 1) := by
  have hentries : (∃ fields, canonicalEntries (d + 1) (sortItems (canonicalFields (d + 1) items)) =
      .ok fields) ↔ ∀ f ∈ items, d + 1 ≤ maxCanonicalDepth ∧ (∃ k, f.1 = .str k ∧ k.IsCanonical) ∧
        f.2.Canonicalizes (d + 1) := by
    rw [exists_canonicalEntries, canonicalFields_eq_map]
    simp only [mem_sortItems, List.forall_mem_map]
    rfl
  rw [Canonicalizes, canonicalValue, ← hentries, ← Nat.not_lt, ← Nat.not_lt]
  split
  case isTrue h => simp [h]
  case isFalse h =>
  split
  case isTrue h' => simp [h']
  case isFalse h' =>
  split
  case isTrue hother =>
    -- a key that is no string is refused before the entries are looked at
    obtain ⟨f, hf, hkey⟩ := List.any_eq_true.mp hother
    rw [hentries]
    refine iff_of_false (fun ⟨c, hc⟩ ↦ nomatch hc) fun hall ↦ ?_
    obtain ⟨-, ⟨k, hk, -⟩, -⟩ := hall.2.2 f hf
    rw [hk] at hkey
    exact absurd (of_decide_eq_true hkey) (fun h ↦ nomatch h)
  case isFalse hother =>
    constructor
    · rintro ⟨v, hv⟩
      obtain ⟨fields, hfields, -⟩ := map_eq_ok.mp hv
      exact ⟨h, h', fields, hfields⟩
    · rintro ⟨-, -, fields, hfields⟩
      exact ⟨.obj fields, map_eq_ok.mpr ⟨fields, hfields, rfl⟩⟩

/-- A dictionary with keys within the limits can be encoded when its values can be, a level
deeper. -/
theorem canonicalizes_ofNamed {items : List (String × PyValue)}
    (hkeys : ∀ f ∈ items, IsCanonicalString f.1) :
    (ofNamed items).Canonicalizes d ↔
      d ≤ maxCanonicalDepth ∧ items.length ≤ maxCanonicalItems ∧
        ∀ f ∈ items, d + 1 ≤ maxCanonicalDepth ∧ f.2.Canonicalizes (d + 1) := by
  rw [ofNamed, canonicalizes_dict, List.length_map, List.forall_mem_map]
  refine and_congr_right fun _ ↦ and_congr_right fun _ ↦ forall₂_congr fun f hf ↦ ?_
  refine and_congr_right fun _ ↦ ⟨fun h ↦ h.2, fun h ↦ ⟨⟨_, rfl, ?_⟩, h⟩⟩
  exact PyStr.isCanonical_ofString.mpr (hkeys f hf)

end PyValue

end EventHorizon
