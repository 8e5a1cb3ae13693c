import EventHorizon.Canonical.Json
import EventHorizon.Library.Except

/-!
# Laws of the canonical form

The canonical form of an object has the same keys, in sorted order, with the canonical forms of the
values under them; and a canonical form is its own canonical form.
-/

namespace EventHorizon

namespace Json

/-! ## Sorting fields -/

section Sorting

variable {β : Type*} {f : String × β} {fields : List (String × β)}

theorem orderedInsert_eq (f : String × β) (fields : List (String × β)) :
    orderedInsert f fields = List.orderedInsert (fun f g ↦ f.1 ≤ g.1) f fields := by
  induction fields with
  | nil => rfl
  | cons g gs ih => rw [orderedInsert, List.orderedInsert_cons, ih]

theorem sortFields_eq (fields : List (String × β)) :
    sortFields fields = List.insertionSort (fun f g ↦ f.1 ≤ g.1) fields := by
  induction fields with
  | nil => rfl
  | cons f fs ih =>
    have hstep : sortFields (f :: fs) = orderedInsert f (sortFields fs) := rfl
    rw [hstep, orderedInsert_eq, ih, List.insertionSort_cons]

theorem sortFields_perm (fields : List (String × β)) : (sortFields fields).Perm fields := by
  rw [sortFields_eq]
  exact List.perm_insertionSort _ fields

/-- The fields are in the order of their keys. -/
def Sorted (fields : List (String × β)) : Prop := fields.Pairwise fun f g ↦ f.1 ≤ g.1

instance : Std.Total (α := String × β) (fun f g ↦ f.1 ≤ g.1) := ⟨fun f g ↦ le_total f.1 g.1⟩

instance : IsTrans (String × β) (fun f g ↦ f.1 ≤ g.1) := ⟨fun _ _ _ h h' ↦ le_trans h h'⟩

theorem sorted_sortFields (fields : List (String × β)) : Sorted (sortFields fields) := by
  rw [sortFields_eq]
  exact List.pairwise_insertionSort _ fields

theorem sortFields_of_sorted (h : Sorted fields) : sortFields fields = fields := by
  rw [sortFields_eq]
  exact h.insertionSort_eq

theorem Sorted.of_keys {γ : Type*} {gields : List (String × γ)}
    (h : gields.map Prod.fst = fields.map Prod.fst) (hs : Sorted fields) : Sorted gields := by
  have hkeys : (fields.map Prod.fst).Pairwise (· ≤ ·) := List.pairwise_map.mpr hs
  rw [← h] at hkeys
  exact List.pairwise_map.mp hkeys

/-- Sorting is stable, so the first binding of a key stays the first. -/
theorem lookup_sortFields (fields : List (String × β)) (k : String) :
    (sortFields fields).lookup k = fields.lookup k := by
  induction fields with
  | nil => rfl
  | cons f fs ih =>
    have hstep : sortFields (f :: fs) = orderedInsert f (sortFields fs) := rfl
    have hins : ∀ gs : List (String × β),
        (orderedInsert f gs).lookup k = (f :: gs).lookup k := by
      intro gs
      induction gs with
      | nil => rfl
      | cons g gs ihg =>
        rw [orderedInsert]
        split
        · rfl
        case isFalse hlt =>
          rw [List.lookup_cons, ihg, List.lookup_cons, List.lookup_cons, List.lookup_cons]
          by_cases hg : (k == g.1) = true
          · have hf : (k == f.1) = false := by
              rw [beq_eq_false_iff_ne]
              rintro rfl
              exact hlt (le_of_eq (beq_iff_eq.mp hg))
            rw [hg, hf]
          · rw [Bool.not_eq_true] at hg
            rw [hg]
    rw [hstep, hins, List.lookup_cons, List.lookup_cons, ih]

end Sorting

end Json

theorem lookup_map_snd {β γ : Type*} (g : β → γ) (fields : List (String × β)) (k : String) :
    (fields.map fun f ↦ (f.1, g f.2)).lookup k = (fields.lookup k).map g := by
  induction fields with
  | nil => rfl
  | cons f fields ih =>
    rw [List.map_cons, List.lookup_cons, List.lookup_cons, ih]
    cases k == f.1 <;> rfl

/-! ## Canonical objects -/

section Laws

variable [Platform]

theorem canonicalString_eq_ok {d : ℕ} {s s' : String} (h : canonicalString d s = .ok s') :
    s' = s := by
  rw [canonicalString] at h
  split at h
  · cases h
  split at h
  · cases h
  split at h
  · cases h
  exact (Except.ok.inj h).symm

/-- The entries of a canonical object: the keys as they were, with the canonical values. -/
theorem canonicalEntries_eq_ok {d : ℕ} {es : List (String × Except Exn Json)}
    {fields : List (String × Json)} :
    canonicalEntries d es = .ok fields ↔ es = fields.map (fun f ↦ (f.1, .ok f.2)) ∧
      ∀ f ∈ fields, canonicalString d f.1 = .ok f.1 := by
  induction es generalizing fields with
  | nil =>
    rw [canonicalEntries]
    constructor
    · intro h
      cases h
      exact ⟨rfl, fun f hf ↦ (nomatch hf)⟩
    · rintro ⟨h, -⟩
      rw [List.nil_eq, List.map_eq_nil_iff] at h
      rw [h]
  | cons e es ih =>
    rw [canonicalEntries]
    constructor
    · intro h
      obtain ⟨k, hk, h⟩ := bind_eq_ok.mp h
      obtain ⟨v, hv, h⟩ := bind_eq_ok.mp h
      obtain ⟨rest, hrest, h⟩ := bind_eq_ok.mp h
      cases h
      obtain ⟨rfl, hkeys⟩ := ih.mp hrest
      have hk' := canonicalString_eq_ok hk
      subst hk'
      refine ⟨?_, ?_⟩
      · rw [List.map_cons, ← hv]
      · intro f hf
        rcases List.mem_cons.mp hf with rfl | hf
        · exact hk
        · exact hkeys f hf
    · rintro ⟨h, hkeys⟩
      cases fields with
      | nil => cases h
      | cons f fields =>
        rw [List.map_cons, List.cons.injEq] at h
        obtain ⟨rfl, rfl⟩ := h
        refine bind_eq_ok.mpr ⟨f.1, hkeys f List.mem_cons_self, ?_⟩
        refine bind_eq_ok.mpr ⟨f.2, rfl, ?_⟩
        refine bind_eq_ok.mpr ⟨fields, ?_, rfl⟩
        exact ih.mpr ⟨rfl, fun g hg ↦ hkeys g (List.mem_cons_of_mem _ hg)⟩

theorem canonicalFields_eq_map (d : ℕ) (fields : List (String × Json)) :
    canonicalFields d fields = fields.map fun f ↦ (f.1, canonicalValue d f.2) := by
  induction fields with
  | nil => rw [canonicalFields, List.map_nil]
  | cons f fields ih => rw [canonicalFields, ih, List.map_cons]

/-- When an object has a canonical form, and what it is. -/
theorem canonicalValue_obj_eq_ok {d : ℕ} {fields : List (String × Json)} {v : Json} :
    canonicalValue d (.obj fields) = .ok v ↔ d ≤ maxCanonicalDepth ∧
      fields.length ≤ maxCanonicalItems ∧ ∃ fields', v = .obj fields' ∧
      Json.sortFields (fields.map fun f ↦ (f.1, canonicalValue (d + 1) f.2)) =
        fields'.map (fun f ↦ (f.1, .ok f.2)) ∧
      ∀ f ∈ fields', canonicalString (d + 1) f.1 = .ok f.1 := by
  rw [canonicalValue]
  constructor
  · intro h
    split at h
    · cases h
    case isFalse hd =>
    split at h
    · cases h
    case isFalse hlen =>
    obtain ⟨fields', hf, rfl⟩ := map_eq_ok.mp h
    rw [canonicalFields_eq_map, canonicalEntries_eq_ok] at hf
    exact ⟨Nat.not_lt.mp hd, Nat.not_lt.mp hlen, fields', rfl, hf.1, hf.2⟩
  · rintro ⟨hd, hlen, fields', rfl, hsort, hkeys⟩
    rw [if_neg (Nat.not_lt.mpr hd), if_neg (Nat.not_lt.mpr hlen)]
    refine map_eq_ok.mpr ⟨fields', ?_, rfl⟩
    rw [canonicalFields_eq_map, canonicalEntries_eq_ok]
    exact ⟨hsort, hkeys⟩

/-- The value under a key of a canonical object is the canonical form of the value that was
there. -/
theorem lookup_canonical {d : ℕ} {fields fields' : List (String × Json)}
    (h : canonicalValue d (.obj fields) = .ok (.obj fields')) (k : String) :
    (Json.lookup fields k).map (canonicalValue (d + 1)) = (Json.lookup fields' k).map .ok := by
  obtain ⟨-, -, fields'', hobj, hsort, -⟩ := canonicalValue_obj_eq_ok.mp h
  cases hobj
  rw [Json.lookup, Json.lookup, ← lookup_map_snd, ← lookup_map_snd, ← hsort, Json.lookup_sortFields]

/-- The canonical form has the keys of the object. -/
theorem mem_keys_canonical {d : ℕ} {fields fields' : List (String × Json)}
    (h : canonicalValue d (.obj fields) = .ok (.obj fields')) (k : String) :
    k ∈ fields'.map Prod.fst ↔ k ∈ fields.map Prod.fst := by
  obtain ⟨-, -, fields'', hobj, hsort, -⟩ := canonicalValue_obj_eq_ok.mp h
  cases hobj
  have hperm := (Json.sortFields_perm
    (fields.map fun f ↦ (f.1, canonicalValue (d + 1) f.2))).map Prod.fst
  rw [hsort, List.map_map, List.map_map] at hperm
  exact hperm.mem_iff

/-- What stands under a key of the canonical form. -/
theorem lookup_canonical_eq_some {d : ℕ} {fields fields' : List (String × Json)} {k : String}
    {x : Json} (h : canonicalValue d (.obj fields) = .ok (.obj fields'))
    (hk : Json.lookup fields k = some x) :
    ∃ x', Json.lookup fields' k = some x' ∧ canonicalValue (d + 1) x = .ok x' := by
  have hlookup := lookup_canonical h k
  rw [hk, Option.map_some] at hlookup
  obtain ⟨x', hx', hok⟩ := Option.map_eq_some_iff.mp hlookup.symm
  exact ⟨x', hx', hok.symm⟩

/-! ### Values in canonical form -/

theorem eq_of_canonicalValue_int {d : ℕ} {n : ℤ} {v : Json}
    (h : canonicalValue d (.int n) = .ok v) :
    v = .int n := by
  rw [canonicalValue] at h
  split at h
  · cases h
  split at h
  · cases h
  · exact (Except.ok.inj h).symm

theorem eq_of_canonicalValue_str {d : ℕ} {s : String} {v : Json}
    (h : canonicalValue d (.str s) = .ok v) : v = .str s := by
  rw [canonicalValue] at h
  obtain ⟨s', hs, rfl⟩ := map_eq_ok.mp h
  rw [canonicalString_eq_ok hs]

/-- An array of items that are in canonical form. -/
theorem eq_of_canonicalValue_arr {d : ℕ} {xs : List Json} {v : Json}
    (hxs : ∀ x ∈ xs, ∀ x', canonicalValue (d + 1) x = .ok x' → x' = x)
    (h : canonicalValue d (.arr xs) = .ok v) : v = .arr xs := by
  have hitems :
      ∀ {xs ys : List Json}, (∀ x ∈ xs, ∀ x', canonicalValue (d + 1) x = .ok x' → x' = x) →
      canonicalItems (d + 1) xs = .ok ys → ys = xs := by
    intro xs
    induction xs with
    | nil =>
      intro ys _ h
      rw [canonicalItems] at h
      exact (Except.ok.inj h).symm
    | cons x xs ih =>
      intro ys hxs h
      rw [canonicalItems] at h
      obtain ⟨y, hy, h⟩ := bind_eq_ok.mp h
      obtain ⟨ys', hys, h⟩ := bind_eq_ok.mp h
      obtain ⟨hx, hxs⟩ := List.forall_mem_cons.mp hxs
      rw [← Except.ok.inj h, hx y hy, ih hxs hys]
  rw [canonicalValue] at h
  split at h
  · cases h
  split at h
  · cases h
  obtain ⟨ys, hys, rfl⟩ := map_eq_ok.mp h
  rw [hitems hxs hys]

/-- An object whose keys are sorted and whose values are in canonical form. -/
theorem eq_of_canonicalValue_obj {d : ℕ} {fields : List (String × Json)} {v : Json}
    (hs : Json.Sorted fields)
    (hfields : ∀ f ∈ fields, ∀ x', canonicalValue (d + 1) f.2 = .ok x' → x' = f.2)
    (h : canonicalValue d (.obj fields) = .ok v) : v = .obj fields := by
  obtain ⟨-, -, fields', rfl, hsort, -⟩ := canonicalValue_obj_eq_ok.mp h
  have hsorted : Json.Sorted (fields.map fun f ↦ (f.1, canonicalValue (d + 1) f.2)) :=
    Json.Sorted.of_keys (by rw [List.map_map]; rfl) hs
  rw [Json.sortFields_of_sorted hsorted] at hsort
  refine congrArg Json.obj (List.ext_getElem ?_ fun i hi' hi ↦ ?_)
  · simpa using (congrArg List.length hsort).symm
  · have hget := List.getElem_of_eq hsort (i := i) (by simpa using hi)
    simp only [List.getElem_map, Prod.mk.injEq] at hget
    exact Prod.ext hget.1.symm (hfields _ (List.getElem_mem hi) _ hget.2)

/-! ## Idempotence -/

theorem canonicalItems_length {d : ℕ} {xs ys : List Json} (h : canonicalItems d xs = .ok ys) :
    ys.length = xs.length := by
  induction xs generalizing ys with
  | nil =>
    rw [canonicalItems] at h
    cases h
    rfl
  | cons x xs ih =>
    rw [canonicalItems] at h
    obtain ⟨y, -, h⟩ := bind_eq_ok.mp h
    obtain ⟨ys', hys, h⟩ := bind_eq_ok.mp h
    cases h
    rw [List.length_cons, List.length_cons, ih hys]

/-- A canonical object of canonical values is its own canonical form. -/
theorem canonicalValue_obj_self {d : ℕ} {fields fields' : List (String × Json)}
    (h : canonicalValue d (.obj fields) = .ok (.obj fields'))
    (hvalues : ∀ f ∈ fields', canonicalValue (d + 1) f.2 = .ok f.2) :
    canonicalValue d (.obj fields') = .ok (.obj fields') := by
  obtain ⟨hd, hlen, fields'', hobj, hsort, hkeys⟩ := canonicalValue_obj_eq_ok.mp h
  cases hobj
  have hlength : fields'.length = fields.length := by
    have := congrArg List.length hsort
    rw [(Json.sortFields_perm _).length_eq, List.length_map, List.length_map] at this
    exact this.symm
  have hmap : fields'.map (fun f ↦ (f.1, canonicalValue (d + 1) f.2)) =
      fields'.map fun f ↦ (f.1, .ok f.2) :=
    List.map_congr_left fun f hf ↦ by rw [hvalues f hf]
  refine canonicalValue_obj_eq_ok.mpr ⟨hd, hlength ▸ hlen, fields', rfl, ?_, hkeys⟩
  rw [hmap, ← hsort]
  exact Json.sortFields_of_sorted (Json.sorted_sortFields _)

mutual

/-- A canonical form is its own canonical form. -/
theorem canonicalValue_idem (d : ℕ) : ∀ (v : Json) {v' : Json}, canonicalValue d v = .ok v' →
    canonicalValue d v' = .ok v'
  | .null, v', h => by
    have hv := h
    rw [canonicalValue] at h
    split at h
    · cases h
    · cases h
      exact hv
  | .bool b, v', h => by
    have hv := h
    rw [canonicalValue] at h
    split at h
    · cases h
    · cases h
      exact hv
  | .int n, v', h => by
    have hv := h
    rw [canonicalValue] at h
    split at h
    · cases h
    split at h
    · cases h
    · cases h
      exact hv
  | .float f, v', h => by
    have hv := h
    rw [canonicalValue] at h
    split at h
    · cases h
    split at h
    · cases h
    split at h
    · cases h
    · cases h
      exact hv
  | .str s, v', h => by
    have hv := h
    rw [canonicalValue] at h
    obtain ⟨s', hs, rfl⟩ := map_eq_ok.mp h
    rw [canonicalString_eq_ok hs] at hv ⊢
    exact hv
  | .arr xs, v', h => by
    rw [canonicalValue] at h
    split at h
    · cases h
    case isFalse hd =>
    split at h
    · cases h
    case isFalse hlen =>
    obtain ⟨ys, hys, rfl⟩ := map_eq_ok.mp h
    rw [canonicalValue, if_neg hd, if_neg (canonicalItems_length hys ▸ hlen),
      canonicalItems_idem (d + 1) xs hys]
    rfl
  | .obj fields, v', h => by
    obtain ⟨-, -, fields', rfl, hsort, -⟩ := canonicalValue_obj_eq_ok.mp h
    refine canonicalValue_obj_self h fun f hf ↦ ?_
    -- the value came from some field of the object
    have hmem : (f.1, Except.ok f.2) ∈ fields.map fun g ↦ (g.1, canonicalValue (d + 1) g.2) := by
      rw [← (Json.sortFields_perm _).mem_iff, hsort]
      exact List.mem_map_of_mem hf
    obtain ⟨g, hg, hgf⟩ := List.mem_map.mp hmem
    exact canonicalFields_idem (d + 1) fields hg (congrArg Prod.snd hgf)

theorem canonicalItems_idem (d : ℕ) : ∀ (xs : List Json) {ys : List Json},
    canonicalItems d xs = .ok ys → canonicalItems d ys = .ok ys
  | [], ys, h => by
    rw [canonicalItems] at h
    cases h
    rw [canonicalItems]
  | x :: xs, ys, h => by
    rw [canonicalItems] at h
    obtain ⟨y, hy, h⟩ := bind_eq_ok.mp h
    obtain ⟨ys', hys, h⟩ := bind_eq_ok.mp h
    cases h
    rw [canonicalItems]
    refine bind_eq_ok.mpr ⟨y, canonicalValue_idem d x hy, ?_⟩
    exact bind_eq_ok.mpr ⟨ys', canonicalItems_idem d xs hys, rfl⟩

theorem canonicalFields_idem (d : ℕ) : ∀ (fields : List (String × Json)) {f : String × Json}
    {v' : Json}, f ∈ fields → canonicalValue d f.2 = .ok v' → canonicalValue d v' = .ok v'
  | [], f, v', hf, h => (nomatch hf)
  | (k, x) :: fields, f, v', hf, h => by
    rcases List.mem_cons.mp hf with rfl | hf
    · exact canonicalValue_idem d x h
    · exact canonicalFields_idem d fields hf h

end

end Laws

end EventHorizon
