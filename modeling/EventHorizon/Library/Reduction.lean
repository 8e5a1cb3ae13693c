import Mathlib.Data.List.Sort
import Mathlib.Data.List.Dedup
import Mathlib.Order.MinMax

/-!
# Repeated reductions

Authority is reduced by removing items from finite collections and by capping numbers, again and
again and in no particular order. What is left after a list of removals is `without`, what is left
of a number after a list of caps is `capped`; both depend on the set of reductions only, and more
reductions leave less.

A set of strings is kept as a sorted list without repetitions (`sortUnique`), so that equal sets are
equal lists.
-/

namespace EventHorizon

variable {α : Type*}

/-! ## Removals -/

section Removal

variable [DecidableEq α] {xs ys : List α} {removed removed' : List (List α)} {x : α}

/-- The items that no removal names. -/
def without (xs : List α) (removed : List (List α)) : List α :=
  xs.filter fun x ↦ removed.all fun ys ↦ x ∉ ys

@[simp] theorem mem_without : x ∈ without xs removed ↔ x ∈ xs ∧ ∀ ys ∈ removed, x ∉ ys := by
  simp [without]

theorem without_nil : without xs [] = xs := by simp [without]

theorem without_cons : without xs (ys :: removed) = without (xs.filter (· ∉ ys)) removed := by
  rw [without, without, List.filter_filter]
  congr 1
  funext x
  simp [Bool.and_comm]

theorem without_sublist : (without xs removed).Sublist xs := List.filter_sublist

/-- More removals leave less. -/
theorem without_subset (h : removed' ⊆ removed) : without xs removed ⊆ without xs removed' := by
  intro x hx
  rw [mem_without] at hx ⊢
  exact ⟨hx.1, fun ys hys ↦ hx.2 ys (h hys)⟩

/-- What is left does not depend on the order or the number of the removals. -/
theorem without_congr (h : ∀ ys, ys ∈ removed ↔ ys ∈ removed') :
    without xs removed = without xs removed' := by
  refine List.filter_congr fun x _ ↦ ?_
  rw [Bool.eq_iff_iff, List.all_eq_true, List.all_eq_true]
  exact ⟨fun hx ys hys ↦ hx ys ((h ys).mpr hys), fun hx ys hys ↦ hx ys ((h ys).mp hys)⟩

end Removal

/-! ## Caps -/

section Cap

variable [LinearOrder α] {a x : α} {caps caps' : List (Option α)}

/-- A bound under one more cap, if it is set. -/
def capWith (a : α) : Option α → α
  | none => a
  | some b => min a b

/-- A bound under a list of caps. -/
def capped (a : α) (caps : List (Option α)) : α := caps.foldl capWith a

theorem le_capWith_iff {c : Option α} : x ≤ capWith a c ↔ x ≤ a ∧ ∀ b ∈ c, x ≤ b := by
  cases c with
  | none => simp [capWith]
  | some b => simp [capWith]

theorem le_capped_iff : x ≤ capped a caps ↔ x ≤ a ∧ ∀ c ∈ caps, ∀ b ∈ c, x ≤ b := by
  induction caps generalizing a with
  | nil => simp [capped]
  | cons c caps ih =>
    have hstep : capped a (c :: caps) = capped (capWith a c) caps := rfl
    rw [hstep, ih, le_capWith_iff, List.forall_mem_cons, and_assoc]

theorem capped_nil : capped a [] = a := rfl

theorem capped_le : capped a caps ≤ a := (le_capped_iff.mp (le_refl _)).1

/-- More caps leave less. -/
theorem capped_le_capped (h : caps' ⊆ caps) : capped a caps ≤ capped a caps' := by
  refine le_capped_iff.mpr ⟨capped_le, fun c hc b hb ↦ ?_⟩
  exact (le_capped_iff.mp (le_refl (capped a caps))).2 c (h hc) b hb

/-- What is left does not depend on the order or the number of the caps. -/
theorem capped_congr (h : ∀ c, c ∈ caps ↔ c ∈ caps') : capped a caps = capped a caps' :=
  le_antisymm (capped_le_capped fun c hc ↦ (h c).mpr hc)
    (capped_le_capped fun c hc ↦ (h c).mp hc)

end Cap

/-! ## Sets as sorted lists -/

section SortUnique

variable [LinearOrder α] {xs ys : List α} {x : α}

/-- `sorted(set(xs))`. -/
def sortUnique (xs : List α) : List α := xs.dedup.insertionSort (· ≤ ·)

@[simp] theorem mem_sortUnique : x ∈ sortUnique xs ↔ x ∈ xs := by
  rw [sortUnique, List.mem_insertionSort, List.mem_dedup]

theorem pairwise_lt_sortUnique (xs : List α) : (sortUnique xs).Pairwise (· < ·) := by
  have hle : (sortUnique xs).Pairwise (· ≤ ·) := List.pairwise_insertionSort _ _
  have hne : (sortUnique xs).Pairwise (· ≠ ·) :=
    (List.perm_insertionSort _ _).nodup_iff.mpr (List.nodup_dedup xs)
  exact (hle.and hne).imp fun h ↦ lt_of_le_of_ne h.1 h.2

/-- A sorted list without repetitions is its own set. -/
theorem sortUnique_of_pairwise (h : xs.Pairwise (· < ·)) : sortUnique xs = xs := by
  have hnodup : xs.Nodup := h.imp fun hlt ↦ ne_of_lt hlt
  rw [sortUnique, hnodup.dedup]
  exact (h.imp fun hlt ↦ le_of_lt hlt).insertionSort_eq

theorem insertionSort_of_pairwise (h : xs.Pairwise (· < ·)) : xs.insertionSort (· ≤ ·) = xs :=
  (h.imp fun hlt ↦ le_of_lt hlt).insertionSort_eq

end SortUnique

end EventHorizon
