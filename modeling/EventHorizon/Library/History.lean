import Mathlib.Data.List.Induction

/-!
# Entries of a history

A history is a list that grows at its end. What is said of an entry and the entries before it is
said of the whole history by `Each`; it is checked one entry at a time, when the entry is added.
-/

namespace EventHorizon

universe u

variable {α : Type u} {R : List α → α → Prop} {xs ys : List α} {y : α}

/-- Every entry of the history stands in the relation to the entries before it. -/
def Each (R : List α → α → Prop) (xs : List α) : Prop :=
  ∀ before x after, xs = before ++ x :: after → R before x

theorem each_nil : Each R [] := by
  intro before x after h
  simp at h

theorem each_concat : Each R (xs ++ [y]) ↔ Each R xs ∧ R xs y := by
  constructor
  · intro h
    refine ⟨fun before x after hxs ↦ h before x (after ++ [y]) ?_, h xs y [] rfl⟩
    rw [hxs, List.append_assoc, List.cons_append]
  · rintro ⟨h, hy⟩ before x after hxs
    rcases List.eq_nil_or_concat after with rfl | ⟨after', z, rfl⟩
    · obtain ⟨rfl, hx⟩ := List.append_inj' hxs rfl
      cases hx
      exact hy
    · have hxs' : xs ++ [y] = (before ++ x :: after') ++ [z] := by
        rw [hxs, List.concat_eq_append, List.append_assoc, List.cons_append]
      exact h before x after' (List.append_inj' hxs' rfl).1

/-- The histories whose entries are all as required, as they grow. -/
theorem Each.invariant {P : List α → Prop} (h : Each R xs) (hnil : P [])
    (hconcat : ∀ before x, P before → R before x → P (before ++ [x])) : P xs := by
  induction xs using List.reverseRecOn with
  | nil => exact hnil
  | append_singleton xs x ih =>
    obtain ⟨h, hx⟩ := each_concat.mp h
    exact hconcat xs x (ih h) hx

/-- Some entry of the history stands in the relation to the entries before it. -/
def Earlier (R : List α → α → Prop) (xs : List α) : Prop :=
  ∃ before x after, xs = before ++ x :: after ∧ R before x

theorem not_earlier_iff : ¬Earlier R xs ↔ Each (fun before x ↦ ¬R before x) xs := by
  constructor
  · exact fun h before x after hxs hx ↦ h ⟨before, x, after, hxs, hx⟩
  · rintro h ⟨before, x, after, hxs, hx⟩
    exact h before x after hxs hx

theorem not_earlier_nil : ¬Earlier R [] := not_earlier_iff.mpr each_nil

theorem earlier_concat : Earlier R (xs ++ [y]) ↔ Earlier R xs ∨ R xs y := by
  rw [← not_iff_not, not_or, not_earlier_iff, not_earlier_iff, each_concat]

/-- An entry is preceded by one of another kind, if it is of the first. -/
def PrecededBy (P Q : α → Prop) (before : List α) (x : α) : Prop := P x → ∃ a ∈ before, Q a

end EventHorizon
