import Mathlib.Data.List.Basic

/-!
# Linked records

Each record of a chain names the link of the one before it, the first one a link given beforehand. A
chain is extended by a record that names the link of the last.
-/

namespace EventHorizon.Linked

variable {α δ : Type*} [DecidableEq δ] (previous link : α → δ) (ok : α → Bool)

/-- Every record names the link before it and is as required. -/
def checks : δ → List α → Bool
  | _, [] => true
  | d, a :: as => previous a = d && ok a && checks (link a) as

omit [DecidableEq δ] in
/-- The link that the next record has to name. -/
def tip (d : δ) (as : List α) : δ := (as.getLast?.map link).getD d

variable {previous link ok} {d : δ} {as : List α} {a : α}

omit [DecidableEq δ] in
theorem tip_cons : tip link d (a :: as) = tip link (link a) as := by
  cases as with
  | nil => rfl
  | cons b as => rw [tip, tip, List.getLast?_cons_cons, List.getLast?_cons, Option.map_some,
      Option.getD_some, Option.getD_some]

theorem checks_concat : checks previous link ok d (as ++ [a]) = true ↔
    checks previous link ok d as = true ∧ previous a = tip link d as ∧ ok a = true := by
  induction as generalizing d with
  | nil => simp [checks, tip]
  | cons b as ih =>
    simp only [List.cons_append, checks, Bool.and_eq_true, ih, tip_cons, and_assoc]

end EventHorizon.Linked
