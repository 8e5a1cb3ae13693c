import EventHorizon.Library.Machine
import Mathlib.Logic.Relation

/-!
# Phases

A machine may work on many things at once, each of which goes through phases of its own. A relation
says which phases the things are in, in a state of the machine. When every step of the machine moves
each thing along an arrow between two phases, or leaves it where it is, then every run takes each
thing along a path of arrows. What is seen of a thing can be read off its phase, and a phase that no
arrow leaves is final.
-/

namespace EventHorizon.Machine

variable {σ α κ φ : Type*} {M : Machine σ α} {ok : σ → α → Prop} {R : (κ → φ) → σ → Prop}
  {move : φ → φ → Prop} {f : κ → φ} {s t : σ}

/-- Every step moves the things along the arrows, or leaves them. -/
def Moves (M : Machine σ α) (ok : σ → α → Prop) (R : (κ → φ) → σ → Prop) (move : φ → φ → Prop) :
    Prop :=
  ∀ ⦃f s a s'⦄, R f s → ok s a → M.step s a = some s' →
    ∃ f', R f' s' ∧ ∀ k, Relation.ReflGen move (f k) (f' k)

/-- A run takes each thing along a path of arrows. -/
theorem Moves.path (H : M.Moves ok R move) (h : M.Path ok s t) (hs : R f s) :
    ∃ f', R f' t ∧ ∀ k, Relation.ReflTransGen move (f k) (f' k) := by
  induction h with
  | refl => exact ⟨f, hs, fun _ ↦ .refl⟩
  | tail _ hok hstep ih =>
    obtain ⟨g, hg, hfg⟩ := ih
    obtain ⟨f', hf', hgf⟩ := H hg hok hstep
    exact ⟨f', hf', fun k ↦ (hfg k).trans (hgf k).to_reflTransGen⟩

/-- The phases of a reachable state. -/
theorem Moves.reach (H : M.Moves ok R move) (h : M.Reach ok t) (hinit : R f M.init) :
    ∃ f', R f' t ∧ ∀ k, Relation.ReflTransGen move (f k) (f' k) := H.path h hinit

/-- Only one thing is moved. -/
theorem reflGen_update [DecidableEq κ] {k : κ} {x : φ} (h : move (f k) x) (k' : κ) :
    Relation.ReflGen move (f k') (Function.update f k x k') := by
  by_cases hk : k' = k
  · subst hk
    rw [Function.update_self]
    exact .single h
  · rw [Function.update_of_ne hk]

/-- A phase that no arrow leaves is the last one. -/
theorem eq_of_final {x y : φ} (h : Relation.ReflTransGen move x y)
    (hx : ∀ z, ¬move x z) : x = y := by
  obtain rfl | ⟨z, hz, -⟩ := Relation.ReflTransGen.cases_head h
  · rfl
  · exact absurd hz (hx z)

end EventHorizon.Machine
