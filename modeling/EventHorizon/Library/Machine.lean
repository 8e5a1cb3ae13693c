import Mathlib.Data.List.Basic

/-!
# Guarded runs of a machine

A machine is an initial state and a partial step function: `step s a = none` says that action `a`
is not enabled in `s`. A *guard* `ok s a` restricts the runs under consideration to those that take
`a` from `s` only when the guard holds there; the unrestricted runs are those of the guard that is
always true. Every safety argument is then one induction, `Machine.Path.invariant`.

Runs on concrete action lists are produced by `Machine.runIf`, which evaluates.
-/

namespace EventHorizon

universe u v

/-- A deterministic machine with partial steps. -/
structure Machine (σ : Type u) (α : Type v) where
  /-- The initial state. -/
  init : σ
  /-- The step function; `none` when the action is not enabled. -/
  step : σ → α → Option σ

namespace Machine

variable {σ : Type u} {α : Type v}

/-- The states a guarded run can reach from `s`. -/
inductive Path (M : Machine σ α) (ok : σ → α → Prop) (s : σ) : σ → Prop
  | refl : Path M ok s s
  | tail {t t' : σ} {a : α} (h : Path M ok s t) (hok : ok t a) (hstep : M.step t a = some t') :
      Path M ok s t'

/-- The states a guarded run can reach from the initial one. -/
def Reach (M : Machine σ α) (ok : σ → α → Prop) (s : σ) : Prop := M.Path ok M.init s

variable {M : Machine σ α} {ok ok' : σ → α → Prop} {s t r : σ}

theorem Path.trans (h₁ : M.Path ok s t) (h₂ : M.Path ok t r) : M.Path ok s r := by
  induction h₂ with
  | refl => exact h₁
  | tail _ hok hstep ih => exact ih.tail hok hstep

/-- Weakening the guard. -/
theorem Path.mono (h : M.Path ok s t) (hok : ∀ {x : σ} {a : α}, ok x a → ok' x a) :
    M.Path ok' s t := by
  induction h with
  | refl => exact .refl
  | tail _ hok₁ hstep ih => exact ih.tail (hok hok₁) hstep

/-- The invariant rule: what the first state has and every guarded step keeps, the last has. -/
theorem Path.invariant {P : σ → Prop} (h : M.Path ok s t) (h₀ : P s)
    (hP : ∀ {x y : σ} {a : α}, P x → ok x a → M.step x a = some y → P y) : P t := by
  induction h with
  | refl => exact h₀
  | tail _ hok hstep ih => exact hP ih hok hstep

/-- The invariant rule for reachable states. -/
theorem Reach.invariant {P : σ → Prop} (h : M.Reach ok t) (h₀ : P M.init)
    (hP : ∀ {x y : σ} {a : α}, P x → ok x a → M.step x a = some y → P y) : P t :=
  Path.invariant h h₀ hP

/-- Runs a list of actions, stopping as soon as the guard or the machine refuses one. -/
def runIf (M : Machine σ α) (ok : σ → α → Prop) [∀ s a, Decidable (ok s a)] :
    σ → List α → Option σ
  | s, [] => some s
  | s, a :: as => if ok s a then (M.step s a).bind fun s' ↦ runIf M ok s' as else none

theorem path_of_runIf [∀ s a, Decidable (ok s a)] {as : List α} :
    ∀ {s : σ}, M.runIf ok s as = some t → M.Path ok s t := by
  induction as with
  | nil =>
    intro s h
    rw [runIf, Option.some.injEq] at h
    exact h ▸ .refl
  | cons a as ih =>
    intro s h
    rw [runIf] at h
    split at h
    case isTrue hok =>
      obtain ⟨s', hs', h'⟩ := Option.bind_eq_some_iff.mp h
      exact (Path.refl.tail hok hs').trans (ih h')
    case isFalse => cases h

end Machine

end EventHorizon
