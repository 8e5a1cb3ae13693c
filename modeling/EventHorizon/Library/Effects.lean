import Mathlib.Logic.Basic

/-!
# Steps that may raise

A step returns or raises, and leaves a state either way. `andThen` is one step after another, which
is taken unless the first one raised.
-/

namespace EventHorizon

variable {ε α β σ : Type*}

/-- One step after another, unless the first one raised. -/
def andThen (r : Except ε α × σ) (f : α → σ → Except ε β × σ) : Except ε β × σ :=
  match r.1 with
  | .error e => (.error e, r.2)
  | .ok a => f a r.2

variable {r : Except ε α × σ} {f : α → σ → Except ε β × σ} {s : σ} {a : α} {e : ε}

@[simp] theorem andThen_ok : andThen (.ok a, s) f = f a s := rfl

@[simp] theorem andThen_error : andThen (.error e, s) f = (.error e, s) := rfl

/-- What holds when the first step has raised and when the second has been taken. -/
theorem andThen_snd {P : σ → Prop} (hr : ∀ e, r.1 = .error e → P r.2)
    (hf : ∀ a, r.1 = .ok a → P (f a r.2).2) : P (andThen r f).2 := by
  rw [andThen]
  cases h : r.1 with
  | error e => exact hr e h
  | ok a => exact hf a h

/-- What holds of the outcome when the first step has raised and when the second has been taken. -/
theorem andThen_of {P : Except ε β × σ → Prop} (hr : ∀ e, r.1 = .error e → P (.error e, r.2))
    (hf : ∀ a, r.1 = .ok a → P (f a r.2)) : P (andThen r f) := by
  rw [andThen]
  cases h : r.1 with
  | error e => exact hr e h
  | ok a => exact hf a h

/-- A last step that only returns leaves the state as it is. -/
theorem andThen_return_snd {g : α → σ → β} : (andThen r fun a s ↦ (.ok (g a s), s)).2 = r.2 :=
  andThen_snd (P := fun s ↦ s = r.2) (fun _ _ ↦ rfl) fun _ _ ↦ rfl

theorem andThen_fst_eq_ok {b : β} :
    (andThen r f).1 = .ok b ↔ ∃ a, r.1 = .ok a ∧ (f a r.2).1 = .ok b := by
  rw [andThen]
  cases h : r.1 with
  | error e => exact ⟨fun h ↦ (nomatch h), fun ⟨_, h, _⟩ ↦ (nomatch h)⟩
  | ok a => exact ⟨fun h ↦ ⟨a, rfl, h⟩, fun ⟨_, h, h'⟩ ↦ by cases h; exact h'⟩

end EventHorizon
