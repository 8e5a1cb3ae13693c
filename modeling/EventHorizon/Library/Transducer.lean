import Mathlib.Data.List.Induction

/-!
# Machines that answer

A step takes a state and a request to an answer and the next state. Two such machines answer alike
when a relation between their states is kept by every pair of steps on the same request, and the two
answers are the same. The relation may be kept only for the requests of some kind.
-/

namespace EventHorizon.Transducer

variable {σ τ α β : Type*}

/-- The answers to a list of requests, and the state after them. -/
def run (step : σ → α → β × σ) : σ → List α → List β × σ
  | s, [] => ([], s)
  | s, a :: as => ((step s a).1 :: (run step (step s a).2 as).1, (run step (step s a).2 as).2)

/-- Steps on the same request give the same answer and keep the relation. -/
def Simulates (f : σ → α → β × σ) (g : τ → α → β × τ) (P : α → Prop) (R : σ → τ → Prop) : Prop :=
  ∀ s t a, P a → R s t → (f s a).1 = (g t a).1 ∧ R (f s a).2 (g t a).2

theorem Simulates.run {f : σ → α → β × σ} {g : τ → α → β × τ} {P : α → Prop} {R : σ → τ → Prop}
    (H : Simulates f g P R) {as : List α} (has : ∀ a ∈ as, P a) {s : σ} {t : τ} (h : R s t) :
    (Transducer.run f s as).1 = (Transducer.run g t as).1 ∧
      R (Transducer.run f s as).2 (Transducer.run g t as).2 := by
  induction as generalizing s t with
  | nil => exact ⟨rfl, h⟩
  | cons a as ih =>
    obtain ⟨ha, has⟩ := List.forall_mem_cons.mp has
    obtain ⟨hanswer, hnext⟩ := H s t a ha h
    obtain ⟨hanswers, hlast⟩ := ih has hnext
    exact ⟨congrArg₂ List.cons hanswer hanswers, hlast⟩

theorem run_append (step : σ → α → β × σ) (s : σ) (as bs : List α) :
    run step s (as ++ bs) = ((run step s as).1 ++ (run step (run step s as).2 bs).1,
      (run step (run step s as).2 bs).2) := by
  induction as generalizing s with
  | nil => rfl
  | cons a as ih => rw [List.cons_append, run, ih, run, List.cons_append]

/-! ## What holds along a run -/

section Runs

variable {step : σ → α → β × σ} {s : σ} {as bs : List α} {a : α}

/-- The state after a list of requests. -/
def after (step : σ → α → β × σ) (s : σ) (as : List α) : σ := (run step s as).2

@[simp] theorem after_nil : after step s [] = s := rfl

@[simp] theorem after_cons : after step s (a :: as) = after step (step s a).2 as := rfl

theorem after_append : after step s (as ++ bs) = after step (after step s as) bs := by
  rw [after, run_append]
  rfl

theorem after_concat : after step s (as ++ [a]) = (step (after step s as) a).2 := after_append

/-- The invariant rule. -/
theorem after_invariant {P : σ → Prop} (h : P s) (hP : ∀ s a, P s → P (step s a).2) :
    P (after step s as) := by
  induction as generalizing s with
  | nil => exact h
  | cons a as ih => exact ih (hP s a h)

/-- Every step of the run is as required, in the state it is taken from. -/
def Throughout (step : σ → α → β × σ) (K : σ → α → Prop) : σ → List α → Prop
  | _, [] => True
  | s, a :: as => K s a ∧ Throughout step K (step s a).2 as

theorem throughout_append {K : σ → α → Prop} : Throughout step K s (as ++ bs) ↔
    Throughout step K s as ∧ Throughout step K (after step s as) bs := by
  induction as generalizing s with
  | nil => exact ⟨fun h ↦ ⟨trivial, h⟩, fun h ↦ h.2⟩
  | cons a as ih =>
    rw [List.cons_append, Throughout, ih, Throughout, and_assoc]
    rfl

theorem throughout_iff {K : σ → α → Prop} :
    Throughout step K s as ↔ ∀ pre a post, as = pre ++ a :: post → K (after step s pre) a := by
  induction as generalizing s with
  | nil => exact ⟨fun _ pre a post h ↦ by simp at h, fun _ ↦ trivial⟩
  | cons b bs ih =>
    rw [Throughout, ih]
    constructor
    · rintro ⟨hb, hbs⟩ pre a post h
      cases pre with
      | nil =>
        cases h
        exact hb
      | cons c pre =>
        rw [List.cons_append, List.cons.injEq] at h
        obtain ⟨rfl, h⟩ := h
        exact hbs pre a post h
    · intro h
      refine ⟨h [] b bs rfl, fun pre a post hbs ↦ ?_⟩
      rw [hbs] at h
      exact h (b :: pre) a post rfl

/-- What every step of a run keeps is kept by the run. -/
theorem after_of_throughout {Q : σ → Prop} {K : σ → α → Prop}
    (hQ : ∀ s a, Q s → K s a → Q (step s a).2) (h : Q s) (has : Throughout step K s as) :
    Q (after step s as) := by
  induction as generalizing s with
  | nil => exact h
  | cons a as ih => exact ih (hQ s a h has.1) has.2

/-- What does not hold at the start and holds at the end began with a step that brings it about, and
every step since then was one that keeps it. -/
theorem exists_since_of_invariant {I Q : σ → Prop} {E K : σ → α → Prop} (hI : I s)
    (hinv : ∀ s a, I s → I (step s a).2)
    (hstep : ∀ s a, I s → Q (step s a).2 → E s a ∨ Q s ∧ K s a) (hs : ¬Q s)
    (h : Q (after step s as)) :
    ∃ pre a post, as = pre ++ a :: post ∧ E (after step s pre) a ∧
      Throughout step K (after step s (pre ++ [a])) post := by
  induction as using List.reverseRecOn with
  | nil => exact absurd h hs
  | append_singleton as b ih =>
    rw [after_append] at h
    rcases hstep _ b (after_invariant hI hinv) h with hE | ⟨hQ, hK⟩
    · exact ⟨as, b, [], rfl, hE, trivial⟩
    · obtain ⟨pre, a, post, rfl, hE, hpost⟩ := ih hQ
      refine ⟨pre, a, post ++ [b], by simp, hE, throughout_append.mpr ⟨hpost, ?_, trivial⟩⟩
      rwa [← after_append, List.append_assoc]

theorem exists_since {Q : σ → Prop} {E K : σ → α → Prop}
    (hstep : ∀ s a, Q (step s a).2 → E s a ∨ Q s ∧ K s a) (hs : ¬Q s) (h : Q (after step s as)) :
    ∃ pre a post, as = pre ++ a :: post ∧ E (after step s pre) a ∧
      Throughout step K (after step s (pre ++ [a])) post :=
  exists_since_of_invariant (I := fun _ ↦ True) trivial (fun _ _ _ ↦ trivial)
    (fun s a _ ↦ hstep s a) hs h

/-! ### The part of a run that one observer sees -/

/-- The answers to the requests of one kind. -/
def answersTo (p : α → Bool) (as : List α) (answers : List β) : List β :=
  ((as.zip answers).filter fun r ↦ p r.1).map Prod.snd

/-- When the requests of one kind depend on a view of the state, and the others leave that view as
it is, the answers to the former and the view are as if the others had not been made. -/
theorem run_filter {p : α → Bool} {view : σ → τ}
    (hview : ∀ s s' a, p a = true → view s = view s' →
      (step s a).1 = (step s' a).1 ∧ view (step s a).2 = view (step s' a).2)
    (hframe : ∀ s a, p a = false → view (step s a).2 = view s) {s' : σ} (h : view s = view s') :
    answersTo p as (run step s as).1 = (run step s' (as.filter p)).1 ∧
      view (after step s as) = view (after step s' (as.filter p)) := by
  induction as generalizing s s' with
  | nil => exact ⟨rfl, h⟩
  | cons a as ih =>
    cases hp : p a with
    | true =>
      obtain ⟨hanswer, hnext⟩ := hview s s' a hp h
      obtain ⟨hanswers, hlast⟩ := ih hnext
      rw [List.filter_cons_of_pos hp]
      refine ⟨?_, hlast⟩
      rw [run, run, ← hanswers, ← hanswer, answersTo, List.zip_cons_cons,
        List.filter_cons_of_pos (by simpa using hp)]
      rfl
    | false =>
      have hnext : view (step s a).2 = view s' := (hframe s a hp).trans h
      obtain ⟨hanswers, hlast⟩ := ih hnext
      rw [List.filter_cons_of_neg (by simp [hp])]
      refine ⟨?_, hlast⟩
      rw [run, ← hanswers, answersTo, List.zip_cons_cons,
        List.filter_cons_of_neg (by simp [hp])]
      rfl

end Runs

end EventHorizon.Transducer
