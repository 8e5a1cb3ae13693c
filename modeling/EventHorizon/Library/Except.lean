import Mathlib.Data.List.Forall2

/-!
# Inverting computations that may raise

A `do` block in `Except` that returned normally returned normally at each of its steps. These
lemmas take such a block apart one step at a time.
-/

namespace EventHorizon

universe u v w

variable {ε : Type u} {α β : Type v}

theorem bind_eq_ok {x : Except ε α} {f : α → Except ε β} {b : β} :
    (x >>= f) = .ok b ↔ ∃ a, x = .ok a ∧ f a = .ok b := by
  cases x with
  | error e => exact ⟨fun h ↦ (nomatch h), fun ⟨_, h, _⟩ ↦ (nomatch h)⟩
  | ok a => exact ⟨fun h ↦ ⟨a, rfl, h⟩, fun ⟨_, h, h'⟩ ↦ by cases h; exact h'⟩

theorem isOk_iff {x : Except ε α} : x.isOk = true ↔ ∃ a, x = .ok a := by
  cases x with
  | ok a => exact iff_of_true rfl ⟨a, rfl⟩
  | error e => exact iff_of_false Bool.false_ne_true (by rintro ⟨a, ⟨⟩⟩)

theorem map_eq_ok {x : Except ε α} {f : α → β} {b : β} :
    x.map f = .ok b ↔ ∃ a, x = .ok a ∧ f a = b := by
  cases x with
  | error e => exact ⟨fun h ↦ (nomatch h), fun ⟨_, h, _⟩ ↦ (nomatch h)⟩
  | ok a =>
    exact ⟨fun h ↦ ⟨a, rfl, Except.ok.inj h⟩, fun ⟨_, h, h'⟩ ↦ by cases h; exact congrArg _ h'⟩

/-- Translating exceptions changes nothing about a normal return. -/
theorem mapError_eq_ok {ε' : Type w} {x : Except ε α} {f : ε → ε'} {a : α} :
    x.mapError f = .ok a ↔ x = .ok a := by
  cases x with
  | error e => exact ⟨fun h ↦ (nomatch h), fun h ↦ (nomatch h)⟩
  | ok b => exact ⟨fun h ↦ congrArg _ (Except.ok.inj h), fun h ↦ congrArg _ (Except.ok.inj h)⟩

/-- A check that raises when its condition holds, before the rest of the block. -/
theorem throw_if_eq_ok {β : Type} {p : Prop} [Decidable p] {e : ε} {k : Unit → Except ε β} {b : β} :
    (if p then (throw e : Except ε Unit) >>= k else k ()) = .ok b ↔ ¬p ∧ k () = .ok b := by
  by_cases hp : p
  · rw [if_pos hp]
    exact ⟨fun h ↦ (nomatch h), fun h ↦ absurd hp h.1⟩
  · rw [if_neg hp]
    exact ⟨fun h ↦ ⟨hp, h⟩, fun h ↦ h.2⟩

/-- `if p: raise e`. -/
def raiseIf (p : Prop) [Decidable p] (e : ε) : Except ε Unit := if p then .error e else .ok ()

@[simp] theorem raiseIf_eq_ok {p : Prop} [Decidable p] {e : ε} {u : Unit} :
    raiseIf p e = .ok u ↔ ¬p := by
  by_cases hp : p <;> simp [raiseIf, hp]

/-- A check before the rest of a block. -/
theorem raiseIf_bind_eq_ok {β : Type} {p : Prop} [Decidable p] {e : ε} {f : Unit → Except ε β}
    {b : β} : (raiseIf p e >>= f) = .ok b ↔ ¬p ∧ f () = .ok b := by
  rw [bind_eq_ok]
  constructor
  · rintro ⟨⟨⟩, hp, h⟩
    exact ⟨raiseIf_eq_ok.mp hp, h⟩
  · rintro ⟨hp, h⟩
    exact ⟨(), raiseIf_eq_ok.mpr hp, h⟩

/-- A loop that computes one value for each item returns normally when every turn does. -/
theorem mapM_eq_ok {α β : Type} {f : α → Except ε β} {xs : List α} {ys : List β} :
    xs.mapM f = .ok ys ↔ List.Forall₂ (fun x y ↦ f x = .ok y) xs ys := by
  induction xs generalizing ys with
  | nil =>
    rw [List.mapM_nil, List.forall₂_nil_left_iff]
    exact ⟨fun h ↦ (Except.ok.inj h).symm, fun h ↦ h ▸ rfl⟩
  | cons x xs ih =>
    rw [List.mapM_cons, bind_eq_ok, List.forall₂_cons_left_iff]
    constructor
    · rintro ⟨y, hy, h⟩
      obtain ⟨ys', hys, h⟩ := bind_eq_ok.mp h
      exact ⟨y, ys', hy, ih.mp hys, (Except.ok.inj h).symm⟩
    · rintro ⟨y, ys', hy, hys, rfl⟩
      exact ⟨y, hy, bind_eq_ok.mpr ⟨ys', ih.mpr hys, rfl⟩⟩

/-- Every result of such a loop came from one of its items. -/
theorem exists_of_mem_mapM {α β : Type} {f : α → Except ε β} {xs : List α} {ys : List β} {y : β}
    (h : xs.mapM f = .ok ys) (hy : y ∈ ys) : ∃ x ∈ xs, f x = .ok y := by
  rw [mapM_eq_ok] at h
  induction h with
  | nil => cases hy
  | cons hxy _ ih =>
    rcases List.mem_cons.mp hy with rfl | hy
    · exact ⟨_, List.mem_cons_self, hxy⟩
    · obtain ⟨x, hx, hfx⟩ := ih hy
      exact ⟨x, List.mem_cons_of_mem _ hx, hfx⟩

/-- A loop whose turns check an item and compute a value from it. -/
theorem mapM_map_eq_ok {α β : Type} {f : α → Except ε β} {P : α → Prop} {g : α → β} {xs : List α}
    {ys : List β} (hf : ∀ x y, f x = .ok y ↔ P x ∧ y = g x) :
    xs.mapM f = .ok ys ↔ (∀ x ∈ xs, P x) ∧ ys = xs.map g := by
  rw [mapM_eq_ok]
  constructor
  · intro h
    induction h with
    | nil => simp
    | cons hxy _ ih =>
      obtain ⟨hP, rfl⟩ := (hf _ _).mp hxy
      obtain ⟨hall, rfl⟩ := ih
      exact ⟨List.forall_mem_cons.mpr ⟨hP, hall⟩, rfl⟩
  · rintro ⟨h, rfl⟩
    exact List.forall₂_map_right_iff.mpr
      (List.forall₂_same.mpr fun x hx ↦ (hf x _).mpr ⟨h x hx, rfl⟩)

/-- A loop whose turns return the items they check. -/
theorem mapM_id_eq_ok {α : Type} {f : α → Except ε α} {P : α → Prop} {xs ys : List α}
    (hf : ∀ x y, f x = .ok y ↔ P x ∧ y = x) :
    xs.mapM f = .ok ys ↔ (∀ x ∈ xs, P x) ∧ ys = xs := by
  rw [mapM_map_eq_ok (g := id) hf, List.map_id]

/-- A loop that checks each item. -/
theorem forM_eq_ok {α : Type} {f : α → Except ε Unit} {xs : List α} :
    xs.forM f = .ok () ↔ ∀ x ∈ xs, f x = .ok () := by
  induction xs with
  | nil => exact ⟨fun _ x hx ↦ (List.not_mem_nil hx).elim, fun _ ↦ rfl⟩
  | cons x xs ih =>
    have hstep : (x :: xs).forM f = f x >>= fun _ ↦ xs.forM f := rfl
    rw [hstep, bind_eq_ok, List.forall_mem_cons]
    constructor
    · rintro ⟨⟨⟩, hx, h⟩
      exact ⟨hx, ih.mp h⟩
    · rintro ⟨hx, h⟩
      exact ⟨(), hx, ih.mpr h⟩

theorem forM_bind_eq_ok {α β : Type} {f : α → Except ε Unit} {xs : List α}
    {k : Unit → Except ε β} {b : β} :
    (xs.forM f >>= k) = .ok b ↔ (∀ x ∈ xs, f x = .ok ()) ∧ k () = .ok b := by
  rw [bind_eq_ok]
  constructor
  · rintro ⟨⟨⟩, h, hk⟩
    exact ⟨forM_eq_ok.mp h, hk⟩
  · rintro ⟨h, hk⟩
    exact ⟨(), forM_eq_ok.mpr h, hk⟩

/-! ## Exceptions that are not raised -/

theorem ok_ne_error {a : α} {e : ε} : (.ok a : Except ε α) ≠ .error e := fun h ↦ nomatch h

/-- A block raises nothing that its steps do not raise. -/
theorem bind_ne_error {x : Except ε α} {f : α → Except ε β} {e : ε} (hx : x ≠ .error e)
    (hf : ∀ a, x = .ok a → f a ≠ .error e) : (x >>= f) ≠ .error e := by
  cases x with
  | error e' =>
    intro h
    exact hx (congrArg Except.error (Except.error.inj h))
  | ok a => exact hf a rfl

theorem map_ne_error {x : Except ε α} {f : α → β} {e : ε} (hx : x ≠ .error e) :
    x.map f ≠ .error e := by
  cases x with
  | error e' =>
    intro h
    exact hx (congrArg Except.error (Except.error.inj h))
  | ok a => exact ok_ne_error

/-- A check that passes, or raises something else. -/
theorem raiseIf_ne_error {p : Prop} [Decidable p] {e e' : ε} (h : p → e' ≠ e) :
    raiseIf p e' ≠ .error e := by
  by_cases hp : p
  · rw [raiseIf, if_pos hp]
    exact fun he ↦ h hp (Except.error.inj he)
  · rw [raiseIf, if_neg hp]
    exact ok_ne_error

theorem foldlM_ne_error {γ : Type} {f : α → γ → Except ε α} {xs : List γ} {a : α} {e : ε}
    (hf : ∀ a x, f a x ≠ .error e) : xs.foldlM f a ≠ .error e := by
  induction xs generalizing a with
  | nil => exact ok_ne_error
  | cons x xs ih =>
    rw [List.foldlM_cons]
    exact bind_ne_error (hf a x) fun _ _ ↦ ih

/-! ## What a block may raise -/

/-- Whatever a block raises is as required. -/
def RaisesOnly (E : ε → Prop) (x : Except ε α) : Prop := ∀ e, x = .error e → E e

section RaisesOnly

variable {E : ε → Prop} {x : Except ε α}

theorem raisesOnly_ok {a : α} : RaisesOnly E (.ok a : Except ε α) := fun _ h ↦ nomatch h

theorem raisesOnly_error {e : ε} (h : E e) : RaisesOnly E (.error e : Except ε α) := by
  rintro _ ⟨⟩
  exact h

theorem RaisesOnly.bind {f : α → Except ε β} (hx : RaisesOnly E x)
    (hf : ∀ a, x = .ok a → RaisesOnly E (f a)) : RaisesOnly E (x >>= f) := by
  cases x with
  | error e => exact fun e' h ↦ hx e' (by cases h; rfl)
  | ok a => exact hf a rfl

theorem raisesOnly_raiseIf {p : Prop} [Decidable p] {e : ε} (h : p → E e) :
    RaisesOnly E (raiseIf p e) := by
  intro e' he
  by_cases hp : p
  · rw [raiseIf, if_pos hp] at he
    cases he
    exact h hp
  · rw [raiseIf, if_neg hp] at he
    cases he

end RaisesOnly

/-- The block raises, and what it raises is as described. -/
def Raises (E : ε → Prop) (x : Except ε α) : Prop := ∃ e, x = .error e ∧ E e

section Raises

variable {E : ε → Prop}

theorem not_raises_ok {a : α} : ¬Raises E (.ok a : Except ε α) := fun ⟨_, h, _⟩ ↦ nomatch h

@[simp] theorem raises_error {e : ε} : Raises E (.error e : Except ε α) ↔ E e :=
  ⟨fun ⟨_, h, he⟩ ↦ Except.error.inj h ▸ he, fun h ↦ ⟨e, rfl, h⟩⟩

theorem raises_map {x : Except ε α} {f : α → β} : Raises E (x.map f) ↔ Raises E x := by
  cases x with
  | ok a => exact iff_of_false not_raises_ok not_raises_ok
  | error e => exact raises_error.trans raises_error.symm

theorem raises_mapError {ε' : Type u} {E : ε' → Prop} {x : Except ε α} {f : ε → ε'} :
    Raises E (x.mapError f) ↔ Raises (fun e ↦ E (f e)) x := by
  cases x with
  | ok a => exact iff_of_false not_raises_ok not_raises_ok
  | error e => exact raises_error.trans (raises_error (E := fun e ↦ E (f e))).symm

/-- A block raises at its first step, or at its second once the first has returned. -/
theorem raises_bind {x : Except ε α} {f : α → Except ε β} :
    Raises E (x >>= f) ↔ Raises E x ∨ ∃ a, x = .ok a ∧ Raises E (f a) := by
  cases x with
  | ok a =>
    constructor
    · exact fun h ↦ .inr ⟨a, rfl, h⟩
    · rintro (h | ⟨a', ha, h⟩)
      · exact absurd h not_raises_ok
      · cases ha
        exact h
  | error e =>
    constructor
    · exact fun h ↦ .inl (raises_error.mpr (raises_error.mp h))
    · rintro (h | ⟨a', ha, -⟩)
      · exact raises_error.mpr (raises_error.mp h)
      · cases ha

theorem raises_raiseIf {p : Prop} [Decidable p] {e : ε} : Raises E (raiseIf p e) ↔ p ∧ E e := by
  rw [raiseIf]
  split
  case isTrue hp => exact raises_error.trans (iff_and_self.mpr fun _ ↦ hp)
  case isFalse hp => exact iff_of_false not_raises_ok fun h ↦ hp h.1

/-- Nothing is raised but what is as required. -/
theorem not_raises_iff {x : Except ε α} : ¬Raises (fun e ↦ ¬E e) x ↔ RaisesOnly E x := by
  constructor
  · exact fun h e he ↦ by_contra fun hE ↦ h ⟨e, he, hE⟩
  · rintro h ⟨e, he, hE⟩
    exact hE (h e he)

end Raises

end EventHorizon
