import Mathlib.Algebra.Group.Nat.Defs
import Mathlib.Data.List.Induction

/-!
# Reading octets

A reader takes a value from the front of what is left of some octets, or it fails. `Reads` says that
it is exact: it takes what the octets at the front encode, and it fails when they are no encoding.

Numbers are octets in big-endian order.
-/

namespace EventHorizon

/-! ## Big-endian numbers -/

namespace BigEndian

/-- The number that octets are. -/
def ofBytes (bytes : List UInt8) : ℕ := bytes.foldl (fun n b ↦ n * 256 + b.toNat) 0

/-- A number as so many octets. -/
def toBytes : ℕ → ℕ → List UInt8
  | 0, _ => []
  | width + 1, n => toBytes width (n / 256) ++ [UInt8.ofNat n]

variable {width n : ℕ} {bytes : List UInt8}

@[simp] theorem length_toBytes : (toBytes width n).length = width := by
  induction width generalizing n with
  | zero => rfl
  | succ width ih => rw [toBytes, List.length_append, ih]; rfl

theorem ofBytes_append (b : UInt8) : ofBytes (bytes ++ [b]) = ofBytes bytes * 256 + b.toNat := by
  rw [ofBytes, List.foldl_append]
  rfl

theorem ofBytes_toBytes (h : n < 256 ^ width) : ofBytes (toBytes width n) = n := by
  induction width generalizing n with
  | zero => rw [Nat.lt_one_iff.mp h]; rfl
  | succ width ih =>
    have hdiv : n / 256 < 256 ^ width := Nat.div_lt_of_lt_mul (by rwa [Nat.pow_succ'] at h)
    rw [toBytes, ofBytes_append, ih hdiv, UInt8.toNat_ofNat']
    omega

theorem ofBytes_lt (bytes : List UInt8) : ofBytes bytes < 256 ^ bytes.length := by
  induction bytes using List.reverseRecOn with
  | nil => exact Nat.one_pos
  | append_singleton bytes b ih =>
    have hb := b.toNat_lt
    rw [ofBytes_append, List.length_append, List.length_singleton, Nat.pow_succ]
    omega

theorem toBytes_ofBytes (bytes : List UInt8) : toBytes bytes.length (ofBytes bytes) = bytes := by
  induction bytes using List.reverseRecOn with
  | nil => rfl
  | append_singleton bytes b ih =>
    have hb := b.toNat_lt
    have hdiv : (ofBytes bytes * 256 + b.toNat) / 256 = ofBytes bytes := by omega
    have hmod : UInt8.ofNat (ofBytes bytes * 256 + b.toNat) = b := by
      refine UInt8.toNat_inj.mp ?_
      rw [UInt8.toNat_ofNat']
      omega
    rw [List.length_append, List.length_singleton, toBytes, ofBytes_append, hdiv, ih, hmod]

/-- Octets of a given length are those of their number. -/
theorem eq_toBytes (h : bytes.length = width) : bytes = toBytes width (ofBytes bytes) := by
  rw [← h, toBytes_ofBytes]

end BigEndian

/-! ## Exact readers -/

variable {α β γ ε : Type*}

/-- A reader of values from the front of a list. -/
abbrev Reader (β ε γ : Type*) := List β → Except ε (γ × List β)

/-- The reader takes `c` exactly when the list begins with `enc a` for some `a` that has `P` and of
which `c` is the value. -/
def Reads (p : Reader β ε γ) (value : α → γ) (enc : α → List β) (P : α → Prop) : Prop :=
  ∀ {xs rest : List β} {c : γ}, p xs = .ok (c, rest) ↔ ∃ a, P a ∧ value a = c ∧ xs = enc a ++ rest

/-- What comes after a reader. -/
def readThen {δ : Type*} (r : Except ε (γ × List β)) (f : γ → List β → Except ε δ) : Except ε δ :=
  match r with
  | .error e => .error e
  | .ok (c, rest) => f c rest

theorem readThen_eq_ok {δ : Type*} {r : Except ε (γ × List β)}
    {f : γ → List β → Except ε δ} {d : δ} :
    readThen r f = .ok d ↔ ∃ c rest, r = .ok (c, rest) ∧ f c rest = .ok d := by
  cases r with
  | error e => exact iff_of_false (fun h ↦ nomatch h) fun ⟨_, _, h, _⟩ ↦ nomatch h
  | ok r =>
    refine ⟨fun h ↦ ⟨r.1, r.2, rfl, h⟩, ?_⟩
    rintro ⟨c, rest, h, hf⟩
    rw [Except.ok.inj h]
    exact hf

theorem readThen_ne_error {δ : Type*} {r : Except ε (γ × List β)}
    {f : γ → List β → Except ε δ} {e : ε}
    (hr : r ≠ .error e) (hf : ∀ c rest, r = .ok (c, rest) → f c rest ≠ .error e) :
    readThen r f ≠ .error e := by
  cases r with
  | error e' => exact fun h ↦ hr (congrArg _ (Except.error.inj h))
  | ok r => exact hf r.1 r.2 rfl

/-- So many values, one after the other. -/
def readTimes (p : Reader β ε γ) : ℕ → Reader β ε (List γ)
  | 0, xs => .ok ([], xs)
  | n + 1, xs =>
    readThen (p xs) fun c rest ↦
    readThen (readTimes p n rest) fun cs rest ↦
      .ok (c :: cs, rest)

theorem readTimes_ne_error {p : Reader β ε γ} {e : ε} (h : ∀ xs, p xs ≠ .error e) (n : ℕ) :
    ∀ xs, readTimes p n xs ≠ .error e := by
  induction n with
  | zero => exact fun _ h ↦ nomatch h
  | succ n ih =>
    intro xs
    rw [readTimes]
    exact readThen_ne_error (h xs) fun _ _ _ ↦ readThen_ne_error (ih _) fun _ _ _ h ↦ nomatch h

theorem Reads.times {p : Reader β ε γ} {value : α → γ} {enc : α → List β} {P : α → Prop}
    (h : Reads p value enc P) (n : ℕ) :
    Reads (readTimes p n) (List.map value) (fun as ↦ as.flatMap enc)
      fun as ↦ as.length = n ∧ ∀ a ∈ as, P a := by
  induction n with
  | zero =>
    intro xs rest cs
    rw [readTimes, Except.ok.injEq, Prod.mk.injEq]
    constructor
    · rintro ⟨rfl, rfl⟩
      exact ⟨[], ⟨rfl, fun _ h ↦ nomatch h⟩, rfl, rfl⟩
    · rintro ⟨as, ⟨hlength, -⟩, rfl, rfl⟩
      rw [List.length_eq_zero_iff.mp hlength]
      exact ⟨rfl, rfl⟩
  | succ n ih =>
    intro xs rest cs
    rw [readTimes, readThen_eq_ok]
    constructor
    · rintro ⟨c, _, hc, hok⟩
      obtain ⟨cs, _, hcs, hok⟩ := readThen_eq_ok.mp hok
      cases hok
      obtain ⟨a, hP, rfl, rfl⟩ := h.mp hc
      obtain ⟨as, ⟨hlength, hPs⟩, rfl, rfl⟩ := ih.mp hcs
      refine ⟨a :: as, ⟨congrArg _ hlength, List.forall_mem_cons.mpr ⟨hP, hPs⟩⟩, rfl, ?_⟩
      dsimp only
      rw [List.flatMap_cons, List.append_assoc]
    · rintro ⟨as, ⟨hlength, hPs⟩, rfl, rfl⟩
      obtain ⟨a, as, rfl⟩ := List.exists_cons_of_length_eq_add_one hlength
      obtain ⟨hP, hPs⟩ := List.forall_mem_cons.mp hPs
      dsimp only
      rw [List.flatMap_cons, List.append_assoc]
      exact ⟨_, _, h.mpr ⟨a, hP, rfl, rfl⟩, readThen_eq_ok.mpr
        ⟨_, _, ih.mpr ⟨as, ⟨Nat.succ.inj hlength, hPs⟩, rfl, rfl⟩, rfl⟩⟩

end EventHorizon
