import Mathlib.Data.Finset.Card
import Mathlib.Data.Finset.Lattice.Basic

/-!
# Majorities of a finite membership

A set of members is a majority when it is larger than half of the membership, rounded down: the
test a counter `votes > n / 2` makes. Any two majorities share a member.
-/

namespace EventHorizon

variable {ι : Type*}

/-- `Q` is a set of members larger than half of them. -/
def IsMajority (M Q : Finset ι) : Prop := Q ⊆ M ∧ M.card / 2 < Q.card

/-- The members with property `P` include a majority. -/
def HasMajority (M : Finset ι) (P : ι → Prop) : Prop := ∃ Q, IsMajority M Q ∧ ∀ i ∈ Q, P i

theorem IsMajority.inter_nonempty [DecidableEq ι] {M Q R : Finset ι} (hQ : IsMajority M Q)
    (hR : IsMajority M R) :
    ∃ i, i ∈ Q ∧ i ∈ R := by
  have hcard : M.card < Q.card + R.card := by
    have h₁ := hQ.2
    have h₂ := hR.2
    omega
  obtain ⟨i, hi⟩ := Finset.inter_nonempty_of_card_lt_card_add_card hQ.1 hR.1 hcard
  exact ⟨i, Finset.mem_inter.mp hi⟩

/-- Two properties that each hold of a majority hold together of some member. -/
theorem HasMajority.exists_and [DecidableEq ι] {M : Finset ι} {P R : ι → Prop}
    (hP : HasMajority M P)
    (hR : HasMajority M R) : ∃ i ∈ M, P i ∧ R i := by
  obtain ⟨Q, hQ, hQP⟩ := hP
  obtain ⟨S, hS, hSR⟩ := hR
  obtain ⟨i, hiQ, hiS⟩ := hQ.inter_nonempty hS
  exact ⟨i, hQ.1 hiQ, hQP i hiQ, hSR i hiS⟩

theorem HasMajority.imp {M : Finset ι} {P R : ι → Prop} (hP : HasMajority M P)
    (h : ∀ i, P i → R i) : HasMajority M R := by
  obtain ⟨Q, hQ, hQP⟩ := hP
  exact ⟨Q, hQ, fun i hi ↦ h i (hQP i hi)⟩

end EventHorizon
