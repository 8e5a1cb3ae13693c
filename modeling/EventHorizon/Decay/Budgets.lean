import EventHorizon.Decay.Runs

/-!
# Remaining budgets

An authority has a number of calls and of bytes left. After a call the engine takes the recorded use
off the initial budget and caps the result by the steps that are reached. While the initial budget
is what bounds the remainder, or a newly reached cap takes at least as much as the call uses, every
use is charged and a stored remainder bounds all later use. A cap that stays in force is not
charged: it is applied again after each call. Whether the bytes of a call are left is not checked at
all.
-/

namespace EventHorizon.Decay

/-- A remainder pays for an amount: nothing is taken, or the amount is left and the initial budget
bounds the remainder, or a cap is lower by the amount. -/
def Charges (initial used remaining amount : ℤ) (caps : List (Option ℤ)) : Prop :=
  amount = 0 ∨ amount ≤ remaining ∧ initial - used ≤ remaining ∨
    ∃ cap ∈ caps, ∃ m ∈ cap, m + amount ≤ remaining

theorem Charges.add_le {initial used remaining amount : ℤ} {caps : List (Option ℤ)}
    (h : Charges initial used remaining amount caps)
    (hle : min (capped initial caps) (max 0 (initial - (used + amount))) ≤ remaining) :
    min (capped initial caps) (max 0 (initial - (used + amount))) + amount ≤ remaining := by
  obtain rfl | ⟨hleft, hbudget⟩ | ⟨cap, hcap, m, hm, hle'⟩ := h
  · omega
  · omega
  · have hm' : capped initial caps ≤ m :=
      (le_capped_iff.mp (le_refl (capped initial caps))).2 cap hcap m hm
    omega

section Budgets

variable [Platform] {σ : Type}

/-- What is used between two states is taken off what is left. -/
structure DecayState.Pays (p q : DecayState) : Prop where
  calls : q.currentAuthority.remainingCalls + (q.counters.useCount - p.counters.useCount) ≤
    p.currentAuthority.remainingCalls
  read : q.currentAuthority.remainingReadBytes + (q.counters.readBytes - p.counters.readBytes) ≤
    p.currentAuthority.remainingReadBytes
  write : q.currentAuthority.remainingWriteBytes + (q.counters.writeBytes - p.counters.writeBytes) ≤
    p.currentAuthority.remainingWriteBytes

omit [Platform] in
theorem DecayState.Pays.refl (p : DecayState) : p.Pays p := by
  constructor <;> omega

omit [Platform] in
theorem DecayState.Pays.trans {p q r : DecayState} (h : p.Pays q) (h' : q.Pays r) : p.Pays r := by
  have := h.calls
  have := h.read
  have := h.write
  have := h'.calls
  have := h'.read
  have := h'.write
  constructor <;> omega

namespace Session

variable (S : Session σ)

/-- The calls that are authorised after a list of calls. -/
def further (earlier later : List Call) : List Call :=
  (S.authorised (earlier ++ later)).drop (S.authorised earlier).length

/-- What is left in a stored state bounds all later use. -/
def BudgetsBound (calls : List Call) : Prop :=
  ∀ earlier later, calls = earlier ++ later → ∀ p ∈ S.state earlier,
    ((S.further earlier later).length : ℤ) ≤ p.currentAuthority.remainingCalls ∧
    ((S.further earlier later).map (·.observation.readBytes)).sum ≤
      p.currentAuthority.remainingReadBytes ∧
    ((S.further earlier later).map (·.observation.writeBytes)).sum ≤
      p.currentAuthority.remainingWriteBytes

/-- The steps that a call reaches, the call itself counted as a use. -/
def stepsReached (earlier : List Call) (call : Call) : List DecayStep :=
  reached S.profile.steps ((observed call (S.state earlier)).use.reading
    (elapsedMs S.issuedAtMs call.nowMs (S.state earlier)))

/-- The stored remainders pay for a call, if it is authorised. -/
def PaysFor (earlier : List Call) (call : Call) : Prop :=
  (∃ digest s, Admits S.store S.capabilityId S.profile.toProfileFields S.issuedAtMs
    (S.run earlier).store (S.state earlier) call digest s) →
  ∀ p ∈ S.state earlier,
    Charges S.profile.initialAuthority.remainingCalls p.counters.useCount
      p.currentAuthority.remainingCalls 1 ((S.stepsReached earlier call).map (·.maximumCalls)) ∧
    Charges S.profile.initialAuthority.remainingReadBytes p.counters.readBytes
      p.currentAuthority.remainingReadBytes call.observation.readBytes
      ((S.stepsReached earlier call).map (·.maximumReadBytes)) ∧
    Charges S.profile.initialAuthority.remainingWriteBytes p.counters.writeBytes
      p.currentAuthority.remainingWriteBytes call.observation.writeBytes
      ((S.stepsReached earlier call).map (·.maximumWriteBytes))

variable {S} {calls earlier later : List Call} {call : Call}

/-- One authorised call. -/
theorem PaysFor.pays (h : S.PaysFor earlier call) {result : σ × DecayEvaluation}
    (hok : S.attempt earlier call = .ok result) {p : DecayState} (hp : p ∈ S.state earlier) :
    p.Pays result.2.resultingState := by
  obtain ⟨digest, hadmits, hev⟩ := attempt_eq_ok.mp hok
  obtain ⟨hcalls, hread, hwrite⟩ := h ⟨digest, result.1, hadmits⟩ p hp
  have hgrows := grows_of_authorize (S.tallied earlier).load (S.tallied earlier).recorded hok hp
  have hwithin := hgrows.currentAuthority
  have hstate := Option.mem_def.mp hp
  simp only [stepsReached] at hcalls hread hwrite
  rw [hev, hstate] at hwithin ⊢
  rw [hstate] at hcalls hread hwrite
  -- the counters grow by what the call uses
  have hpays : ∀ {left used amount remaining : ℤ}, left + amount ≤ remaining →
      left + (used + amount - used) ≤ remaining := by
    intro left used amount remaining hle
    omega
  exact ⟨hpays (hcalls.add_le hwithin.remainingCalls),
    hpays (hread.add_le hwithin.remainingReadBytes),
    hpays (hwrite.add_le hwithin.remainingWriteBytes)⟩

theorem exists_pays (h : Throughout S.PaysFor (earlier ++ later)) {p : DecayState}
    (hp : p ∈ S.state earlier) : ∃ q ∈ S.state (earlier ++ later), p.Pays q := by
  induction later using List.reverseRecOn with
  | nil => exact ⟨p, by rwa [List.append_nil], .refl p⟩
  | append_singleton later call ih =>
    rw [← List.append_assoc] at h ⊢
    obtain ⟨q, hq, hpays⟩ := ih h.left
    cases hattempt : S.attempt (earlier ++ later) call with
    | ok result =>
      exact ⟨_, (authorised_append hattempt).2, hpays.trans (h.last.pays hattempt hq)⟩
    | error e => exact ⟨q, (refused_append hattempt).2 ▸ hq, hpays⟩

theorem authorised_eq_append (S : Session σ) (earlier later : List Call) :
    S.authorised (earlier ++ later) = S.authorised earlier ++ S.further earlier later := by
  have hpre : S.authorised earlier <+: S.authorised (earlier ++ later) := by
    induction later using List.reverseRecOn with
    | nil => simp
    | append_singleton later call ih =>
      rw [← List.append_assoc]
      cases hattempt : S.attempt (earlier ++ later) call with
      | ok result =>
        rw [(authorised_append hattempt).1]
        exact ih.trans (List.prefix_append _ _)
      | error e => rwa [(refused_append hattempt).1]
  obtain ⟨rest, hrest⟩ := hpre
  rw [further, ← hrest, List.drop_left]

/-- When every call is paid for, what is left in a stored state bounds all later use. -/
theorem budgetsBound_of_paysFor (h : Throughout S.PaysFor calls) : S.BudgetsBound calls := by
  rintro earlier later rfl p hp
  obtain ⟨q, hq, hpays⟩ := exists_pays h hp
  have hvalid := ((S.tallied (earlier ++ later)).recorded q hq).valid
  have hbefore := (S.tallied earlier).counters
  have hafter := (S.tallied (earlier ++ later)).counters
  rw [Option.mem_def.mp hp, countersOf] at hbefore
  rw [Option.mem_def.mp hq, countersOf, authorised_eq_append] at hafter
  have hcalls := hpays.calls
  have hread := hpays.read
  have hwrite := hpays.write
  rw [hbefore, hafter] at hcalls hread hwrite
  simp only [Counters.tally, List.length_append, List.map_append,
    List.sum_append] at hcalls hread hwrite
  have := hvalid.remainingCalls.1
  have := hvalid.remainingReadBytes.1
  have := hvalid.remainingWriteBytes.1
  refine ⟨?_, ?_, ?_⟩ <;> omega

end Session

end Budgets

namespace Sample

attribute [local instance] pythonPlatform

theorem plain_state : ∃ digest, (session plain).state [reading 0 1001] =
    some (record "cap-1" digest plain.toProfileFields 1000 (reading 0 1001) none) := by
  have hpermits : (judged plain.toProfileFields 1000 (reading 0 1001) none).permits
      (reading 0 1001).request 1001 = true := by decide +kernel
  obtain ⟨digest, s, hattempt⟩ :=
    plain_attempt (Session.state_nil _) (by decide) (by decide) hpermits
    (by decide)
  exact ⟨digest, (Session.authorised_append hattempt).2⟩

end Sample

theorem budgetsBound_of_paysFor_half :
    let _ := pythonPlatform
    Throughout (Sample.session Sample.plain).PaysFor
        [Sample.reading 0 1001, Sample.reading 5 1002] ∧
      (Sample.session Sample.plain).BudgetsBound
      [Sample.reading 0 1001, Sample.reading 5 1002] := by
  intro _
  obtain ⟨digest, hstate⟩ := Sample.plain_state
  have hfirst : (Sample.session Sample.plain).PaysFor [] (Sample.reading 0 1001) := by
    intro _ p hp
    rw [Session.state_nil] at hp
    exact nomatch hp
  have hsecond : (Sample.session Sample.plain).PaysFor [Sample.reading 0 1001]
      (Sample.reading 5 1002) := by
    intro _ p hp
    obtain rfl := Option.some.inj (hstate.symm.trans hp)
    have hcharge : Charges 10 1 9 1 [] ∧ Charges 10 0 10 5 [] ∧ Charges 10 0 10 0 [] :=
      ⟨.inr (.inl (by decide)), .inr (.inl (by decide)), .inl rfl⟩
    exact hcharge
  have hpays := (Throughout.nil.append hfirst).append hsecond
  exact ⟨hpays, Session.budgetsBound_of_paysFor hpays⟩

/-- A second call reads more than is left. -/
theorem budgetsBound_fails_overdrawn :
    let _ := pythonPlatform
    ¬(Sample.session Sample.plain).BudgetsBound
      [Sample.reading 0 1001, Sample.reading 20 1002] := by
  intro _ h
  obtain ⟨digest, hstate⟩ := Sample.plain_state
  have hpermits : (judged Sample.plain.toProfileFields 1000 (Sample.reading 20 1002)
      (some (record "cap-1" "" Sample.plain.toProfileFields 1000 (Sample.reading 0 1001)
        none))).permits (Sample.reading 20 1002).request 1002 = true := by decide +kernel
  have hnumbers : ∀ n ∈ (record "cap-1" "" Sample.plain.toProfileFields 1000
      (Sample.reading 20 1002) (some (record "cap-1" "" Sample.plain.toProfileFields 1000
        (Sample.reading 0 1001) none))).numbers, 0 ≤ n ∧ n ≤ maxSafeInteger := by decide
  obtain ⟨digest', s, hattempt⟩ := Sample.plain_attempt hstate (by decide) (by decide) hpermits
    hnumbers
  obtain ⟨-, hread, -⟩ := h [Sample.reading 0 1001] [Sample.reading 20 1002] rfl _ hstate
  have hfurther : (Sample.session Sample.plain).further [Sample.reading 0 1001]
      [Sample.reading 20 1002] = [Sample.reading 20 1002] := by
    rw [Session.further, show [Sample.reading 0 1001] ++ [Sample.reading 20 1002] = _ from rfl,
      (Session.authorised_append hattempt).1, List.drop_left]
  rw [hfurther] at hread
  exact absurd hread (by decide : ¬(20 : ℤ) ≤ 10)

end EventHorizon.Decay
