import EventHorizon.Decay.Engine

/-!
# One transition of the decay engine

Applying the steps that are reached has a closed form: what is left of each collection is what no
reached step removes, and what is left of each number is its least cap. The recorded authority is
the closed form of the recorded counters, with the recorded use taken off the initial budgets. One
transition keeps this, although it applies the steps twice and to an authority that is already
reduced: the counters only grow, so the steps that were reached are reached again.
-/

namespace EventHorizon.Decay

open Policy (keysOf ActionRequest)

/-! ## Applying steps -/

/-- The steps whose counter is at their threshold. -/
def reached (steps : List DecayStep) (reading : Trigger → ℤ) : List DecayStep :=
  steps.filter fun step ↦ step.threshold ≤ reading step.trigger

theorem mem_reached {steps : List DecayStep} {reading : Trigger → ℤ} {step : DecayStep} :
    step ∈ reached steps reading ↔ step ∈ steps ∧ step.threshold ≤ reading step.trigger := by
  simp [reached]

/-- More is reached by larger counters. -/
theorem reached_subset {steps : List DecayStep} {reading reading' : Trigger → ℤ}
    (h : ∀ trigger, reading trigger ≤ reading' trigger) :
    reached steps reading ⊆ reached steps reading' := by
  intro step hstep
  obtain ⟨hmem, hle⟩ := mem_reached.mp hstep
  exact mem_reached.mpr ⟨hmem, le_trans hle (h _)⟩

/-- The expiration a step asks for. -/
def DecayStep.expiration (issuedAtMs : ℤ) (step : DecayStep) : Option ℤ :=
  step.shortenExpirationToMs.map (issuedAtMs + ·)

namespace DecayAuthority

/-- An authority after a list of steps. -/
def reduced (a : DecayAuthority) (steps : List DecayStep) (issuedAtMs : ℤ) : DecayAuthority where
  expiresAtMs := capped a.expiresAtMs (steps.map (DecayStep.expiration issuedAtMs))
  remainingCalls := capped a.remainingCalls (steps.map (·.maximumCalls))
  remainingReadBytes := capped a.remainingReadBytes (steps.map (·.maximumReadBytes))
  remainingWriteBytes := capped a.remainingWriteBytes (steps.map (·.maximumWriteBytes))
  networkDestinations := without a.networkDestinations (steps.map (·.removeNetworkDestinations))
  tools := without a.tools (steps.map (·.removeTools))
  actions := without a.actions (steps.map (·.removeActions))
  resources := without a.resources (steps.map (·.removeResources))
  argumentRanges := a.argumentRanges
  maximumParallelism := capped a.maximumParallelism (steps.map (·.maximumParallelism))
  maximumEffectSeverity := capped a.maximumEffectSeverity (steps.map (·.maximumEffectSeverity))

/-- An authority with the use that the counters record taken off the initial budgets. -/
def spent (initial : DecayAuthority) (c : Counters) (a : DecayAuthority) : DecayAuthority :=
  { a with
    remainingCalls := min a.remainingCalls (max 0 (initial.remainingCalls - c.useCount))
    remainingReadBytes :=
      min a.remainingReadBytes (max 0 (initial.remainingReadBytes - c.readBytes))
    remainingWriteBytes :=
      min a.remainingWriteBytes (max 0 (initial.remainingWriteBytes - c.writeBytes)) }

variable {a b : DecayAuthority} {steps steps' : List DecayStep} {step : DecayStep} {issuedAtMs : ℤ}

theorem reduced_nil : a.reduced [] issuedAtMs = a := by
  simp [reduced, without_nil, capped_nil]

theorem reduced_cons :
    (a.reduced [step] issuedAtMs).reduced steps issuedAtMs =
    a.reduced (step :: steps) issuedAtMs := by
  have hone : ∀ (xs ys : List String) (zss : List (List String)),
      without (without xs [ys]) zss = without xs (ys :: zss) := by
    intro xs ys zss
    rw [without_cons, without_nil, without_cons]
  simp only [reduced, List.map_cons, List.map_nil, hone]
  rfl

/-- The steps of an authority are reductions: the order and the number of them do not matter. -/
theorem reduced_congr (h : ∀ step, step ∈ steps ↔ step ∈ steps') :
    a.reduced steps issuedAtMs = a.reduced steps' issuedAtMs := by
  have hmem : ∀ {β : Type} (f : DecayStep → β) (b : β), b ∈ steps.map f ↔ b ∈ steps'.map f := by
    intro β f b
    simp only [List.mem_map, h]
  have hwithout : ∀ (f : DecayStep → List String) (xs : List String),
      without xs (steps.map f) = without xs (steps'.map f) := fun f xs ↦ without_congr (hmem f)
  have hcapped : ∀ (f : DecayStep → Option ℤ) (n : ℤ),
      capped n (steps.map f) = capped n (steps'.map f) := fun f n ↦ capped_congr (hmem f)
  simp only [reduced, hwithout, hcapped]

theorem capWith_nonneg {n : ℤ} {c : Option ℤ} (hn : 0 ≤ n) (hc : ∀ m ∈ c, 0 ≤ m) :
    0 ≤ capWith n c :=
  le_capWith_iff.mpr ⟨hn, hc⟩

theorem capWith_le {n : ℤ} {c : Option ℤ} : capWith n c ≤ n := (le_capWith_iff.mp le_rfl).1

theorem Normal.reduced (h : a.Normal) : (a.reduced steps issuedAtMs).Normal where
  networkDestinations := h.networkDestinations.sublist without_sublist
  tools := h.tools.sublist without_sublist
  actions := h.actions.sublist without_sublist
  resources := h.resources.sublist without_sublist
  argumentRanges := h.argumentRanges

theorem applyStep_eq : applyStep a step issuedAtMs = (a.reduced [step] issuedAtMs).postInit := by
  have hfilter : ∀ (xs ys : List String), xs.filter (· ∉ ys) = without xs [ys] := by
    intro xs ys
    rw [without_cons, without_nil]
  simp only [applyStep, hfilter]
  rfl

/-- A step applies to an authority unless it moves the expiration before time zero. -/
theorem applyStep_eq_ok (ha : a.Valid) (hs : step.Valid) : applyStep a step issuedAtMs = .ok b ↔
    (∀ n ∈ step.expiration issuedAtMs, 0 ≤ n) ∧ b = a.reduced [step] issuedAtMs := by
  have hbounds : ∀ {n : ℤ} {c : Option ℤ}, 0 ≤ n ∧ n ≤ maxSafeInteger → (∀ m ∈ c, 0 ≤ m) →
      0 ≤ capped n [c] ∧ capped n [c] ≤ maxSafeInteger :=
    fun hn hc ↦ ⟨capWith_nonneg hn.1 hc, le_trans capWith_le hn.2⟩
  rw [applyStep_eq, postInit_eq_ok ha.normal.reduced]
  refine and_congr ⟨fun h n hn ↦ ?_, fun h ↦ ?_⟩ Iff.rfl
  · exact (le_capWith_iff.mp h.expiresAtMs.1).2 n hn
  · exact {
      expiresAtMs := hbounds ha.expiresAtMs h
      remainingCalls := hbounds ha.remainingCalls hs.maximumCalls
      remainingReadBytes := hbounds ha.remainingReadBytes hs.maximumReadBytes
      remainingWriteBytes := hbounds ha.remainingWriteBytes hs.maximumWriteBytes
      maximumParallelism := hbounds ha.maximumParallelism hs.maximumParallelism
      maximumEffectSeverity := hbounds ha.maximumEffectSeverity hs.maximumEffectSeverity
      severity_le := le_trans capWith_le ha.severity_le
      networkDestinations := ha.networkDestinations.sublist without_sublist
      tools := ha.tools.sublist without_sublist
      actions := ha.actions.sublist without_sublist
      resources := ha.resources.sublist without_sublist
      argumentRanges := ha.argumentRanges }

theorem valid_of_applyStep (ha : a.Valid) (h : applyStep a step issuedAtMs = .ok b) : b.Valid := by
  rw [applyStep_eq, postInit_eq_ok ha.normal.reduced] at h
  exact h.2 ▸ h.1

theorem applySteps_cons {reading : Trigger → ℤ} : applySteps (step :: steps) reading issuedAtMs a =
    (if step.threshold ≤ reading step.trigger then applyStep a step issuedAtMs else .ok a) >>=
      applySteps steps reading issuedAtMs := rfl

/-- The loop over the steps of a profile. -/
theorem applySteps_eq_ok {reading : Trigger → ℤ} (ha : a.Valid) (hs : ∀ step ∈ steps, step.Valid) :
    applySteps steps reading issuedAtMs a = .ok b ↔
      (∀ step ∈ reached steps reading, ∀ n ∈ step.expiration issuedAtMs, 0 ≤ n) ∧
        b = a.reduced (reached steps reading) issuedAtMs := by
  induction steps generalizing a with
  | nil =>
    rw [applySteps, List.foldlM_nil, reached, List.filter_nil, reduced_nil]
    exact ⟨fun h ↦ ⟨by simp, (Except.ok.inj h).symm⟩, fun h ↦ h.2 ▸ rfl⟩
  | cons step steps ih =>
    obtain ⟨hstep, hs⟩ := List.forall_mem_cons.mp hs
    rw [applySteps_cons]
    by_cases hreached : step.threshold ≤ reading step.trigger
    · have hcons : reached (step :: steps) reading = step :: reached steps reading :=
        List.filter_cons_of_pos (by simpa using hreached)
      rw [if_pos hreached, hcons, List.forall_mem_cons, bind_eq_ok]
      constructor
      · rintro ⟨c, hc, h⟩
        have hvalid := valid_of_applyStep ha hc
        obtain ⟨hexp, rfl⟩ := (applyStep_eq_ok ha hstep).mp hc
        obtain ⟨hrest, rfl⟩ := (ih hvalid hs).mp h
        exact ⟨⟨hexp, hrest⟩, reduced_cons⟩
      · rintro ⟨⟨hexp, hrest⟩, rfl⟩
        have hc := (applyStep_eq_ok ha hstep).mpr ⟨hexp, rfl⟩
        exact ⟨_, hc, (ih (valid_of_applyStep ha hc) hs).mpr ⟨hrest, reduced_cons.symm⟩⟩
    · have hcons : reached (step :: steps) reading = reached steps reading :=
        List.filter_cons_of_neg (by simpa using hreached)
      rw [if_neg hreached, hcons]
      exact ih ha hs

theorem valid_of_applySteps {reading : Trigger → ℤ} (ha : a.Valid)
    (h : applySteps steps reading issuedAtMs a = .ok b) : b.Valid := by
  induction steps generalizing a with
  | nil => exact Except.ok.inj h ▸ ha
  | cons step steps ih =>
    rw [applySteps_cons] at h
    obtain ⟨c, hc, h⟩ := bind_eq_ok.mp h
    refine ih (a := c) ?_ h
    by_cases hreached : step.threshold ≤ reading step.trigger
    · rw [if_pos hreached] at hc
      exact valid_of_applyStep ha hc
    · rw [if_neg hreached] at hc
      exact Except.ok.inj hc ▸ ha

theorem Normal.spent {initial : DecayAuthority} {c : Counters} (h : a.Normal) :
    (spent initial c a).Normal := { h with }

/-- Taking off the use never fails. -/
theorem spend_eq_ok {initial : DecayAuthority} {c : Counters} (ha : a.Valid) :
    spend initial c a = .ok b ↔ b = spent initial c a := by
  have hbounds : ∀ {n m : ℤ}, 0 ≤ n ∧ n ≤ maxSafeInteger →
      0 ≤ min n (max 0 m) ∧ min n (max 0 m) ≤ maxSafeInteger := by
    intro n m h
    omega
  have hvalid : (spent initial c a).Valid := { ha with
    remainingCalls := hbounds ha.remainingCalls
    remainingReadBytes := hbounds ha.remainingReadBytes
    remainingWriteBytes := hbounds ha.remainingWriteBytes }
  have hspend : spend initial c a = (spent initial c a).postInit := rfl
  rw [hspend, postInit_eq_ok ha.normal.spent]
  exact and_iff_right hvalid

theorem valid_spent {initial : DecayAuthority} {c : Counters} (ha : a.Valid) :
    (spent initial c a).Valid := by
  have h : spend initial c a = .ok (spent initial c a) := (spend_eq_ok ha).mpr rfl
  have hspend : spend initial c a = (spent initial c a).postInit := rfl
  rw [hspend, postInit_eq_ok ha.normal.spent] at h
  exact h.1

/-! ## Containment -/

/-- `is_subset_of`, for authorities with the same argument ranges. -/
structure Within (a b : DecayAuthority) : Prop where
  expiresAtMs : a.expiresAtMs ≤ b.expiresAtMs
  remainingCalls : a.remainingCalls ≤ b.remainingCalls
  remainingReadBytes : a.remainingReadBytes ≤ b.remainingReadBytes
  remainingWriteBytes : a.remainingWriteBytes ≤ b.remainingWriteBytes
  maximumParallelism : a.maximumParallelism ≤ b.maximumParallelism
  maximumEffectSeverity : a.maximumEffectSeverity ≤ b.maximumEffectSeverity
  networkDestinations : a.networkDestinations ⊆ b.networkDestinations
  tools : a.tools ⊆ b.tools
  actions : a.actions ⊆ b.actions
  resources : a.resources ⊆ b.resources
  argumentRanges : a.argumentRanges = b.argumentRanges

theorem Within.isSubsetOf (h : a.Within b) (hb : b.Normal) : a.isSubsetOf b = true := by
  have hnodup : (b.argumentRanges.map Prod.fst).Nodup :=
    hb.argumentRanges.imp fun hlt ↦ ne_of_lt hlt
  refine decide_eq_true ⟨h.expiresAtMs, h.remainingCalls, h.remainingReadBytes,
    h.remainingWriteBytes, h.maximumParallelism, h.maximumEffectSeverity, h.networkDestinations,
    h.tools, h.actions, h.resources, h.argumentRanges ▸ List.Subset.refl _, ?_⟩
  intro row hrow bounds hbounds
  rw [h.argumentRanges] at hrow
  have hget :=
      (Table.get?_eq_some_iff hnodup).mpr (show (row.1, row.2) ∈ b.argumentRanges from hrow)
  obtain rfl := Option.some.inj (hget.symm.trans hbounds)
  exact ⟨le_rfl, le_rfl⟩

theorem Within.refl (a : DecayAuthority) : a.Within a :=
  ⟨le_rfl, le_rfl, le_rfl, le_rfl, le_rfl, le_rfl, List.Subset.refl _, List.Subset.refl _,
    List.Subset.refl _, List.Subset.refl _, rfl⟩

theorem Within.trans {c : DecayAuthority} (h : a.Within b) (h' : b.Within c) : a.Within c where
  expiresAtMs := le_trans h.expiresAtMs h'.expiresAtMs
  remainingCalls := le_trans h.remainingCalls h'.remainingCalls
  remainingReadBytes := le_trans h.remainingReadBytes h'.remainingReadBytes
  remainingWriteBytes := le_trans h.remainingWriteBytes h'.remainingWriteBytes
  maximumParallelism := le_trans h.maximumParallelism h'.maximumParallelism
  maximumEffectSeverity := le_trans h.maximumEffectSeverity h'.maximumEffectSeverity
  networkDestinations := List.Subset.trans h.networkDestinations h'.networkDestinations
  tools := List.Subset.trans h.tools h'.tools
  actions := List.Subset.trans h.actions h'.actions
  resources := List.Subset.trans h.resources h'.resources
  argumentRanges := h.argumentRanges.trans h'.argumentRanges

/-- More steps leave less. -/
theorem reduced_within (h : steps' ⊆ steps) :
    (a.reduced steps issuedAtMs).Within (a.reduced steps' issuedAtMs) where
  expiresAtMs := capped_le_capped (List.map_subset _ h)
  remainingCalls := capped_le_capped (List.map_subset _ h)
  remainingReadBytes := capped_le_capped (List.map_subset _ h)
  remainingWriteBytes := capped_le_capped (List.map_subset _ h)
  maximumParallelism := capped_le_capped (List.map_subset _ h)
  maximumEffectSeverity := capped_le_capped (List.map_subset _ h)
  networkDestinations := without_subset (List.map_subset _ h)
  tools := without_subset (List.map_subset _ h)
  actions := without_subset (List.map_subset _ h)
  resources := without_subset (List.map_subset _ h)
  argumentRanges := rfl

theorem reduced_within_self : (a.reduced steps issuedAtMs).Within a := by
  have h : (a.reduced steps issuedAtMs).Within (a.reduced [] issuedAtMs) :=
    reduced_within (List.nil_subset steps)
  rwa [reduced_nil] at h

theorem spent_within {initial : DecayAuthority} {c : Counters} : (spent initial c a).Within a where
  expiresAtMs := le_rfl
  remainingCalls := min_le_left _ _
  remainingReadBytes := min_le_left _ _
  remainingWriteBytes := min_le_left _ _
  maximumParallelism := le_rfl
  maximumEffectSeverity := le_rfl
  networkDestinations := List.Subset.refl _
  tools := List.Subset.refl _
  actions := List.Subset.refl _
  resources := List.Subset.refl _
  argumentRanges := rfl

/-! ## The closed form -/

/-- The authority that a profile leaves at given counters. -/
def closedForm (profile : ProfileFields) (issuedAtMs : ℤ) (c : Counters) (elapsedMs : ℤ) :
    DecayAuthority :=
  spent profile.initialAuthority c
    (profile.initialAuthority.reduced (reached profile.steps (c.reading elapsedMs)) issuedAtMs)

theorem without_without {xs : List String} {R S T : List (List String)} (h : R ⊆ T) (h' : S ⊆ T) :
    without (without (without xs R) S) T = without xs T := by
  simp only [without, List.filter_filter]
  refine List.filter_congr fun x _ ↦ ?_
  rw [Bool.eq_iff_iff]
  simp only [Bool.and_eq_true, List.all_eq_true]
  exact ⟨fun hx ↦ hx.1, fun hx ↦ ⟨hx, fun ys hys ↦ hx ys (h' hys), fun ys hys ↦ hx ys (h hys)⟩⟩

theorem capped_capped {n u v : ℤ} {R S T : List (Option ℤ)} (h : R ⊆ T) (h' : S ⊆ T) (huv : v ≤ u) :
    min (capped (capped (min (capped n R) u) S) T) v = min (capped n T) v := by
  refine eq_of_forall_le_iff fun x ↦ ?_
  simp only [le_min_iff, le_capped_iff]
  constructor
  · rintro ⟨⟨⟨⟨⟨hn, -⟩, -⟩, -⟩, hT⟩, hv⟩
    exact ⟨⟨hn, hT⟩, hv⟩
  · rintro ⟨⟨hn, hT⟩, hv⟩
    exact ⟨⟨⟨⟨⟨hn, fun c hc ↦ hT c (h hc)⟩, le_trans hv huv⟩, fun c hc ↦ hT c (h' hc)⟩, hT⟩, hv⟩

theorem capped_capped_self {n : ℤ} {R S T : List (Option ℤ)} (h : R ⊆ T) (h' : S ⊆ T) :
    capped (capped (capped n R) S) T = capped n T := by
  refine eq_of_forall_le_iff fun x ↦ ?_
  simp only [le_capped_iff]
  constructor
  · rintro ⟨⟨⟨hn, -⟩, -⟩, hT⟩
    exact ⟨hn, hT⟩
  · rintro ⟨hn, hT⟩
    exact ⟨⟨⟨hn, fun c hc ↦ hT c (h hc)⟩, fun c hc ↦ hT c (h' hc)⟩, hT⟩

/-- Reducing an authority in closed form again, by more steps and for more use, gives the closed
form of the steps and the use. -/
theorem spent_reduced_reduced {initial : DecayAuthority} {c c' : Counters} {R S T : List DecayStep}
    (h : R ⊆ T) (h' : S ⊆ T) (huse : c.useCount ≤ c'.useCount) (hread : c.readBytes ≤ c'.readBytes)
    (hwrite : c.writeBytes ≤ c'.writeBytes) :
    spent initial c'
      (((spent initial c (initial.reduced R issuedAtMs)).reduced S issuedAtMs).reduced T
      issuedAtMs) = spent initial c' (initial.reduced T issuedAtMs) := by
  have hsub : ∀ {β : Type} (f : DecayStep → β), R.map f ⊆ T.map f := fun f ↦ List.map_subset f h
  have hsub' : ∀ {β : Type} (f : DecayStep → β), S.map f ⊆ T.map f := fun f ↦ List.map_subset f h'
  simp only [spent, reduced, mk.injEq]
  refine ⟨capped_capped_self (hsub _) (hsub' _), capped_capped (hsub _) (hsub' _) ?_,
    capped_capped (hsub _) (hsub' _) ?_, capped_capped (hsub _) (hsub' _) ?_,
    without_without (hsub _) (hsub' _), without_without (hsub _) (hsub' _),
    without_without (hsub _) (hsub' _), without_without (hsub _) (hsub' _), trivial,
    capped_capped_self (hsub _) (hsub' _), capped_capped_self (hsub _) (hsub' _)⟩ <;> omega

theorem spent_zero (ha : a.Valid) : spent a .zero (a.reduced [] issuedAtMs) = a := by
  have hmin : ∀ {n : ℤ}, 0 ≤ n → min n (max 0 (n - 0)) = n := by
    intro n hn
    omega
  rw [reduced_nil]
  simp only [spent, Counters.zero, hmin ha.remainingCalls.1, hmin ha.remainingReadBytes.1,
    hmin ha.remainingWriteBytes.1]

end DecayAuthority

/-! ## Counters -/

namespace Counters

/-- Every counter of the first is at most that of the second. -/
structure Le (c c' : Counters) : Prop where
  useCount : c.useCount ≤ c'.useCount
  readBytes : c.readBytes ≤ c'.readBytes
  writeBytes : c.writeBytes ≤ c'.writeBytes
  denials : c.denials ≤ c'.denials
  riskScore : c.riskScore ≤ c'.riskScore
  canaryEvents : c.canaryEvents ≤ c'.canaryEvents
  trustAgeMs : c.trustAgeMs ≤ c'.trustAgeMs
  policyAgeMs : c.policyAgeMs ≤ c'.policyAgeMs
  environmentChanges : c.environmentChanges ≤ c'.environmentChanges
  workloadRestarts : c.workloadRestarts ≤ c'.workloadRestarts

variable {c c' c'' : Counters} {o : Observation} {e e' : ℤ}

theorem Le.refl (c : Counters) : c.Le c :=
  ⟨le_rfl, le_rfl, le_rfl, le_rfl, le_rfl, le_rfl, le_rfl, le_rfl, le_rfl, le_rfl⟩

theorem Le.trans (h : c.Le c') (h' : c'.Le c'') : c.Le c'' where
  useCount := le_trans h.useCount h'.useCount
  readBytes := le_trans h.readBytes h'.readBytes
  writeBytes := le_trans h.writeBytes h'.writeBytes
  denials := le_trans h.denials h'.denials
  riskScore := le_trans h.riskScore h'.riskScore
  canaryEvents := le_trans h.canaryEvents h'.canaryEvents
  trustAgeMs := le_trans h.trustAgeMs h'.trustAgeMs
  policyAgeMs := le_trans h.policyAgeMs h'.policyAgeMs
  environmentChanges := le_trans h.environmentChanges h'.environmentChanges
  workloadRestarts := le_trans h.workloadRestarts h'.workloadRestarts

theorem Le.reading (h : c.Le c') (he : e ≤ e') (trigger : Trigger) :
    c.reading e trigger ≤ c'.reading e' trigger := by
  cases trigger with
  | elapsedMs => exact he
  | useCount => exact h.useCount
  | readBytes => exact h.readBytes
  | writeBytes => exact h.writeBytes
  | denials => exact h.denials
  | riskScore => exact h.riskScore
  | canaryEvents => exact h.canaryEvents
  | trustAgeMs => exact h.trustAgeMs
  | policyAgeMs => exact h.policyAgeMs
  | environmentChanges => exact h.environmentChanges
  | workloadRestarts => exact h.workloadRestarts

theorem le_use (c : Counters) : c.Le c.use := { Le.refl c with
  useCount := (by omega : c.useCount ≤ c.useCount + 1) }

end Counters

/-- The reported numbers are not negative. -/
structure Observation.Nonneg (o : Observation) : Prop where
  readBytes : 0 ≤ o.readBytes
  writeBytes : 0 ≤ o.writeBytes
  denials : 0 ≤ o.denials
  canaryEvents : 0 ≤ o.canaryEvents
  environmentChanges : 0 ≤ o.environmentChanges
  workloadRestarts : 0 ≤ o.workloadRestarts

theorem Observation.nonneg_of_check {o : Observation} (h : o.check = .ok ()) : o.Nonneg := by
  have hbind : ∀ {n : ℤ} {name : String} {β : Type} {f : ℤ → Except Exn β} {b : β},
      (nonnegative n name >>= f) = .ok b ↔ (0 ≤ n ∧ n ≤ maxSafeInteger) ∧ f n = .ok b :=
    nonnegative_bind_eq_ok
  simp only [check, hbind] at h
  obtain ⟨h1, h2, h3, -, h5, -, -, h8, h9⟩ := h
  exact ⟨h1.1, h2.1, h3.1, h5.1, h8.1, h9.1.1⟩

theorem Counters.le_observe (c : Counters) {o : Observation} (h : o.Nonneg) :
    c.Le (c.observe o) := by
  have hadd : ∀ {m n : ℤ}, 0 ≤ n → m ≤ m + n := by
    intro m n hn
    omega
  exact ⟨le_rfl, hadd h.readBytes, hadd h.writeBytes, hadd h.denials, le_max_left _ _,
    hadd h.canaryEvents, le_max_left _ _, le_max_left _ _, hadd h.environmentChanges,
    hadd h.workloadRestarts⟩

/-! ## The transition -/

section Transition

variable [Platform]

/-- The elapsed time a call counts with. -/
def elapsedMs (issuedAtMs nowMs : ℤ) (prior : Option DecayState) : ℤ :=
  max 0 (effectiveNow nowMs prior - issuedAtMs)

/-- The counters a call is judged by. -/
def observed (call : Call) (prior : Option DecayState) : Counters :=
  (countersOf prior).observe call.observation

/-- The authority a call is judged by. -/
def judged (profile : ProfileFields) (issuedAtMs : ℤ) (call : Call) (prior : Option DecayState) :
    DecayAuthority :=
  (authorityOf profile prior).reduced
    (reached profile.steps ((observed call prior).reading (elapsedMs issuedAtMs call.nowMs prior)))
    issuedAtMs

/-- The state a call leaves. -/
def record (capabilityId profileDigest : String) (profile : ProfileFields) (issuedAtMs : ℤ)
    (call : Call) (prior : Option DecayState) : DecayState where
  capabilityId := capabilityId
  profileDigest := profileDigest
  maxObservedTimeMs := effectiveNow call.nowMs prior
  counters := (observed call prior).use
  currentAuthority := DecayAuthority.closedForm profile issuedAtMs (observed call prior).use
    (elapsedMs issuedAtMs call.nowMs prior)

/-- A state that transitions under one profile have left. -/
structure Recorded (capabilityId : String) (profile : ProfileFields) (issuedAtMs : ℤ)
    (s : DecayState) : Prop where
  capabilityId : s.capabilityId = capabilityId
  profileDigest : profile.profileDigest = .ok s.profileDigest
  constructed : s.postInit = .ok s
  authority : s.currentAuthority = DecayAuthority.closedForm profile issuedAtMs s.counters
    (max 0 (s.maxObservedTimeMs - issuedAtMs))
  valid : s.currentAuthority.Valid

variable {capabilityId profileDigest : String} {profile : DecayProfile} {issuedAtMs : ℤ}
  {call : Call}
  {prior : Option DecayState} {ev : DecayEvaluation}

omit [Platform] in
theorem DecayProfile.step_valid {step : DecayStep} (h : step ∈ profile.steps) : step.Valid :=
  DecayStep.valid_of_postInit (profile.stepsValid step h)

/-- The authority a call starts from is valid. -/
theorem authorityOf_valid
    (hprior : ∀ s ∈ prior, Recorded capabilityId profile.toProfileFields issuedAtMs s) :
    (authorityOf profile.toProfileFields prior).Valid := by
  cases prior with
  | none => exact profile.initialValid
  | some s => exact (hprior s rfl).valid

/-- Taking the use off the twice reduced authority gives the closed form. -/
theorem spent_judged (ho : call.observation.Nonneg)
    (hprior : ∀ s ∈ prior, Recorded capabilityId profile.toProfileFields issuedAtMs s) :
    DecayAuthority.spent profile.initialAuthority (observed call prior).use
      ((judged profile.toProfileFields issuedAtMs call prior).reduced
        (reached profile.steps
          ((observed call prior).use.reading (elapsedMs issuedAtMs call.nowMs prior))) issuedAtMs) =
      DecayAuthority.closedForm profile.toProfileFields issuedAtMs (observed call prior).use
        (elapsedMs issuedAtMs call.nowMs prior) := by
  have hobserve : (countersOf prior).Le (observed call prior).use :=
    ((countersOf prior).le_observe ho).trans (Counters.le_use _)
  have huse : reached profile.steps
      ((observed call prior).reading (elapsedMs issuedAtMs call.nowMs prior)) ⊆
        reached profile.steps
          ((observed call prior).use.reading (elapsedMs issuedAtMs call.nowMs prior)) :=
    reached_subset ((Counters.le_use _).reading le_rfl)
  rw [judged, DecayAuthority.closedForm]
  cases prior with
  | none =>
    have hstart : authorityOf profile.toProfileFields none =
        DecayAuthority.spent profile.initialAuthority .zero
          (profile.initialAuthority.reduced [] issuedAtMs) :=
      (DecayAuthority.spent_zero profile.initialValid).symm
    rw [hstart]
    exact DecayAuthority.spent_reduced_reduced (List.nil_subset _) huse hobserve.useCount
      hobserve.readBytes hobserve.writeBytes
  | some s =>
    have hstart : authorityOf profile.toProfileFields (some s) = _ := (hprior s rfl).authority
    rw [hstart, DecayAuthority.closedForm]
    refine DecayAuthority.spent_reduced_reduced ?_ huse hobserve.useCount hobserve.readBytes
      hobserve.writeBytes
    refine reached_subset (hobserve.reading ?_)
    have hnow : s.maxObservedTimeMs ≤ effectiveNow call.nowMs (some s) := le_max_right _ _
    rw [elapsedMs]
    omega

/-- No step that the call reaches moves the expiration before time zero. -/
def Expirable (profile : ProfileFields) (issuedAtMs : ℤ) (call : Call) (prior : Option DecayState) :
    Prop :=
  ∀ step ∈ reached profile.steps
      ((observed call prior).use.reading (elapsedMs issuedAtMs call.nowMs prior)),
    ∀ n ∈ step.expiration issuedAtMs, 0 ≤ n

theorem judged_within : (judged profile.toProfileFields issuedAtMs call prior).Within
    (authorityOf profile.toProfileFields prior) := DecayAuthority.reduced_within_self

theorem closedForm_within_judged (ho : call.observation.Nonneg)
    (hprior : ∀ s ∈ prior, Recorded capabilityId profile.toProfileFields issuedAtMs s) :
    (DecayAuthority.closedForm profile.toProfileFields issuedAtMs (observed call prior).use
      (elapsedMs issuedAtMs call.nowMs prior)).Within
      (judged profile.toProfileFields issuedAtMs call prior) := by
  rw [← spent_judged ho hprior]
  exact DecayAuthority.spent_within.trans DecayAuthority.reduced_within_self

/-- The first loop over the steps. -/
theorem applySteps_observed
    (hprior : ∀ s ∈ prior, Recorded capabilityId profile.toProfileFields issuedAtMs s)
    {a : DecayAuthority} :
    applySteps profile.steps ((observed call prior).reading (elapsedMs issuedAtMs call.nowMs prior))
      issuedAtMs (authorityOf profile.toProfileFields prior) = .ok a ↔
      (∀ step ∈ reached profile.steps
          ((observed call prior).reading (elapsedMs issuedAtMs call.nowMs prior)),
        ∀ n ∈ step.expiration issuedAtMs, 0 ≤ n) ∧
      a = judged profile.toProfileFields issuedAtMs call prior :=
  DecayAuthority.applySteps_eq_ok (authorityOf_valid hprior) fun _ h ↦ DecayProfile.step_valid h

theorem checkProfile_eq_ok (hd : profile.profileDigest = .ok profileDigest)
    (hprior : ∀ s ∈ prior, Recorded capabilityId profile.toProfileFields issuedAtMs s) :
    checkProfile profile.toProfileFields prior = .ok () := by
  cases prior with
  | none => rfl
  | some s =>
    refine bind_eq_ok.mpr ⟨profileDigest, hd, raiseIf_eq_ok.mpr (not_not.mpr ?_)⟩
    exact Except.ok.inj ((hprior s rfl).profileDigest.symm.trans hd)

theorem checkDecrease_eq_ok
    (hprior : ∀ s ∈ prior, Recorded capabilityId profile.toProfileFields issuedAtMs s) :
    checkDecrease (judged profile.toProfileFields issuedAtMs call prior) prior = .ok () := by
  cases prior with
  | none => rfl
  | some s =>
    refine raiseIf_eq_ok.mpr ?_
    have hsubset : (judged profile.toProfileFields issuedAtMs call (some s)).isSubsetOf
        (authorityOf profile.toProfileFields (some s)) = true :=
      judged_within.isSubsetOf (authorityOf_valid hprior).normal
    rw [Bool.not_eq_false]
    exact hsubset

/-- When a transition succeeds, and what it returns. -/
theorem transition_eq_ok (ho : call.observation.Nonneg)
    (hprior : ∀ s ∈ prior, Recorded capabilityId profile.toProfileFields issuedAtMs s) :
    transition capabilityId profile.toProfileFields issuedAtMs call prior = .ok ev ↔
      ∃ profileDigest, profile.profileDigest = .ok profileDigest ∧
        Expirable profile.toProfileFields issuedAtMs call prior ∧
        (judged profile.toProfileFields issuedAtMs call prior).permits call.request
          (effectiveNow call.nowMs prior) = true ∧
        (record capabilityId profileDigest profile.toProfileFields issuedAtMs call prior).postInit =
          .ok (record capabilityId profileDigest profile.toProfileFields issuedAtMs call prior) ∧
        ev = ⟨judged profile.toProfileFields issuedAtMs call prior,
          record capabilityId profileDigest profile.toProfileFields issuedAtMs call prior,
          rolledBack call.nowMs prior⟩ := by
  have hvalid := authorityOf_valid hprior
  -- a step that the observations reach is reached when the use of the call is added
  have hmono : reached profile.steps
      ((observed call prior).reading (elapsedMs issuedAtMs call.nowMs prior)) ⊆
        reached profile.steps
          ((observed call prior).use.reading (elapsedMs issuedAtMs call.nowMs prior)) :=
    reached_subset ((Counters.le_use _).reading le_rfl)
  have hsteps : ∀ step ∈ profile.steps, step.Valid := fun _ h ↦ DecayProfile.step_valid h
  constructor
  · intro h
    obtain ⟨⟨⟩, -, h⟩ := bind_eq_ok.mp h
    obtain ⟨a, ha, h⟩ := bind_eq_ok.mp h
    have havalid := DecayAuthority.valid_of_applySteps hvalid ha
    obtain ⟨hexp, rfl⟩ := (applySteps_observed hprior).mp ha
    obtain ⟨⟨⟩, -, h⟩ := bind_eq_ok.mp h
    obtain ⟨hpermits, h⟩ := raiseIf_bind_eq_ok.mp h
    obtain ⟨b, hb, h⟩ := bind_eq_ok.mp h
    have hbvalid := DecayAuthority.valid_of_applySteps havalid hb
    obtain ⟨hexp', rfl⟩ := (DecayAuthority.applySteps_eq_ok havalid hsteps).mp hb
    obtain ⟨c, hc, h⟩ := bind_eq_ok.mp h
    obtain rfl := (DecayAuthority.spend_eq_ok hbvalid).mp hc
    obtain ⟨-, h⟩ := raiseIf_bind_eq_ok.mp h
    obtain ⟨d, hd, h⟩ := bind_eq_ok.mp h
    obtain ⟨s, hs, h⟩ := bind_eq_ok.mp h
    have hrecord : (record capabilityId d profile.toProfileFields issuedAtMs call prior).postInit =
        .ok s := by
      rw [record, ← spent_judged ho hprior]
      exact hs
    obtain rfl := DecayState.eq_of_postInit hrecord
    exact ⟨d, hd, hexp', by simpa using hpermits, hrecord, (Except.ok.inj h).symm⟩
  · rintro ⟨d, hd, hexp, hpermits, hstate, rfl⟩
    have ha : applySteps profile.steps
        ((observed call prior).reading (elapsedMs issuedAtMs call.nowMs prior)) issuedAtMs
        (authorityOf profile.toProfileFields prior) =
          .ok (judged profile.toProfileFields issuedAtMs call prior) :=
      (applySteps_observed hprior).mpr ⟨fun step hstep ↦ hexp step (hmono hstep), rfl⟩
    have havalid := DecayAuthority.valid_of_applySteps hvalid ha
    have hb := (DecayAuthority.applySteps_eq_ok havalid hsteps).mpr ⟨hexp, rfl⟩
    have hbvalid := DecayAuthority.valid_of_applySteps havalid hb
    refine bind_eq_ok.mpr ⟨(), checkProfile_eq_ok hd hprior, bind_eq_ok.mpr ⟨_, ha, bind_eq_ok.mpr
      ⟨(), checkDecrease_eq_ok hprior, raiseIf_bind_eq_ok.mpr ⟨?_, bind_eq_ok.mpr ⟨_, hb,
      bind_eq_ok.mpr ⟨_, (DecayAuthority.spend_eq_ok hbvalid).mpr rfl, raiseIf_bind_eq_ok.mpr ⟨?_,
      bind_eq_ok.mpr ⟨d, hd, bind_eq_ok.mpr ⟨_, ?_, rfl⟩⟩⟩⟩⟩⟩⟩⟩⟩
    · rw [Bool.not_eq_false]
      exact hpermits
    · rw [Bool.not_eq_false]
      exact (DecayAuthority.spent_within.trans DecayAuthority.reduced_within_self).isSubsetOf
        havalid.normal
    · refine Eq.trans (congrArg DecayState.postInit ?_) hstate
      rw [record, ← spent_judged ho hprior]
      rfl

end Transition

end EventHorizon.Decay
