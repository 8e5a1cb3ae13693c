import EventHorizon.Decay.Runs

/-!
# What becomes of the observations of a refused call

A call that raises leaves the store as it was, so what it reported is not recorded. As long as no
refused call reports anything that a step still waits for, and none comes at a time past the expiry
that is not recorded, nothing is lost: every authorised call is judged by an authority that all
observations so far have reduced. A refused call that does report something of the kind is
forgotten, and the next call is judged as if it had not been made.
-/

namespace EventHorizon.Decay

/-! ## Triggers -/

/-- The observations of the trigger add up; the others keep their maximum. -/
def Trigger.accumulates : Trigger → Bool
  | .useCount | .readBytes | .writeBytes | .denials | .canaryEvents | .environmentChanges
  | .workloadRestarts => true
  | .elapsedMs | .riskScore | .trustAgeMs | .policyAgeMs => false

section Observations

variable [Platform] {σ : Type}

/-- What a call reports for a trigger. -/
def Call.amount (call : Call) (issuedAtMs : ℤ) : Trigger → ℤ
  | .elapsedMs => call.nowMs - issuedAtMs
  | .useCount => 0
  | .readBytes => call.observation.readBytes
  | .writeBytes => call.observation.writeBytes
  | .denials => call.observation.denials
  | .riskScore => call.observation.riskScore
  | .canaryEvents => call.observation.canaryEvents
  | .trustAgeMs => call.observation.trustAgeMs
  | .policyAgeMs => call.observation.policyAgeMs
  | .environmentChanges => call.observation.environmentChanges
  | .workloadRestarts => call.observation.workloadRestarts

theorem Counters.reading_observe (c : Counters) (e issuedAtMs : ℤ) (call : Call) (t : Trigger) :
    (c.observe call.observation).reading (max e (call.nowMs - issuedAtMs)) t =
      if t.accumulates then c.reading e t + call.amount issuedAtMs t
      else max (c.reading e t) (call.amount issuedAtMs t) := by
  cases t <;> simp [observe, reading, Trigger.accumulates, Call.amount]

/-- The time since issuance that is recorded. -/
def recordedElapsed (issuedAtMs : ℤ) : Option DecayState → ℤ
  | none => 0
  | some p => max 0 (p.maxObservedTimeMs - issuedAtMs)

omit [Platform] in
theorem elapsedMs_eq (issuedAtMs nowMs : ℤ) (prior : Option DecayState) :
    elapsedMs issuedAtMs nowMs prior =
      max (recordedElapsed issuedAtMs prior) (nowMs - issuedAtMs) := by
  cases prior with
  | none => rfl
  | some p =>
    simp only [elapsedMs, effectiveNow, recordedElapsed]
    omega

/-- What is recorded for a trigger. -/
def recordedReading (issuedAtMs : ℤ) (prior : Option DecayState) : Trigger → ℤ :=
  (countersOf prior).reading (recordedElapsed issuedAtMs prior)

/-- What a call is judged by. -/
theorem observed_reading (issuedAtMs : ℤ) (prior : Option DecayState) (call : Call) (t : Trigger) :
    (observed call prior).reading (elapsedMs issuedAtMs call.nowMs prior) t =
      if t.accumulates then recordedReading issuedAtMs prior t + call.amount issuedAtMs t
      else max (recordedReading issuedAtMs prior t) (call.amount issuedAtMs t) := by
  rw [elapsedMs_eq]
  exact Counters.reading_observe ..

/-! ## Reducing less -/

omit [Platform] in
theorem DecayAuthority.Within.reduced {a b : DecayAuthority} (h : a.Within b)
    (steps : List DecayStep) (issuedAtMs : ℤ) :
    (a.reduced steps issuedAtMs).Within (b.reduced steps issuedAtMs) := by
  have hcapped : ∀ {m n : ℤ} {caps : List (Option ℤ)}, m ≤ n → capped m caps ≤ capped n caps :=
    fun hmn ↦ le_capped_iff.mpr
      ⟨le_trans capped_le hmn, (le_capped_iff.mp le_rfl).2⟩
  have hwithout : ∀ {xs ys : List String} {R : List (List String)}, xs ⊆ ys →
      without xs R ⊆ without ys R := by
    intro xs ys R hsub x hx
    rw [mem_without] at hx ⊢
    exact ⟨hsub hx.1, hx.2⟩
  exact ⟨hcapped h.expiresAtMs, hcapped h.remainingCalls, hcapped h.remainingReadBytes,
    hcapped h.remainingWriteBytes, hcapped h.maximumParallelism, hcapped h.maximumEffectSeverity,
    hwithout h.networkDestinations, hwithout h.tools, hwithout h.actions, hwithout h.resources,
    h.argumentRanges⟩

omit [Platform] in
theorem DecayAuthority.spent_within_reduced {initial : DecayAuthority} {c : Counters}
    {R T : List DecayStep} {issuedAtMs : ℤ} (h : R ⊆ T) :
    (spent initial c (initial.reduced T issuedAtMs)).Within
      ((spent initial c (initial.reduced T issuedAtMs)).reduced R issuedAtMs) := by
  have hcaps : ∀ {n : ℤ} {f : DecayStep → Option ℤ}, ∀ cap ∈ R.map f, ∀ m ∈ cap,
      capped n (T.map f) ≤ m := by
    intro n f cap hcap m hm
    exact (le_capped_iff.mp (le_refl (capped n (T.map f)))).2 cap (List.map_subset f h hcap) m hm
  have hcapped : ∀ {n : ℤ} {f : DecayStep → Option ℤ},
      capped n (T.map f) ≤ capped (capped n (T.map f)) (R.map f) := fun {n f} ↦
    le_capped_iff.mpr ⟨le_rfl, hcaps⟩
  have hmin : ∀ {n u : ℤ} {f : DecayStep → Option ℤ},
      min (capped n (T.map f)) u ≤ capped (min (capped n (T.map f)) u) (R.map f) := by
    intro n u f
    refine le_capped_iff.mpr ⟨le_rfl, fun cap hcap m hm ↦ ?_⟩
    exact le_trans (min_le_left _ _) (hcaps cap hcap m hm)
  have hwithout : ∀ {xs : List String} {f : DecayStep → List String},
      without xs (T.map f) ⊆ without (without xs (T.map f)) (R.map f) := by
    intro xs f x hx
    refine mem_without.mpr ⟨hx, fun ys hys ↦ ?_⟩
    exact (mem_without.mp hx).2 ys (List.map_subset f h hys)
  exact ⟨hcapped, hmin, hmin, hmin, hcapped, hcapped, hwithout, hwithout, hwithout, hwithout, rfl⟩

/-! ## Everything that was observed -/

/-- The calls whose reports are well formed. -/
def seen (calls : List Call) : List Call := calls.filter fun c ↦ c.observation.check = .ok ()

namespace Session

variable (S : Session σ)

/-- The counters that the observations of all calls add up to, refused calls included. -/
def witnessed (calls : List Call) : Counters :=
  { Counters.tally (seen calls) with useCount := (S.authorised calls).length }

/-- What all calls so far have reported for a trigger. -/
def witnessedSoFar (calls : List Call) : Trigger → ℤ :=
  (S.witnessed calls).reading (elapsedOf S.issuedAtMs (seen calls))

/-- What all calls so far and one more have reported for a trigger. -/
def witnessedReading (earlier : List Call) (call : Call) : Trigger → ℤ :=
  ((S.witnessed earlier).observe call.observation).reading
    (max (elapsedOf S.issuedAtMs (seen earlier)) (call.nowMs - S.issuedAtMs))

/-- The authority that a call is judged by. -/
def judged (earlier : List Call) (call : Call) : DecayAuthority :=
  Decay.judged S.profile.toProfileFields S.issuedAtMs call (S.state earlier)

/-- What is recorded for a trigger after a list of calls. -/
def recorded (calls : List Call) : Trigger → ℤ := recordedReading S.issuedAtMs (S.state calls)

/-- Observations are never lost. -/
structure NoneLost (calls : List Call) : Prop where
  /-- A call is authorised under what all observations so far have left of the initial authority. -/
  authority : ∀ earlier call later result, calls = earlier ++ call :: later →
    S.attempt earlier call = .ok result →
    result.2.authorizedAuthority.isSubsetOf (S.profile.initialAuthority.reduced
      (reached S.profile.steps (S.witnessedReading earlier call)) S.issuedAtMs) = true
  /-- A call is authorised under no more than any earlier call was judged by. -/
  judged : ∀ earlier call between call' later result,
    calls = earlier ++ call :: (between ++ call' :: later) → call.observation.check = .ok () →
    S.attempt (earlier ++ call :: between) call' = .ok result →
    result.2.authorizedAuthority.isSubsetOf (S.judged earlier call) = true
  /-- Once a call came at the expiry, no later call is authorised. -/
  expired : ∀ earlier call between call' later,
    calls = earlier ++ call :: (between ++ call' :: later) → call.observation.check = .ok () →
    (S.judged earlier call).expiresAtMs ≤ effectiveNow call.nowMs (S.state earlier) →
    ∀ result, S.attempt (earlier ++ call :: between) call' ≠ .ok result

/-- A call that reports nothing that a step still waits for, and that comes before the expiry of the
authority it is judged by, or no later than a recorded time. -/
structure NoNews (earlier : List Call) (call : Call) : Prop where
  steps : ∀ step ∈ S.profile.steps, S.recorded earlier step.trigger < step.threshold →
    if step.trigger.accumulates then call.amount S.issuedAtMs step.trigger = 0
    else call.amount S.issuedAtMs step.trigger < step.threshold
  time : call.nowMs < (S.judged earlier call).expiresAtMs ∨
    ∃ p ∈ S.state earlier, call.nowMs ≤ p.maxObservedTimeMs

/-- A well-formed call meets all that authorisation asks, or brings no news. -/
def Keeps (earlier : List Call) (call : Call) : Prop :=
  call.observation.check = .ok () →
    (∃ digest s, Admits S.store S.capabilityId S.profile.toProfileFields S.issuedAtMs
      (S.run earlier).store (S.state earlier) call digest s) ∨ S.NoNews earlier call

variable {S} {calls earlier : List Call} {call : Call}

/-! ## One more call -/

/-- A call that keeps its observations is authorised, brings no news, or is malformed. -/
theorem Keeps.cases (h : S.Keeps earlier call) (hcheck : call.observation.check = .ok ()) :
    (∃ result, S.attempt earlier call = .ok result) ∨ S.NoNews earlier call := by
  obtain ⟨digest, s, hadmits⟩ | hnews := h hcheck
  · exact .inl ⟨(s, _), attempt_eq_ok.mpr ⟨digest, hadmits, rfl⟩⟩
  · exact .inr hnews

theorem check_of_attempt {result : σ × DecayEvaluation} (h : S.attempt earlier call = .ok result) :
    call.observation.check = .ok () := by
  obtain ⟨digest, hadmits, -⟩ := attempt_eq_ok.mp h
  exact hadmits.observation

theorem seen_append (hcheck : call.observation.check = .ok ()) :
    seen (calls ++ [call]) = seen calls ++ [call] := by
  simp [seen, hcheck]

theorem witnessed_authorised {result : σ × DecayEvaluation}
    (h : S.attempt calls call = .ok result) (t : Trigger) : S.witnessedSoFar (calls ++ [call]) t =
      S.witnessedReading calls call t + if t = .useCount then 1 else 0 := by
  rw [witnessedSoFar, witnessed, witnessedReading, (authorised_append h).1,
    seen_append (check_of_attempt h), elapsedOf_append, Counters.tally_append]
  cases t <;> simp [witnessed, Counters.reading, Counters.observe, Counters.use]

theorem witnessed_refused {e : Exn} (h : S.attempt calls call = .error e)
    (hcheck : call.observation.check = .ok ()) :
    S.witnessedSoFar (calls ++ [call]) = S.witnessedReading calls call := by
  funext t
  rw [witnessedSoFar, witnessed, witnessedReading, (refused_append h).1, seen_append hcheck,
    elapsedOf_append, Counters.tally_append]
  cases t <;> rfl

theorem witnessedReading_eq (earlier : List Call) (call : Call) (t : Trigger) :
    S.witnessedReading earlier call t =
      if t.accumulates then S.witnessedSoFar earlier t + call.amount S.issuedAtMs t
      else max (S.witnessedSoFar earlier t) (call.amount S.issuedAtMs t) :=
  Counters.reading_observe ..

theorem recorded_authorised {result : σ × DecayEvaluation} (h : S.attempt calls call = .ok result)
    (t : Trigger) : S.recorded (calls ++ [call]) t =
      (observed call (S.state calls)).reading
        (elapsedMs S.issuedAtMs call.nowMs (S.state calls)) t + if t = .useCount then 1 else 0 := by
  obtain ⟨digest, -, hev⟩ := attempt_eq_ok.mp h
  rw [recorded, (authorised_append h).2, hev]
  cases t <;> simp [recordedReading, recordedElapsed, countersOf, record, Counters.reading,
    Counters.use, elapsedMs]

/-! ## Nothing is missed -/

/-- What was witnessed for a step that still waits: the same as what is recorded, if observations
add up, and less than the threshold in any case. -/
def Synced (S : Session σ) (calls : List Call) : Prop :=
  ∀ step ∈ S.profile.steps, S.recorded calls step.trigger < step.threshold →
    if step.trigger.accumulates then
      S.witnessedSoFar calls step.trigger = S.recorded calls step.trigger
    else S.witnessedSoFar calls step.trigger < step.threshold

/-- A call only adds. -/
theorem recorded_le_observed (S : Session σ) (earlier : List Call) (ho : call.observation.Nonneg)
    (t : Trigger) : S.recorded earlier t ≤ (observed call (S.state earlier)).reading
      (elapsedMs S.issuedAtMs call.nowMs (S.state earlier)) t := by
  have hcounters : (countersOf (S.state earlier)).Le (observed call (S.state earlier)) :=
    Counters.le_observe _ ho
  refine hcounters.reading ?_ t
  rw [elapsedMs_eq]
  exact le_max_left _ _

theorem Synced.authorised (hs : S.Synced calls) {result : σ × DecayEvaluation}
    (h : S.attempt calls call = .ok result) : S.Synced (calls ++ [call]) := by
  intro step hstep hlt
  have ho := Observation.nonneg_of_check (check_of_attempt h)
  have hle := recorded_le_observed S calls ho step.trigger
  have hobserved := observed_reading S.issuedAtMs (S.state calls) call step.trigger
  have huse : (0 : ℤ) ≤ if step.trigger = .useCount then 1 else 0 := by split <;> decide
  rw [recorded_authorised h] at hlt ⊢
  rw [witnessed_authorised h, witnessedReading_eq]
  have hbefore := hs step hstep (by omega)
  cases hacc : step.trigger.accumulates with
  | true =>
    rw [hacc, if_pos rfl] at hbefore hobserved
    rw [if_pos rfl, if_pos rfl, hobserved, hbefore]
    rfl
  | false =>
    -- the use count adds up, so the call itself is not counted here
    have hne : step.trigger ≠ .useCount := by
      intro he
      rw [he] at hacc
      exact absurd hacc (by decide)
    rw [hacc, if_neg Bool.false_ne_true] at hbefore hobserved
    rw [if_neg hne] at hlt ⊢
    rw [if_neg Bool.false_ne_true, if_neg Bool.false_ne_true]
    omega

theorem Synced.refused (hs : S.Synced calls) {e : Exn} (h : S.attempt calls call = .error e)
    (hk : S.Keeps calls call) : S.Synced (calls ++ [call]) := by
  have hrecorded : S.recorded (calls ++ [call]) = S.recorded calls := by
    rw [recorded, recorded, (refused_append h).2]
  by_cases hcheck : call.observation.check = .ok ()
  · obtain ⟨result, hok⟩ | hnews := hk.cases hcheck
    · exact nomatch hok.symm.trans h
    intro step hstep hlt
    rw [hrecorded] at hlt ⊢
    have hbefore := hs step hstep hlt
    have hnone := hnews.steps step hstep hlt
    rw [witnessed_refused h hcheck, witnessedReading_eq]
    cases hacc : step.trigger.accumulates with
    | true =>
      rw [hacc, if_pos rfl] at hbefore hnone
      rw [if_pos rfl, if_pos rfl]
      omega
    | false =>
      rw [hacc, if_neg Bool.false_ne_true] at hbefore hnone
      rw [if_neg Bool.false_ne_true, if_neg Bool.false_ne_true]
      omega
  · -- a malformed call reports nothing
    have hseen : seen (calls ++ [call]) = seen calls := by simp [seen, hcheck]
    have hwitnessed : S.witnessedSoFar (calls ++ [call]) = S.witnessedSoFar calls := by
      rw [witnessedSoFar, witnessedSoFar, witnessed, witnessed, hseen, (refused_append h).1]
    intro step hstep
    rw [hrecorded, hwitnessed]
    exact hs step hstep

/-- As long as every call keeps its observations, nothing is missed. -/
theorem synced_of_keeps (h : Throughout S.Keeps calls) : S.Synced calls := by
  induction calls using List.reverseRecOn with
  | nil =>
    intro step _ hlt
    have hzero : S.witnessedSoFar [] = S.recorded [] := by
      have hstate : S.state [] = none := by rw
          [state, stored, run, Decay.run, List.foldl_nil, S.fresh]
      rw [recorded, hstate]
      rfl
    rw [hzero]
    split
    · rfl
    · exact hlt
  | append_singleton calls call ih =>
    have hsynced : S.Synced calls := ih h.left
    cases hcall : S.attempt calls call with
    | ok result => exact hsynced.authorised hcall
    | error e => exact hsynced.refused hcall h.last

theorem Synced.reached_subset (hs : S.Synced earlier) (ho : call.observation.Nonneg) :
    reached S.profile.steps (S.witnessedReading earlier call) ⊆
      reached S.profile.steps ((observed call (S.state earlier)).reading
        (elapsedMs S.issuedAtMs call.nowMs (S.state earlier))) := by
  intro step hstep
  obtain ⟨hmem, hle⟩ := mem_reached.mp hstep
  refine mem_reached.mpr ⟨hmem, not_lt.mp fun hlt ↦ ?_⟩
  have hrecorded := recorded_le_observed S earlier ho step.trigger
  have hbefore := hs step hmem (by omega)
  rw [witnessedReading_eq] at hle
  rw [observed_reading] at hlt
  rw [recorded] at hbefore
  cases hacc : step.trigger.accumulates with
  | true =>
    rw [hacc, if_pos rfl] at hle hlt hbefore
    omega
  | false =>
    rw [hacc, if_neg Bool.false_ne_true] at hle hlt hbefore
    omega

/-! ## Authorities of earlier calls -/

theorem authorizedAuthority_eq {result : σ × DecayEvaluation}
    (h : S.attempt earlier call = .ok result) :
    result.2.authorizedAuthority = S.judged earlier call := by
  obtain ⟨digest, -, hev⟩ := attempt_eq_ok.mp h
  rw [hev]
  rfl

theorem judged_within_state {p : DecayState} (hp : p ∈ S.state earlier) :
    (S.judged earlier call).Within p.currentAuthority := by
  have hjudged : (S.judged earlier call).Within
      (authorityOf S.profile.toProfileFields (S.state earlier)) := judged_within
  rwa [Option.mem_def.mp hp] at hjudged

/-- A call is judged by no more than its observations leave of the initial authority. -/
theorem judged_within_initial : (S.judged earlier call).Within
    (S.profile.initialAuthority.reduced (reached S.profile.steps
      ((observed call (S.state earlier)).reading
        (elapsedMs S.issuedAtMs call.nowMs (S.state earlier)))) S.issuedAtMs) := by
  have hstart : (authorityOf S.profile.toProfileFields (S.state earlier)).Within
      S.profile.initialAuthority := by
    have hrecorded := (S.tallied earlier).recorded
    cases hstate : S.state earlier with
    | none => exact .refl _
    | some p =>
      rw [authorityOf, (hrecorded p hstate).authority]
      exact DecayAuthority.spent_within.trans DecayAuthority.reduced_within_self
  exact hstart.reduced _ _

theorem judged_normal : (S.judged earlier call).Normal :=
  (authorityOf_valid (S.tallied earlier).recorded).normal.reduced

theorem recorded_nonneg (S : Session σ) (calls : List Call) (t : Trigger) :
    0 ≤ S.recorded calls t := by
  have hrecorded := (S.tallied calls).recorded
  rw [recorded, recordedReading]
  cases hstate : S.state calls with
  | none => cases t <;> exact le_rfl
  | some p =>
    have hnumbers := (DecayState.postInit_eq_ok.mp (hrecorded p hstate).constructed).2.2
    simp only [DecayState.numbers, List.forall_mem_cons] at hnumbers
    obtain ⟨-, h2, h3, h4, h5, h6, h7, h8, h9, h10, h11, -⟩ := hnumbers
    cases t with
    | elapsedMs => exact le_max_left _ _
    | useCount => exact h2.1
    | readBytes => exact h3.1
    | writeBytes => exact h4.1
    | denials => exact h5.1
    | riskScore => exact h6.1
    | canaryEvents => exact h7.1
    | trustAgeMs => exact h8.1
    | policyAgeMs => exact h9.1
    | environmentChanges => exact h10.1
    | workloadRestarts => exact h11.1

/-- A call that brings no news reaches only what is reached. -/
theorem NoNews.reached_subset (h : S.NoNews earlier call) : reached S.profile.steps
    ((observed call (S.state earlier)).reading
      (elapsedMs S.issuedAtMs call.nowMs (S.state earlier))) ⊆
      reached S.profile.steps (S.recorded earlier) := by
  intro step hstep
  obtain ⟨hmem, hle⟩ := mem_reached.mp hstep
  refine mem_reached.mpr ⟨hmem, not_lt.mp fun hlt ↦ ?_⟩
  have hnone := h.steps step hmem hlt
  rw [observed_reading] at hle
  rw [recorded] at hlt
  cases hacc : step.trigger.accumulates with
  | true =>
    rw [hacc, if_pos rfl] at hle hnone
    omega
  | false =>
    rw [hacc, if_neg Bool.false_ne_true] at hle hnone
    omega

theorem NoNews.judged_within (h : S.NoNews earlier call) (between : List Call) {call' : Call}
    (ho : call'.observation.Nonneg) :
    (S.judged (earlier ++ call :: between) call').Within (S.judged earlier call) := by
  have hrecorded := (S.tallied earlier).recorded
  cases hstate : S.state earlier with
  | none =>
    -- nothing is recorded: the call was judged by the initial authority under steps of threshold
    -- zero
    have hjudged : S.judged earlier call = S.profile.initialAuthority.reduced
        (reached S.profile.steps ((observed call (S.state earlier)).reading
          (elapsedMs S.issuedAtMs call.nowMs (S.state earlier)))) S.issuedAtMs := by
      rw [judged, Decay.judged, hstate, authorityOf]
    rw [hjudged]
    refine judged_within_initial.trans (DecayAuthority.reduced_within ?_)
    refine List.Subset.trans h.reached_subset (Decay.reached_subset fun t ↦ ?_)
    have hzero : S.recorded earlier t = 0 := by
      rw [recorded, hstate]
      cases t <;> rfl
    rw [hzero]
    exact le_trans (recorded_nonneg S _ t) (recorded_le_observed S _ ho t)
  | some p =>
    obtain ⟨q, hq, hgrows⟩ := state_grows (call :: between) hstate
    have hp : p.currentAuthority.Within (S.judged earlier call) := by
      have hsubset := h.reached_subset
      rw [judged, Decay.judged, hstate, authorityOf, (hrecorded p hstate).authority]
      rw [recorded, hstate] at hsubset
      exact DecayAuthority.spent_within_reduced hsubset
    exact (judged_within_state hq).trans (hgrows.currentAuthority.trans hp)

/-- Later calls are judged by no more than an authorised call was. -/
theorem authorised_judged_within {result : σ × DecayEvaluation}
    (h : S.attempt earlier call = .ok result) (between : List Call) (call' : Call) :
    (S.judged (earlier ++ call :: between) call').Within (S.judged earlier call) := by
  obtain ⟨digest, hadmits, hev⟩ := attempt_eq_ok.mp h
  have hstate := (authorised_append h).2
  obtain ⟨q, hq, hgrows⟩ := state_grows between hstate
  rw [List.append_assoc, List.singleton_append] at hq
  have hrecord : result.2.resultingState.currentAuthority.Within (S.judged earlier call) := by
    rw [hev]
    exact closedForm_within_judged (Observation.nonneg_of_check hadmits.observation)
      (S.tallied earlier).recorded
  exact (judged_within_state hq).trans (hgrows.currentAuthority.trans hrecord)

theorem Keeps.judged_within (h : S.Keeps earlier call) (hcheck : call.observation.check = .ok ())
    (between : List Call) {call' : Call} (ho : call'.observation.Nonneg) :
    (S.judged (earlier ++ call :: between) call').Within (S.judged earlier call) := by
  obtain ⟨result, hok⟩ | hnews := h.cases hcheck
  · exact authorised_judged_within hok between call'
  · exact hnews.judged_within between ho

theorem Keeps.expired (h : S.Keeps earlier call) (hcheck : call.observation.check = .ok ())
    (hexp : (S.judged earlier call).expiresAtMs ≤ effectiveNow call.nowMs (S.state earlier))
    (between : List Call) (call' : Call) (result : σ × DecayEvaluation) :
    S.attempt (earlier ++ call :: between) call' ≠ .ok result := by
  have hpermits : ∀ {a : DecayAuthority} {r : Policy.ActionRequest} {now : ℤ},
      a.permits r now = true → now < a.expiresAtMs := fun hp ↦ (of_decide_eq_true hp).1
  intro hok
  obtain ⟨digest, hadmits, -⟩ := attempt_eq_ok.mp hok
  have hwithin := h.judged_within hcheck between
    (Observation.nonneg_of_check hadmits.observation)
  have hlt := hpermits hadmits.permits
  obtain ⟨result', hok'⟩ | hnews := h.cases hcheck
  · -- an authorised call came before the expiry
    obtain ⟨digest', hadmits', -⟩ := attempt_eq_ok.mp hok'
    exact absurd (hpermits hadmits'.permits) (not_lt.mpr hexp)
  · -- the recorded time is past the expiry
    obtain ⟨p, hp, htime⟩ : ∃ p ∈ S.state earlier,
        (S.judged earlier call).expiresAtMs ≤ p.maxObservedTimeMs := by
      cases hstate : S.state earlier with
      | none =>
        rw [hstate, effectiveNow] at hexp
        obtain hlt' | ⟨p, hp, -⟩ := hnews.time
        · omega
        · exact by cases hstate.symm.trans hp
      | some p =>
        refine ⟨p, rfl, ?_⟩
        rw [hstate, effectiveNow] at hexp
        obtain hlt' | ⟨q, hq, hle⟩ := hnews.time
        · omega
        · obtain rfl := Option.some.inj (hstate.symm.trans hq)
          omega
    obtain ⟨q, hq, hgrows⟩ := state_grows (call :: between) hp
    have hnow :
        p.maxObservedTimeMs ≤ effectiveNow call'.nowMs (S.state (earlier ++ call :: between)) := by
      rw [Option.mem_def.mp hq]
      exact le_trans hgrows.maxObservedTimeMs (le_max_right _ _)
    have hle := hwithin.expiresAtMs
    rw [judged] at hle
    omega

/-- When no refused call brings news, no observation is lost. -/
theorem noneLost_of_keeps (h : Throughout S.Keeps calls) : S.NoneLost calls where
  authority := by
    rintro earlier call later result rfl hok
    have ho := Observation.nonneg_of_check (check_of_attempt hok)
    have hsynced : S.Synced earlier := synced_of_keeps h.left
    rw [authorizedAuthority_eq hok]
    exact (judged_within_initial.trans
      (DecayAuthority.reduced_within (hsynced.reached_subset ho))).isSubsetOf
        S.profile.initialValid.normal.reduced
  judged := by
    rintro earlier call between call' later result rfl hcheck hok
    have ho := Observation.nonneg_of_check (check_of_attempt hok)
    rw [authorizedAuthority_eq hok]
    exact ((h earlier call _ rfl).judged_within hcheck between ho).isSubsetOf judged_normal
  expired := by
    rintro earlier call between call' later rfl hcheck hexp result
    exact (h earlier call _ rfl).expired hcheck hexp between call' result

end Session

end Observations

namespace Sample

attribute [local instance] pythonPlatform

/-- A call for a resource that the authority does not have. -/
def elsewhere : Call where
  request :=
    { request with resourceId := "elsewhere", valid := by decide +kernel, distinct := by decide }
  nowMs := 1000

/-- A profile under which one canary event ends the authority. -/
def guarded : DecayProfile where
  profileId := "profile-1"
  version := "1"
  initialAuthority := initial
  steps := [{ trigger := .canaryEvents, threshold := 1, maximumCalls := some 0 }]
  valid := by decide
  initialValid := initial_valid
  stepsValid := by decide

/-- A call that reports a canary event. -/
def alarm : Call where
  request := request
  nowMs := 1001
  observation := { canaryEvents := 1 }

theorem plain_refused : ∃ e, (session plain).attempt [] elsewhere = .error e := by
  cases hcall : (session plain).attempt [] elsewhere with
  | error e => exact ⟨e, rfl⟩
  | ok result =>
    obtain ⟨digest, hadmits, -⟩ := Session.attempt_eq_ok.mp hcall
    have hpermits := hadmits.permits
    rw [Session.state_nil] at hpermits
    exact absurd hpermits (by decide +kernel)

theorem plain_noNews : (session plain).NoNews [] elsewhere where
  steps step hstep := absurd hstep List.not_mem_nil
  time := by
    have hjudged : (session plain).judged [] elsewhere =
        judged plain.toProfileFields 1000 elsewhere none := by
      rw [Session.judged, Session.state_nil]
      rfl
    rw [hjudged]
    exact .inl (by decide)

theorem plain_attempt_after : ∃ digest s, (session plain).attempt [elsewhere] (reading 0 1001) =
    .ok (s, ⟨judged plain.toProfileFields 1000 (reading 0 1001) none,
      record "cap-1" digest plain.toProfileFields 1000 (reading 0 1001) none, false⟩) := by
  obtain ⟨e, he⟩ := plain_refused
  have hstate : (session plain).state [elsewhere] = none :=
    (Session.refused_append he).2.trans (Session.state_nil _)
  exact plain_attempt hstate (by decide) (by decide) (by decide +kernel) (by decide)

theorem guarded_refused : ∃ e, (session guarded).attempt [] alarm = .error e := by
  cases hcall : (session guarded).attempt [] alarm with
  | error e => exact ⟨e, rfl⟩
  | ok result =>
    obtain ⟨digest, hadmits, -⟩ := Session.attempt_eq_ok.mp hcall
    have hpermits := hadmits.permits
    rw [Session.state_nil] at hpermits
    exact absurd hpermits (by decide +kernel)

theorem guarded_state : (session guarded).state [alarm] = none := by
  obtain ⟨e, he⟩ := guarded_refused
  exact (Session.refused_append he).2.trans (Session.state_nil _)

theorem guarded_canonicalizes : Canonicalizes 0 guarded.toDict := by decide +kernel

theorem guarded_attempt : ∃ digest s, (session guarded).attempt [alarm] (reading 0 1002) =
    .ok (s, ⟨judged guarded.toProfileFields 1000 (reading 0 1002) none,
      record "cap-1" digest guarded.toProfileFields 1000 (reading 0 1002) none, false⟩) := by
  refine inMemorySession_attempt guarded_state (by decide) guarded_canonicalizes (by decide)
    (by decide) ?_ ?_ (by decide)
  · unfold Expirable
    decide
  · decide +kernel

end Sample

/-- A refused call for another resource takes nothing from the call after it. -/
theorem noneLost_of_keeps_elsewhere :
    let _ := pythonPlatform
    Throughout (Sample.session Sample.plain).Keeps [Sample.elsewhere, Sample.reading 0 1001] ∧
      (Sample.session Sample.plain).NoneLost [Sample.elsewhere, Sample.reading 0 1001] := by
  intro _
  obtain ⟨digest, s, hattempt⟩ := Sample.plain_attempt_after
  obtain ⟨digest', hadmits, -⟩ := Session.attempt_eq_ok.mp hattempt
  have hfirst : Throughout (Sample.session Sample.plain).Keeps [Sample.elsewhere] :=
    Throughout.nil.append fun _ ↦ .inr Sample.plain_noNews
  have hkeeps : Throughout (Sample.session Sample.plain).Keeps
      [Sample.elsewhere, Sample.reading 0 1001] :=
    hfirst.append fun _ ↦ .inl ⟨digest', s, hadmits⟩
  exact ⟨hkeeps, Session.noneLost_of_keeps hkeeps⟩

/-- A canary event in a refused call is forgotten: the next call is authorised under an authority
that the event should have ended. -/
theorem noneLost_fails_refused_alarm :
    let _ := pythonPlatform
    ¬(Sample.session Sample.guarded).NoneLost [Sample.alarm, Sample.reading 0 1002] := by
  intro _ h
  obtain ⟨digest, s, hattempt⟩ := Sample.guarded_attempt
  have hsubset := h.authority [Sample.alarm] (Sample.reading 0 1002) [] _ rfl hattempt
  have hcalls := (of_decide_eq_true hsubset).2.1
  have hreached : { trigger := .canaryEvents, threshold := 1, maximumCalls := some 0 } ∈
      reached Sample.guarded.steps
        ((Sample.session Sample.guarded).witnessedReading [Sample.alarm] (Sample.reading 0 1002)) :=
    mem_reached.mpr ⟨List.mem_singleton.mpr rfl, (by decide : (1 : ℤ) ≤ 1)⟩
  have hcap := (le_capped_iff.mp hcalls).2 _ (List.mem_map_of_mem hreached) 0 rfl
  exact absurd hcap (by decide : ¬(10 : ℤ) ≤ 0)

end EventHorizon.Decay
