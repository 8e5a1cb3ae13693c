import EventHorizon.Behavior.Guardian

/-!
# Quarantine over runs of a guardian

One invariant links the flag of a state with its score: the state is quarantined exactly when the
score has reached the threshold, and no score exceeds 1000. Every transition but `recover` keeps it
and lowers no score, so the flag stays although one of the transitions computes it anew. `Contained`
says what this gives over a run: a quarantined session is denied, its score does not fall, and no
session sees another.

The denial is an answer only when it can be written. `evaluate_context` takes digests outside its
handler, of the request and of the stored state, and constructs a reduction in the guardian's name
there. `contained_iff` says for which calls these succeed.
-/

namespace EventHorizon.Behavior

open Policy (ReductionFields IsText)

section Quarantine

variable [Platform]

/-! ## The invariant -/

/-- What holds of every state of a session. -/
structure Inv (g : Guardian) (f : StateFields) : Prop where
  distinct : f.Distinct
  score : f.riskScore ≤ 1000
  flag : f.quarantined = true ↔ g.quarantineThreshold ≤ f.riskScore
  names : ∀ x ∈ f.workloads ++ f.resources, x.IsCanonical

variable {g : Guardian}

/-- The stored form of a state says the same of it. -/
theorem Inv.of_stored {f f' : StateFields} (h : Inv g f) (hdist : f'.Distinct)
    (hstored : f'.stored = f.stored) : Inv g f' := by
  have hscore := congrArg StateFields.riskScore hstored
  have hflag := congrArg StateFields.quarantined hstored
  have hworkloads := congrArg StateFields.workloads hstored
  have hresources := congrArg StateFields.resources hstored
  change f'.riskScore = f.riskScore at hscore
  change f'.quarantined = f.quarantined at hflag
  change f'.workloads = f.workloads at hworkloads
  change f'.resources = f.resources at hresources
  refine ⟨hdist, hscore.trans_le h.score, ?_, ?_⟩
  · rw [hflag, hscore]
    exact h.flag
  · rw [hworkloads, hresources]
    exact h.names

theorem inv_new (g : Guardian) (tenant sessionId : PyStr) : Inv g { tenant, sessionId } where
  distinct v h := nomatch h
  score := Int.le_of_lt (by decide : (0 : ℤ) < 1000)
  flag := by
    have hpos := g.thresholds
    refine iff_of_false Bool.noConfusion fun h ↦ ?_
    have h : g.quarantineThreshold ≤ 0 := h
    omega
  names x h := nomatch h

/-! ### Scores -/

omit [Platform] in
theorem finding_nonneg {p : Prop} [Decidable p] {signal : String} {risk : ℤ} (h : 0 ≤ risk) :
    0 ≤ riskOf (finding p signal risk) := by
  rw [finding]
  split
  · simpa [riskOf] using h
  · exact le_rfl

omit [Platform] in
theorem riskOf_append (xs ys : List (String × ℤ)) : riskOf (xs ++ ys) = riskOf xs + riskOf ys := by
  rw [riskOf, List.map_append, List.sum_append]
  rfl

theorem riskOf_findings_nonneg (g : Guardian) (r : Request) (nowMs : ℤ) (workerId : PyStr)
    (s : StateFields) : 0 ≤ riskOf (findings g r nowMs workerId s) := by
  simp only [findings, riskOf_append]
  refine Int.add_nonneg (Int.add_nonneg (Int.add_nonneg (Int.add_nonneg (Int.add_nonneg
    (Int.add_nonneg ?_ ?_) ?_) ?_) ?_) ?_) ?_ <;> exact finding_nonneg (by decide)

theorem modelOutput_nonneg (g : Guardian) (s : SessionState) (r : Request) :
    0 ≤ (g.modelOutput s r).1 := by
  unfold Guardian.modelOutput
  repeat' split
  all_goals first | exact le_rfl | (dsimp only; omega)

theorem modelRisk_nonneg (g : Guardian) (s : SessionState) (r : Request) : 0 ≤ g.modelRisk s r := by
  rw [Guardian.modelRisk]
  split
  · rw [Guardian.askModel]
    split
    · exact le_rfl
    · exact modelOutput_nonneg g s r
  · exact le_rfl

theorem le_nextScore {s : SessionState} (h : s.riskScore ≤ 1000) (r : Request) (nowMs : ℤ)
    (workerId : PyStr) : s.riskScore ≤ g.nextScore r nowMs workerId s := by
  have hfound := riskOf_findings_nonneg g r nowMs workerId s.toStateFields
  have hmodel := modelRisk_nonneg g s r
  rw [Guardian.nextScore]
  omega

/-! ### Transitions -/

theorem Request.distinct (r : Request) : r.canonicalPayload.Distinct := by
  obtain ⟨payload, hdist, h⟩ := r.accepted
  exact (Policy.PyRequest.distinct_canonicalPayload hdist h).1

theorem Request.checked (r : Request) : ∃ arguments, r.toPyRequest.Checked arguments := by
  obtain ⟨payload, -, h⟩ := r.accepted
  exact ⟨_, Policy.PyRequest.checked_of_fromDict h⟩

theorem isCanonical_of_isText {n : ℕ} {s : String} (h : IsText n s) :
    (PyStr.ofString s).IsCanonical :=
  PyStr.isCanonical_ofString.mpr h.2.2

theorem inv_nextFields {s : SessionState} (h : Inv g s.toStateFields) (r : Request) (nowMs : ℤ)
    (workerId : PyStr) : Inv g (g.nextFields r nowMs workerId s) where
  distinct v hv := by
    obtain rfl := Option.some.inj hv
    exact r.distinct
  score := min_le_left _ _
  flag := by
    have hle := le_nextScore (g := g) h.score r nowMs workerId
    have hflag := h.flag
    simp only [Guardian.nextFields, Bool.or_eq_true, decide_eq_true_eq]
    refine ⟨fun hq ↦ hq.elim (fun hq ↦ ?_) id, .inr⟩
    exact (hflag.mp hq).trans hle
  names x hx := by
    obtain ⟨arguments, hchecked⟩ := r.checked
    simp only [Guardian.nextFields, List.mem_append, PyStr.mem_sortedWith] at hx
    rcases hx with (rfl | hx) | (rfl | hx)
    · exact isCanonical_of_isText hchecked.executorId
    · exact h.names x (List.mem_append_left _ hx)
    · exact isCanonical_of_isText hchecked.resourceId
    · exact h.names x (List.mem_append_right _ hx)

/-- What a transition other than `recover` does to a state. -/
structure Rises (g : Guardian) (s s' : SessionState) : Prop where
  inv : Inv g s'.toStateFields
  le : s.riskScore ≤ s'.riskScore

theorem rises_transition {s s' : SessionState} {a : Assessment} {r : Request} {nowMs : ℤ}
    {workerId : PyStr} (h : Inv g s.toStateFields)
    (ht : g.transition r nowMs workerId s = .ok (s', a)) : Rises g s s' := by
  obtain ⟨u, hu, hua⟩ := map_eq_ok.mp ht
  cases hua
  have hfields := construct_eq_ok.mp hu
  refine ⟨hfields ▸ inv_nextFields h r nowMs workerId, ?_⟩
  rw [hfields]
  exact le_nextScore h.score r nowMs workerId

theorem rises_outcomeTransition {s s' : SessionState} {outcome : Outcome} {nowMs : ℤ}
    (h : Inv g s.toStateFields) (ht : outcomeTransition outcome nowMs s = .ok s') :
    Rises g s s' := by
  rw [outcomeTransition, fromDict_toDict (by exact s.lastRequest_ne)] at ht
  have hfields := construct_eq_ok.mp ht
  refine ⟨hfields ▸ ⟨h.distinct, h.score, h.flag, h.names⟩, ?_⟩
  rw [hfields]

omit [Platform] in
theorem le_signalScore {s : StateFields} (h : s.riskScore ≤ 1000) (signal : PyStr) :
    s.riskScore ≤ signalScore signal s := by
  rw [signalScore]
  split <;> omega

theorem rises_signalTransition {s s' : SessionState} {signal : PyStr} {nowMs : ℤ}
    (h : Inv g s.toStateFields) (ht : g.signalTransition signal nowMs s = .ok s') :
    Rises g s s' := by
  rw [Guardian.signalTransition, fromDict_toDict (by exact s.lastRequest_ne)] at ht
  have hfields := construct_eq_ok.mp ht
  refine ⟨hfields ▸ ⟨h.distinct, min_le_left _ _, ?_, h.names⟩, ?_⟩
  · exact decide_eq_true_iff
  · rw [hfields]
    exact le_signalScore h.score signal

theorem inv_recoverTransition {s s' : SessionState} (ht : recoverTransition s = .ok s') :
    Inv g s'.toStateFields := by
  rw [construct_eq_ok.mp ht]
  have hnew := inv_new g s.tenant s.sessionId
  exact ⟨hnew.distinct, hnew.score, hnew.flag, hnew.names⟩

/-! ## Updates -/

section Updates

variable {ρ δ : Type} {store : Store ρ} {t t' : States ρ} {tenant sessionId : PyStr}
  {transition : SessionState → Except Exn (SessionState × δ)}

/-- The row that an update keeps. -/
theorem updateRow_eq_ok {row : Option ρ} {x : (SessionState × δ) × ρ} :
    updateRow store tenant sessionId row transition = .ok x ↔
      ∃ s, store.load tenant sessionId row = .ok s ∧ transition s = .ok x.1 ∧
        (x.1.1.tenant = tenant ∧ x.1.1.sessionId = sessionId) ∧ store.save x.1.1 = .ok x.2 := by
  rw [updateRow, bind_eq_ok]
  refine exists_congr fun s ↦ and_congr_right fun _ ↦ ?_
  rw [bind_eq_ok]
  constructor
  · rintro ⟨⟨u, d⟩, hu, h⟩
    obtain ⟨howner, h⟩ := raiseIf_bind_eq_ok.mp h
    obtain ⟨row, hrow, h⟩ := bind_eq_ok.mp h
    cases h
    rw [not_or, not_not, not_not] at howner
    exact ⟨hu, howner, hrow⟩
  · rintro ⟨hu, howner, hrow⟩
    refine ⟨x.1, hu, raiseIf_bind_eq_ok.mpr ⟨?_, bind_eq_ok.mpr ⟨x.2, hrow, rfl⟩⟩⟩
    rw [not_or, not_not, not_not]
    exact howner

/-- What an update can do. -/
theorem update_cases (store : Store ρ) (t : States ρ) (tenant sessionId : PyStr)
    (transition : SessionState → Except Exn (SessionState × δ)) :
    (∃ e, update store t tenant sessionId transition = (.error e, t)) ∨
    ∃ s s' d row, store.load tenant sessionId (t.get? (tenant, sessionId)) = .ok s ∧
      transition s = .ok (s', d) ∧ (s'.tenant = tenant ∧ s'.sessionId = sessionId) ∧
      store.save s' = .ok row ∧
      update store t tenant sessionId transition =
      (.ok (s', d), t.put (tenant, sessionId) row) := by
  cases h : updateRow store tenant sessionId (t.get? (tenant, sessionId)) transition with
  | error e => exact .inl ⟨e, by rw [update, h]⟩
  | ok x =>
    obtain ⟨s, hs, htransition, howner, hrow⟩ := updateRow_eq_ok.mp h
    exact .inr ⟨s, x.1.1, x.1.2, x.2, hs, htransition, howner, hrow, by rw [update, h]⟩

/-- An update leaves the other rows as they are. -/
theorem update_get?_ne {key : PyStr × PyStr} (h : key ≠ (tenant, sessionId)) :
    (update store t tenant sessionId transition).2.get? key = t.get? key := by
  rcases update_cases store t tenant sessionId transition with ⟨e, hu⟩ |
    ⟨s, s', d, row, -, -, -, -, hu⟩
  · rw [hu]
  · rw [hu]
    exact Table.get?_put_ne h

/-- An update depends on its row alone. -/
theorem update_congr (h : t.get? (tenant, sessionId) = t'.get? (tenant, sessionId)) :
    (update store t tenant sessionId transition).1 =
        (update store t' tenant sessionId transition).1 ∧
      (update store t tenant sessionId transition).2.get? (tenant, sessionId) =
        (update store t' tenant sessionId transition).2.get? (tenant, sessionId) := by
  rw [update, update, h]
  split
  · exact ⟨rfl, h⟩
  · exact ⟨rfl, Table.get?_put_self.trans Table.get?_put_self.symm⟩

end Updates

/-! ## Steps -/

section Steps

variable {ρ : Type} {store : Store ρ} {t t' : States ρ} {sessionId : PyStr} {c : Call}

/-- A call that is authorized to recover the session. -/
def Call.Recovers (sessionId : PyStr) : Call → Prop
  | .recover s trustedReattestation humanApproved =>
    s = sessionId ∧ (trustedReattestation = true ∨ humanApproved = true)
  | _ => False

/-- What the transition of a call does to a state. -/
def Keeps {δ : Type} (g : Guardian) (c : Call)
    (transition : SessionState → Except Exn (SessionState × δ)) : Prop :=
  ∀ s s' d, Inv g s.toStateFields → transition s = .ok (s', d) →
    Inv g s'.toStateFields ∧ (¬c.Recovers c.sessionId → s.riskScore ≤ s'.riskScore)

theorem keeps_alone {f : SessionState → Except Exn SessionState}
    (h : ∀ s s', Inv g s.toStateFields → f s = .ok s' → Rises g s s') :
    Keeps g c fun s ↦ alone (f s) := by
  intro s s' d hs ht
  obtain ⟨u, hu, hua⟩ := map_eq_ok.mp ht
  cases hua
  exact ⟨(h s s' hs hu).inv, fun _ ↦ (h s s' hs hu).le⟩

/-- The decision that an update of the session comes to. -/
def Guardian.decided (g : Guardian) (r : Request) :
    Except Exn (SessionState × Assessment) → Except Exn GuardianDecision
  | .error _ => g.refusal r "behavioral guardian state unavailable" fun f ↦
      { f with revoke := true, requireHumanApproval := true }
  | .ok (s, a) => g.decision r s a

/-- What a call can do: it is refused, or it updates the row of its session with a transition that
keeps the invariant, and its answer depends on the update alone. -/
theorem step_cases (store : Store ρ) (g : Guardian) (c : Call) :
    (∃ answer, ∀ t, step store g t c = (answer, t)) ∨
    ∃ (δ : Type) (transition : SessionState → Except Exn (SessionState × δ))
      (answer : Except Exn (SessionState × δ) → Answer), Keeps g c transition ∧
      ∀ t, step store g t c = (answer (update store t g.tenant c.sessionId transition).1,
        (update store t g.tenant c.sessionId transition).2) := by
  cases c with
  | evaluateContext r nowMs workerId =>
    refine .inr ⟨Assessment, g.transition r nowMs workerId, fun u ↦ .decision (g.decided r u), ?_,
      fun t ↦ ?_⟩
    · exact fun s s' a hs ht ↦ ⟨(rises_transition hs ht).inv, fun _ ↦ (rises_transition hs ht).le⟩
    · rw [step, evaluateContext, Call.sessionId]
      cases (update store t g.tenant r.session (g.transition r nowMs workerId)).1 <;> rfl
  | recordOutcome r outcome nowMs =>
    -- an argument that is refused is refused before the store is touched
    cases ho : Outcome.ofText? outcome with
    | none =>
      refine .inl ⟨.state (.error ⟨.valueError, "behavioral outcome is invalid"⟩), fun t ↦ ?_⟩
      rw [step, recordOutcome, ho]
    | some o =>
      by_cases hnone : o = .none
      · subst hnone
        refine .inl ⟨.state (.error ⟨.valueError, "behavioral outcome is invalid"⟩), fun t ↦ ?_⟩
        rw [step, recordOutcome, ho]
      · refine .inr ⟨Unit, _, fun u ↦ .state (u.map Prod.fst),
          keeps_alone (f := outcomeTransition o nowMs) fun s s' ↦ rises_outcomeTransition,
          fun t ↦ ?_⟩
        rw [step, recordOutcome, ho]
        cases o <;> first | exact absurd rfl hnone | rfl
  | recordSecuritySignal sessionId signal nowMs =>
    by_cases hsignal : signal ∉ securitySignalTexts
    · refine .inl ⟨.state (.error ⟨.valueError, "behavioral security signal is invalid"⟩),
        fun t ↦ ?_⟩
      rw [step, recordSecuritySignal, if_pos hsignal]
    · refine .inr ⟨Unit, _, fun u ↦ .state (u.map Prod.fst),
        keeps_alone (f := g.signalTransition signal nowMs) fun s s' ↦ rises_signalTransition,
        fun t ↦ ?_⟩
      rw [step, recordSecuritySignal, if_neg hsignal]
      rfl
  | recover sessionId trusted human =>
    by_cases hauth : trusted = false ∧ human = false
    · refine .inl ⟨.state (.error ⟨.permissionError,
        "behavioral recovery requires a new trusted authorization event"⟩), fun t ↦ ?_⟩
      rw [step, recover, if_pos hauth]
    · refine .inr ⟨Unit, fun s ↦ alone (recoverTransition s), fun u ↦ .state (u.map Prod.fst),
        fun s s' d hs ht ↦ ?_, fun t ↦ ?_⟩
      · obtain ⟨u, hu, hua⟩ := map_eq_ok.mp ht
        cases hua
        refine ⟨inv_recoverTransition hu, fun hno ↦ absurd ⟨rfl, ?_⟩ hno⟩
        cases trusted <;> cases human <;> simp at hauth ⊢
      · rw [step, recover, if_neg hauth]
        rfl

/-- A call leaves the other sessions as they are. -/
theorem step_get?_ne (h : c.sessionId ≠ sessionId) :
    (step store g t c).2.get? (g.tenant, sessionId) = t.get? (g.tenant, sessionId) := by
  rcases step_cases store g c with ⟨answer, hstep⟩ | ⟨δ, transition, answer, -, hstep⟩
  · rw [hstep]
  · rw [hstep]
    exact update_get?_ne fun heq ↦ h (Prod.mk.inj heq).2.symm

/-- A call depends on its session alone. -/
theorem step_congr
    (h : t.get? (g.tenant, c.sessionId) = t'.get? (g.tenant, c.sessionId)) :
    (step store g t c).1 = (step store g t' c).1 ∧
      (step store g t c).2.get? (g.tenant, c.sessionId) =
        (step store g t' c).2.get? (g.tenant, c.sessionId) := by
  rcases step_cases store g c with ⟨answer, hstep⟩ | ⟨δ, transition, answer, -, hstep⟩
  · rw [hstep, hstep]
    exact ⟨rfl, h⟩
  · rw [hstep, hstep]
    obtain ⟨hanswer, hrow⟩ := update_congr h
    exact ⟨congrArg answer hanswer, hrow⟩

/-! ## Rows -/

/-- Every row was saved for a state of its session that the invariant holds of. -/
def Sound (store : Store ρ) (g : Guardian) (t : States ρ) : Prop :=
  ∀ key row, t.get? key = some row →
    ∃ s : SessionState, Inv g s.toStateFields ∧ (s.tenant, s.sessionId) = key ∧
      store.save s = .ok row

theorem sound_nil (store : Store ρ) (g : Guardian) : Sound store g [] := fun _ _ h ↦ nomatch h

variable (H : store.Lawful)

include H

/-- The invariant holds of the state that is loaded, which is that of its session. -/
theorem Sound.inv (h : Sound store g t) {s : SessionState}
    (hs : current store g t sessionId = .ok s) :
    Inv g s.toStateFields ∧ s.tenant = g.tenant ∧ s.sessionId = sessionId := by
  rw [current] at hs
  cases hrow : t.get? (g.tenant, sessionId) with
  | none =>
    rw [hrow] at hs
    rw [H.load_none hs]
    exact ⟨inv_new g _ _, rfl, rfl⟩
  | some row =>
    obtain ⟨u, hu, howner, hsave⟩ := h _ row hrow
    obtain ⟨htenant, hsession⟩ := Prod.mk.inj howner
    obtain ⟨s', hs', hdist, hstored⟩ := H.load_save hu.distinct hsave
    rw [hrow, ← htenant, ← hsession, hs'] at hs
    cases hs
    refine ⟨hu.of_stored hdist hstored, ?_, ?_⟩
    · exact (congrArg StateFields.tenant hstored).trans htenant
    · exact (congrArg StateFields.sessionId hstored).trans hsession

theorem Sound.step (h : Sound store g t) (c : Call) : Sound store g (step store g t c).2 := by
  rcases step_cases store g c with ⟨answer, hstep⟩ | ⟨δ, transition, answer, hkeeps, hstep⟩
  · rw [hstep]
    exact h
  rw [hstep]
  rcases update_cases store t g.tenant c.sessionId transition with
    ⟨e, hu⟩ | ⟨s, s', d, row, hs, htransition, howner, hsave, hu⟩
  · rw [hu]
    exact h
  rw [hu]
  intro key row' hrow'
  rw [Table.get?_put] at hrow'
  split at hrow'
  case isTrue hkey =>
    cases hrow'
    obtain ⟨hinv, -⟩ := h.inv H hs
    exact ⟨s', (hkeeps s s' d hinv htransition).1, by rw [hkey, howner.1, howner.2], hsave⟩
  case isFalse => exact h key row' hrow'

/-- A call that does not recover the session lowers no score of it. -/
theorem Sound.rises (h : Sound store g t) {s : SessionState}
    (hs : current store g t sessionId = .ok s) (hc : ¬c.Recovers sessionId) :
    ∃ s', current store g (Behavior.step store g t c).2 sessionId = .ok s' ∧
      s.riskScore ≤ s'.riskScore := by
  by_cases hsession : c.sessionId = sessionId
  case neg =>
    refine ⟨s, ?_, le_rfl⟩
    rw [current, step_get?_ne hsession]
    exact hs
  subst hsession
  rcases step_cases store g c with ⟨answer, hstep⟩ | ⟨δ, transition, answer, hkeeps, hstep⟩
  · rw [hstep]
    exact ⟨s, hs, le_rfl⟩
  rw [hstep]
  rcases update_cases store t g.tenant c.sessionId transition with
    ⟨e, hu⟩ | ⟨u, u', d, row, hload, htransition, howner, hsave, hu⟩
  · rw [hu]
    exact ⟨s, hs, le_rfl⟩
  rw [hu, current, Table.get?_put_self]
  cases hs.symm.trans hload
  obtain ⟨hinv, hle⟩ := hkeeps s u' d (h.inv H hs).1 htransition
  obtain ⟨s', hs', -, hstored⟩ := H.load_save hinv.distinct hsave
  rw [howner.1, howner.2] at hs'
  refine ⟨s', hs', (hle hc).trans_eq ?_⟩
  exact (congrArg StateFields.riskScore hstored).symm

/-! ## Runs -/

theorem sound_after (calls : List Call) : Sound store g (after store g calls) :=
  Transducer.after_invariant (sound_nil store g) fun _ c h ↦ h.step H c

/-- Calls that do not recover the session lower no score of it. -/
theorem Sound.rises_run (h : Sound store g t) {s : SessionState}
    (hs : current store g t sessionId = .ok s) {calls : List Call}
    (hcalls : ∀ c ∈ calls, ¬c.Recovers sessionId) :
    ∃ s', current store g (Transducer.after (Behavior.step store g) t calls) sessionId = .ok s' ∧
      s.riskScore ≤ s'.riskScore := by
  induction calls generalizing t s with
  | nil => exact ⟨s, hs, le_rfl⟩
  | cons c calls ih =>
    rw [List.forall_mem_cons] at hcalls
    obtain ⟨u, hu, hle⟩ := h.rises H hs hcalls.1
    obtain ⟨s', hs', hle'⟩ := ih (h.step H c) hu hcalls.2
    exact ⟨s', hs', hle.trans hle'⟩

/-- A session that is quarantined stays so until it is recovered. -/
theorem Sound.quarantined_run (h : Sound store g t) {s : SessionState}
    (hs : current store g t sessionId = .ok s) (hq : s.quarantined = true) {calls : List Call}
    (hcalls : ∀ c ∈ calls, ¬c.Recovers sessionId) :
    ∃ s', current store g (Transducer.after (Behavior.step store g) t calls) sessionId = .ok s' ∧
      s'.quarantined = true := by
  obtain ⟨s', hs', hle⟩ := h.rises_run H hs hcalls
  have hsound : Sound store g (Transducer.after (Behavior.step store g) t calls) :=
    Transducer.after_invariant h fun _ c h ↦ h.step H c
  refine ⟨s', hs', (hsound.inv H hs').1.flag.mpr ?_⟩
  exact ((h.inv H hs).1.flag.mp hq).trans hle

omit H in
/-- The answers to the calls of a session, and its row, are as if there were no other calls. -/
theorem run_filter_session (store : Store ρ) (g : Guardian) (sessionId : PyStr)
    (calls : List Call) :
    Transducer.answersTo (fun c ↦ decide (c.sessionId = sessionId)) calls
        (Transducer.run (step store g) [] calls).1 =
      (Transducer.run (step store g) []
        (calls.filter fun c ↦ decide (c.sessionId = sessionId))).1 ∧
    (after store g calls).get? (g.tenant, sessionId) =
      (after store g (calls.filter fun c ↦ decide (c.sessionId = sessionId))).get?
        (g.tenant, sessionId) := by
  refine @Transducer.run_filter _ _ _ _ _ _ _ _ (fun t : States ρ ↦ t.get? (g.tenant, sessionId))
    (fun t t' c hc h ↦ ?_) (fun t c hc ↦ ?_) _ rfl
  · obtain rfl := of_decide_eq_true hc
    exact step_congr h
  · exact step_get?_ne (of_decide_eq_false hc)

end Steps

/-! ## Decisions -/

/-- The guardian's name can be the source of a reduction. -/
def Guardian.Named (g : Guardian) : Prop := ∃ t, g.name = .ofString t ∧ IsText 256 t

/-- A reduction that removes nothing by name is constructed when its source is a text. -/
theorem postInit_plain {f : ReductionFields} (hlists : f.removeTools = [] ∧ f.removeActions = [] ∧
      f.removeResources = [] ∧ f.removeNetworkDestinations = [])
    (hbounds : ∀ b ∈ [f.maximumReadBytes, f.maximumWriteBytes, f.maximumCalls,
      f.maximumParallelism, f.maximumDurationSeconds], b = none ∨ b = some 0 ∨ b = some 1) :
    (∃ r, f.postInit = .ok r) ↔ IsText 256 f.source := by
  have hstrings : ∀ label, Policy.strings [] label = .ok [] := fun _ ↦
    Policy.strings_eq_ok_self.mpr ⟨Nat.zero_le _, fun _ h ↦ (nomatch h), List.Pairwise.nil⟩
  have hbound : ∀ b label, b = none ∨ b = some 0 ∨ b = some 1 →
      Policy.optionalNonnegative b label = .ok b := by
    rintro b label (rfl | rfl | rfl)
    · rfl
    · rfl
    · rfl
  simp only [List.forall_mem_cons, List.not_mem_nil, false_implies, implies_true, and_true]
    at hbounds
  rw [ReductionFields.postInit]
  constructor
  · rintro ⟨r, h⟩
    exact (Policy.text_bind_eq_ok.mp h).1
  · intro ht
    refine ⟨f, Policy.text_bind_eq_ok.mpr ⟨ht, ?_⟩⟩
    rw [hlists.1, hlists.2.1, hlists.2.2.1, hlists.2.2.2, hstrings, hstrings, hstrings, hstrings,
      hbound _ _ hbounds.1, hbound _ _ hbounds.2.1, hbound _ _ hbounds.2.2.1,
      hbound _ _ hbounds.2.2.2.1, hbound _ _ hbounds.2.2.2.2]
    obtain ⟨source, tools, actions, resources, destinations⟩ := f
    simp only at hlists
    obtain ⟨rfl, rfl, rfl, rfl⟩ := hlists
    rfl

theorem exists_reduction (g : Guardian) (change : ReductionFields → ReductionFields)
    (hchange : ∀ source, (∃ f, (change (plainReduction source)).postInit = .ok f) ↔
      IsText 256 source) : (∃ f, g.reduction change = .ok f) ↔ g.Named := by
  rw [Guardian.reduction]
  split
  case h_1 htext =>
    refine iff_of_false (fun ⟨f, h⟩ ↦ nomatch h) fun ⟨t, ht, _⟩ ↦ ?_
    rw [ht, PyStr.text?_ofString] at htext
    cases htext
  case h_2 source htext =>
    rw [hchange]
    have hname := PyStr.eq_ofString_of_text? htext
    refine ⟨fun h ↦ ⟨source, hname, h⟩, fun ⟨t, ht, h⟩ ↦ ?_⟩
    rw [ht] at hname
    rwa [← PyStr.ofString_injective hname]

/-- How deep the arguments of a request nest. -/
def Request.nesting (r : Request) : ℕ := r.arguments.thaw.height

theorem exists_requestDigest (r : Request) :
    (∃ x, r.requestDigest = .ok x) ↔ r.nesting < maxCanonicalDepth := by
  obtain ⟨payload, hdist, h⟩ := r.accepted
  rw [Request.requestDigest, PyValue.digest_eq_ok, ← PyValue.canonicalBytes_eq_ok]
  exact Policy.PyRequest.exists_canonicalBytes_iff r.distinct
    (Policy.PyRequest.fromDict_canonicalPayload h)

/-- A call has been answered with a denial. -/
def Answer.IsDenial : Answer → Prop
  | .decision (.ok d) => d.allowed = false
  | _ => False

theorem isDenial_refusal {r : Request} {reason : String}
    {change : ReductionFields → ReductionFields}
    (hchange : ∀ source, (∃ f, (change (plainReduction source)).postInit = .ok f) ↔
      IsText 256 source) :
    (Answer.decision (g.refusal r reason change)).IsDenial ↔
      g.Named ∧ r.nesting < maxCanonicalDepth := by
  rw [← exists_reduction g change hchange, ← exists_requestDigest]
  constructor
  · intro h
    unfold Answer.IsDenial at h
    split at h
    case h_2 => exact h.elim
    case h_1 d hd =>
    obtain ⟨f, hf, hd⟩ := bind_eq_ok.mp (Answer.decision.inj hd)
    obtain ⟨x, hx, -⟩ := bind_eq_ok.mp hd
    exact ⟨⟨f, hf⟩, x, hx⟩
  · rintro ⟨⟨f, hf⟩, x, hx⟩
    rw [Guardian.refusal, hf, hx]
    rfl

/-- What `evaluate_context` decides on a quarantined state is a denial, unless it raises. -/
theorem isDenial_decision {r : Request} {s : SessionState} {a : Assessment}
    (hq : s.quarantined = true) : (Answer.decision (g.decision r s a)).IsDenial ↔
      (g.Named ∧ r.nesting < maxCanonicalDepth) ∧
        (a.modelFailure = true ∨ s.toDict.Canonicalizes 0) := by
  rw [Guardian.decision]
  split
  case isTrue hfail =>
    rw [isDenial_refusal fun source ↦ postInit_plain ⟨rfl, rfl, rfl, rfl⟩
      (by simp [plainReduction])]
    simp [hfail]
  case isFalse hfail =>
    have hreduction := exists_reduction g (fun f ↦ { f with
      maximumCalls := some 0, maximumReadBytes := some 0, maximumWriteBytes := some 0,
      revoke := true, requireHumanApproval := true })
      fun source ↦ postInit_plain ⟨rfl, rfl, rfl, rfl⟩ (by simp [plainReduction])
    rw [← hreduction, ← exists_requestDigest, ← PyValue.digest_eq_ok, or_iff_right hfail,
      Guardian.reductionFor, if_pos hq]
    constructor
    · intro h
      unfold Answer.IsDenial at h
      split at h
      case h_2 => exact h.elim
      case h_1 d hd =>
      obtain ⟨reduction, hf, hd⟩ := bind_eq_ok.mp (Answer.decision.inj hd)
      obtain ⟨f, hf, -⟩ := map_eq_ok.mp hf
      obtain ⟨x, hx, hd⟩ := bind_eq_ok.mp hd
      obtain ⟨y, hy, -⟩ := bind_eq_ok.mp hd
      exact ⟨⟨⟨f, hf⟩, y, hy⟩, x, hx⟩
    · rintro ⟨⟨⟨f, hf⟩, y, hy⟩, x, hx⟩
      rw [hf, hx, hy]
      simp only [hq]
      rfl

/-! ## The state that is stored -/

/-- The constructor refuses the state after a request. -/
def Refuses (s : StateFields) (r : Request) (nowMs : ℤ) (workerId : PyStr) : Prop :=
  nowMs < 0 ∨ 256 < (PyStr.sortedWith s.workloads (.ofString r.executorId)).length ∨
    256 < (PyStr.sortedWith s.resources (.ofString r.resourceId)).length ∨
    256 < (PyStr.sortedWith s.workers workerId).length

/-- The state after a request is within the canonical limits. -/
structure Fits (s : StateFields) (r : Request) (nowMs : ℤ) (workerId : PyStr) : Prop where
  tenant : s.tenant.IsCanonical
  requestCount : s.requestCount < maxSafeInteger
  denialCount : s.denialCount ≤ maxSafeInteger
  firstSeenMs : s.firstSeenMs ≤ maxSafeInteger
  nowMs : nowMs ≤ maxSafeInteger
  nesting : r.nesting + 1 < maxCanonicalDepth
  workers : workerId.IsCanonical ∧ ∀ x ∈ s.workers, x.IsCanonical

theorem exists_construct_nextFields {s : SessionState} (h : Inv g s.toStateFields) {r : Request}
    {nowMs : ℤ} {workerId : PyStr} :
    (∃ s', construct (g.nextFields r nowMs workerId s) = .ok s') ↔
      ¬Refuses s.toStateFields r nowMs workerId := by
  have hvalid := s.isValid
  have hscore := hvalid.counters.2.2.1.trans (le_nextScore (g := g) h.score r nowMs workerId)
  constructor
  · rintro ⟨s', hs'⟩
    have hnext := s'.isValid
    rw [construct_eq_ok.mp hs'] at hnext
    obtain ⟨-, -, -, -, hnow⟩ := hnext.counters
    obtain ⟨hw, hr, hk, -⟩ := hnext.collections
    rintro (hneg | hlong | hlong | hlong)
    · exact absurd hnow (not_le.mpr hneg)
    · exact absurd hw.1 (not_le.mpr hlong)
    · exact absurd hr.1 (not_le.mpr hlong)
    · exact absurd hk.1 (not_le.mpr hlong)
  · intro hno
    simp only [Refuses, not_or, not_lt] at hno
    obtain ⟨hnow, hw, hr, hk⟩ := hno
    obtain ⟨payload, hdist, haccepted⟩ := r.accepted
    obtain ⟨s', hs', -⟩ := exists_construct (f := g.nextFields r nowMs workerId s) {
      tenant := hvalid.tenant
      sessionId := hvalid.sessionId
      counters := by
        refine ⟨Int.add_nonneg hvalid.counters.1 (by decide), hvalid.counters.2.1, hscore, ?_, hnow⟩
        rw [Guardian.nextFields, firstSeen]
        split
        · exact hnow
        · exact hvalid.counters.2.2.2.1
      lastRequest := by
        rintro _ ⟨⟩
        exact ⟨_, Policy.PyRequest.fromDict_canonicalPayload haccepted⟩
      collections := ⟨⟨hw, PyStr.nodup_sortedWith _ _⟩, ⟨hr, PyStr.nodup_sortedWith _ _⟩,
        ⟨hk, PyStr.nodup_sortedWith _ _⟩, hvalid.collections.2.2.2⟩
      signals := hvalid.signals }
    exact ⟨s', hs'⟩

theorem canonicalizes_texts {xs : List PyStr} : (texts xs).Canonicalizes 1 ↔
    xs.length ≤ maxCanonicalItems ∧ ∀ x ∈ xs, x.IsCanonical := by
  rw [texts, PyValue.canonicalizes_list, List.length_map, List.forall_mem_map]
  have hdepth : 1 ≤ maxCanonicalDepth ∧ 1 + 1 ≤ maxCanonicalDepth := by decide
  simp only [PyValue.canonicalizes_str, hdepth, true_and]

theorem isCanonical_securitySignal {x : PyStr} (h : x ∈ securitySignalTexts) : x.IsCanonical := by
  obtain ⟨s, hs, rfl⟩ := List.mem_map.mp h
  refine PyStr.isCanonical_ofString.mpr (isCanonicalString_of_isAscii ?_ ?_)
  · revert s
    decide
  · revert s
    decide

/-- A value that can be encoded can be at the depths where it fits. -/
theorem canonicalizes_iff_height {d : ℕ} {v : PyValue} :
    v.Canonicalizes d ↔ v.Canonicalizes 0 ∧ d + v.height ≤ maxCanonicalDepth := by
  have hjson : ∀ {e : ℕ} {c : Json}, v.canonicalValue e = .ok c → (v.Canonicalizes d ↔
      v.Canonicalizes 0 ∧ d + v.height ≤ maxCanonicalDepth) := by
    intro e c hc
    have hdepth : ∀ k, v.Canonicalizes k ↔ Canonicalizes k c := by
      intro k
      rw [PyValue.Canonicalizes, ← PyValue.canonicalValue_listed,
        PyValue.listed_of_canonicalValue v e c hc, PyValue.canonicalValue_ofJson]
      rfl
    rw [hdepth, hdepth, EventHorizon.canonicalizes_iff_height, PyValue.height_of_canonicalValue hc]
  constructor
  · rintro ⟨c, hc⟩
    exact (hjson hc).mp ⟨c, hc⟩
  · rintro ⟨⟨c, hc⟩, hheight⟩
    exact (hjson hc).mpr ⟨⟨c, hc⟩, hheight⟩

theorem canonicalizes_payload (r : Request) :
    r.canonicalPayload.Canonicalizes 1 ↔ r.nesting + 1 < maxCanonicalDepth := by
  have hheight : r.canonicalPayload.height = max 1 (r.nesting + 1) := by
    simp [Policy.PyRequest.canonicalPayload, Policy.PyRequest.payloadItems, PyValue.height,
      PyValue.heightFields, Request.nesting]
  rw [canonicalizes_iff_height, ← PyValue.digest_eq_ok, ← Request.requestDigest,
    exists_requestDigest, hheight, maxCanonicalDepth]
  omega

theorem canonicalizes_count {n : ℤ} (h : 0 ≤ n) :
    (PyValue.int n).Canonicalizes 1 ↔ n ≤ maxSafeInteger := by
  have hdepth : 1 ≤ maxCanonicalDepth := by decide
  rw [PyValue.canonicalizes_int, and_iff_right hdepth]
  omega

theorem canonicalizes_word {s : PyStr} : (PyValue.str s).Canonicalizes 1 ↔ s.IsCanonical := by
  have hdepth : 1 ≤ maxCanonicalDepth := by decide
  rw [PyValue.canonicalizes_str, and_iff_right hdepth]

theorem isCanonical_outcome (o : Outcome) : (PyStr.ofString o.text).IsCanonical := by
  refine PyStr.isCanonical_ofString.mpr (isCanonicalString_of_isAscii ?_ ?_) <;> cases o <;> decide

theorem Request.isCanonical_session (r : Request) : r.session.IsCanonical := by
  obtain ⟨arguments, hchecked⟩ := r.checked
  exact isCanonical_of_isText hchecked.sessionId

/-- The state that a request leaves has a digest when it is within the limits. -/
theorem canonicalizes_nextFields {s s' : SessionState} (h : Inv g s.toStateFields) {r : Request}
    (hsession : s.sessionId = r.session) {nowMs : ℤ} {workerId : PyStr}
    (hs' : construct (g.nextFields r nowMs workerId s) = .ok s') :
    s'.toDict.Canonicalizes 0 ↔ Fits s.toStateFields r nowMs workerId := by
  have hfields := construct_eq_ok.mp hs'
  have hvalid := s'.isValid
  rw [hfields] at hvalid
  have hinv := inv_nextFields h r nowMs workerId
  obtain ⟨hcount, hdenials, hrisk, hfirst, hnow⟩ := hvalid.counters
  obtain ⟨hw, hr, hk, hsignals⟩ := hvalid.collections
  have hkeys : ∀ f ∈ s'.items, IsCanonicalString f.1 := by
    intro f hf
    have hname : f.1 ∈ stateFieldNames := StateFields.map_fst_items s'.toStateFields ▸
      List.mem_map_of_mem hf
    have hascii : ∀ name ∈ stateFieldNames, isAscii name = true ∧
        name.toList.length ≤ maxCanonicalStringBytes := by decide
    exact isCanonicalString_of_isAscii (hascii _ hname).1 (hascii _ hname).2
  have hsession' : (g.nextFields r nowMs workerId s).sessionId.IsCanonical := by
    have heq : (g.nextFields r nowMs workerId s).sessionId = r.session := hsession
    rw [heq]
    exact r.isCanonical_session
  have hdepth : 0 ≤ maxCanonicalDepth ∧ 0 + 1 ≤ maxCanonicalDepth := by decide
  have hlength : s'.items.length ≤ maxCanonicalItems := (by decide : 14 ≤ maxCanonicalItems)
  rw [StateFields.toDict, PyValue.canonicalizes_ofNamed hkeys, and_iff_right hdepth.1,
    and_iff_right hlength, hfields]
  simp only [StateFields.items, List.forall_mem_cons, List.not_mem_nil, false_implies,
    implies_true, and_true, and_iff_right hdepth.2, Nat.zero_add, canonicalizes_word,
    canonicalizes_count hcount, canonicalizes_count hdenials, canonicalizes_count hrisk,
    canonicalizes_count hfirst, canonicalizes_count hnow, canonicalizes_texts,
    PyValue.canonicalizes_bool]
  constructor
  · rintro ⟨htenant, -, hcount', hdenials', -, hfirst', hnow', -, hrequest, -, -, hworkers, -⟩
    refine ⟨htenant, ?_, hdenials', ?_, hnow', ?_, ?_⟩
    · exact Int.lt_of_add_one_le hcount'
    · by_cases hzero : s.firstSeenMs = 0
      · rw [hzero]
        exact Int.natCast_nonneg _
      · rwa [Guardian.nextFields, firstSeen, if_neg hzero] at hfirst'
    · exact (canonicalizes_payload r).mp hrequest
    · simp only [Guardian.nextFields, PyStr.mem_sortedWith] at hworkers
      exact ⟨hworkers.2 _ (.inl rfl), fun x hx ↦ hworkers.2 x (.inr hx)⟩
  · intro hfits
    have hnames : ∀ {xs : List PyStr}, xs.length ≤ 256 → (∀ x ∈ xs, x.IsCanonical) →
        xs.length ≤ maxCanonicalItems ∧ ∀ x ∈ xs, x.IsCanonical := fun hlen hall ↦ ⟨hlen, hall⟩
    refine ⟨hfits.tenant, hsession', ?_, hfits.denialCount, ?_, ?_, hfits.nowMs,
      isCanonical_outcome _, (canonicalizes_payload r).mpr hfits.nesting,
      hnames hw.1 fun x hx ↦ hinv.names x (List.mem_append_left _ hx),
      hnames hr.1 fun x hx ↦ hinv.names x (List.mem_append_right _ hx), hnames hk.1 fun x hx ↦ ?_,
      hsignals.1, fun x hx ↦ isCanonical_securitySignal (hvalid.signals hx)⟩
    · exact Int.add_one_le_of_lt hfits.requestCount
    · exact hinv.score.trans (by decide)
    · rw [Guardian.nextFields, firstSeen]
      split
      · exact hfits.nowMs
      · exact hfits.firstSeenMs
    · rcases PyStr.mem_sortedWith.mp hx with rfl | hx
      · exact hfits.workers.1
      · exact hfits.workers.2 x hx

/-! ## Containment -/

section Containment

variable {ρ : Type} {store : Store ρ} {t : States ρ} {s : SessionState} {r : Request} {nowMs : ℤ}
  {workerId : PyStr}

/-- The answer to a request for a quarantined session is a denial unless a digest is missing. -/
theorem isDenial_step (H : store.Lawful) (h : Sound store g t)
    (hs : current store g t r.session = .ok s) (hq : s.quarantined = true) :
    (step store g t (.evaluateContext r nowMs workerId)).1.IsDenial ↔
      (g.Named ∧ r.nesting < maxCanonicalDepth) ∧
        ∀ s' a row, g.transition r nowMs workerId s = .ok (s', a) → store.save s' = .ok row →
          a.modelFailure = true ∨ s'.toDict.Canonicalizes 0 := by
  obtain ⟨hinv, htenant, hsession⟩ := h.inv H hs
  have hanswer : ∀ u, (update store t g.tenant r.session (g.transition r nowMs workerId)).1 = u →
      (step store g t (.evaluateContext r nowMs workerId)).1 = .decision (g.decided r u) := by
    rintro u rfl
    rw [step, evaluateContext]
    cases (update store t g.tenant r.session (g.transition r nowMs workerId)).1 <;> rfl
  rcases update_cases store t g.tenant r.session (g.transition r nowMs workerId) with
    ⟨e, hu⟩ | ⟨u, s', a, row, hload, htransition, howner, hsave, hu⟩
  · rw [hanswer (.error e) (congrArg Prod.fst hu), Guardian.decided]
    refine (isDenial_refusal fun source ↦ postInit_plain ⟨rfl, rfl, rfl, rfl⟩
      (by simp [plainReduction])).trans (iff_self_and.mpr fun _ s' a row htransition hsave ↦ ?_)
    -- the update would have been made
    have howner : s'.tenant = g.tenant ∧ s'.sessionId = r.session := by
      obtain ⟨v, hv, hva⟩ := map_eq_ok.mp htransition
      cases hva
      rw [construct_eq_ok.mp hv]
      exact ⟨htenant, hsession⟩
    have hrow := (updateRow_eq_ok (x := ((s', a), row))).mpr ⟨s, hs, htransition, howner, hsave⟩
    rw [update, hrow] at hu
    cases hu
  · rw [hanswer (.ok (s', a)) (congrArg Prod.fst hu), Guardian.decided]
    cases hs.symm.trans hload
    have hrises := rises_transition hinv htransition
    have hq' : s'.quarantined = true :=
      hrises.inv.flag.mpr ((hinv.flag.mp hq).trans hrises.le)
    rw [isDenial_decision hq']
    refine and_congr_right fun _ ↦ ⟨fun hcanon s'' a' row' ht _ ↦ ?_, fun hall ↦ ?_⟩
    · cases htransition.symm.trans ht
      exact hcanon
    · exact hall s' a row htransition hsave

/-- With the store in memory the denial is an answer when the name, the request and the stored state
can be written; the state is not looked at when it was not stored or the model has failed. -/
def AnswersInMemory (g : Guardian) (s : SessionState) (r : Request) (nowMs : ℤ) (workerId : PyStr) :
    Prop :=
  (g.Named ∧ r.nesting < maxCanonicalDepth) ∧ (g.ModelFails s r ∨
    Refuses s.toStateFields r nowMs workerId ∨ Fits s.toStateFields r nowMs workerId)

/-- With the store in SQLite what was stored can be written. -/
def AnswersSqlite (g : Guardian) (_ : SessionState) (r : Request) (_ : ℤ) (_ : PyStr) : Prop :=
  g.Named ∧ r.nesting < maxCanonicalDepth

theorem isDenial_inMemory {t : States SessionState} (h : Sound inMemory g t)
    (hs : current inMemory g t r.session = .ok s) (hq : s.quarantined = true) :
    (step inMemory g t (.evaluateContext r nowMs workerId)).1.IsDenial ↔
      AnswersInMemory g s r nowMs workerId := by
  obtain ⟨hinv, -, hsession⟩ := h.inv inMemory_lawful hs
  rw [isDenial_step inMemory_lawful h hs hq, AnswersInMemory]
  refine and_congr_right fun _ ↦ ?_
  constructor
  · intro hall
    rw [or_iff_not_imp_left, or_iff_not_imp_left]
    intro hmodel hrefuses
    obtain ⟨s', hs'⟩ := (exists_construct_nextFields hinv).mpr hrefuses
    have hcanon := hall s' _ s' (map_eq_ok.mpr ⟨s', hs', rfl⟩) rfl
    refine (canonicalizes_nextFields hinv hsession hs').mp (hcanon.resolve_left ?_)
    exact fun hfail ↦ hmodel (of_decide_eq_true hfail)
  · intro hcases s' a row htransition _
    obtain ⟨v, hv, hva⟩ := map_eq_ok.mp htransition
    cases hva
    rcases hcases with hmodel | hrefuses | hfits
    · exact .inl (decide_eq_true hmodel)
    · exact absurd hrefuses ((exists_construct_nextFields hinv).mp ⟨s', hv⟩)
    · exact .inr ((canonicalizes_nextFields hinv hsession hv).mpr hfits)

theorem isDenial_sqlite {t : States (List ℕ × String)} (h : Sound sqlite g t)
    (hs : current sqlite g t r.session = .ok s) (hq : s.quarantined = true) :
    (step sqlite g t (.evaluateContext r nowMs workerId)).1.IsDenial ↔
      AnswersSqlite g s r nowMs workerId := by
  rw [isDenial_step sqlite_lawful h hs hq, AnswersSqlite]
  refine and_iff_left fun s' a row _ hsave ↦ .inr ?_
  obtain ⟨payload, hpayload, -⟩ := bind_eq_ok.mp hsave
  exact PyValue.canonicalBytes_eq_ok.mp ⟨payload, hpayload⟩

/-- Quarantine is sticky and scoped over a run. -/
structure Contained (store : Store ρ) (g : Guardian) (calls : List Call) : Prop where
  /-- Once a session is quarantined, its requests are denied until it is recovered. -/
  sticky : ∀ pre mid post r nowMs workerId s,
    calls = pre ++ mid ++ .evaluateContext r nowMs workerId :: post →
    current store g (after store g pre) r.session = .ok s → s.quarantined = true →
    (∀ c ∈ mid, ¬c.Recovers r.session) →
    (step store g (after store g (pre ++ mid)) (.evaluateContext r nowMs workerId)).1.IsDenial
  /-- Its score is lowered by nothing else than its recovery. -/
  rises : ∀ pre mid post sessionId s, calls = pre ++ mid ++ post →
    current store g (after store g pre) sessionId = .ok s → (∀ c ∈ mid, ¬c.Recovers sessionId) →
    ∃ s', current store g (after store g (pre ++ mid)) sessionId = .ok s' ∧
      s.riskScore ≤ s'.riskScore
  /-- The answers to its calls and its state are as if there were no other calls. -/
  isolated : ∀ sessionId,
    Transducer.answersTo (fun c ↦ decide (c.sessionId = sessionId)) calls
        (Transducer.run (step store g) [] calls).1 =
      (Transducer.run (step store g) []
        (calls.filter fun c ↦ decide (c.sessionId = sessionId))).1 ∧
    current store g (after store g calls) sessionId =
      current store g (after store g (calls.filter fun c ↦ decide (c.sessionId = sessionId)))
        sessionId

/-- Each request for a session that is quarantined when it is made is as required. -/
def Asks (store : Store ρ) (g : Guardian) (K : SessionState → Request → ℤ → PyStr → Prop)
    (t : States ρ) (c : Call) : Prop :=
  ∀ r nowMs workerId s, c = .evaluateContext r nowMs workerId →
    current store g t r.session = .ok s → s.quarantined = true → K s r nowMs workerId

theorem contained_of_answers (H : store.Lawful) {K : SessionState → Request → ℤ → PyStr → Prop}
    (hK : ∀ t r nowMs workerId s, Sound store g t → current store g t r.session = .ok s →
      s.quarantined = true →
      ((step store g t (.evaluateContext r nowMs workerId)).1.IsDenial ↔ K s r nowMs workerId))
    (calls : List Call) :
    Contained store g calls ↔ Transducer.Throughout (step store g) (Asks store g K) [] calls := by
  rw [Transducer.throughout_iff]
  constructor
  · rintro hcontained pre c post hcalls r nowMs workerId s rfl hs hq
    have hdenial := hcontained.sticky pre [] post r nowMs workerId s (by simpa using hcalls) hs hq
      (fun c hc ↦ nomatch hc)
    rw [List.append_nil] at hdenial
    exact (hK _ r nowMs workerId s (sound_after H pre) hs hq).mp hdenial
  · intro hall
    refine ⟨?_, ?_, fun sessionId ↦ ?_⟩
    · intro pre mid post r nowMs workerId s hcalls hs hq hmid
      obtain ⟨s', hs', hq'⟩ := (sound_after H pre).quarantined_run H hs hq hmid
      rw [after, ← Transducer.after_append] at hs'
      refine (hK _ r nowMs workerId s' (sound_after H (pre ++ mid)) hs' hq').mpr ?_
      exact hall (pre ++ mid) _ post hcalls r nowMs workerId s' rfl hs' hq'
    · intro pre mid post sessionId s _ hs hmid
      obtain ⟨s', hs', hle⟩ := (sound_after H pre).rises_run H hs hmid
      rw [after, ← Transducer.after_append] at hs'
      exact ⟨s', hs', hle⟩
    · obtain ⟨hanswers, hrow⟩ := run_filter_session store g sessionId calls
      exact ⟨hanswers, by rw [current, current, hrow]⟩

/-- Quarantine is sticky and scoped over a run exactly when each request for a quarantined session
can be answered: scores never fall and sessions never meet, whatever the calls are. -/
theorem contained_iff (g : Guardian) (calls : List Call) :
    (Contained inMemory g calls ↔
      Transducer.Throughout (step inMemory g) (Asks inMemory g (AnswersInMemory g)) [] calls) ∧
    (Contained sqlite g calls ↔
      Transducer.Throughout (step sqlite g) (Asks sqlite g (AnswersSqlite g)) [] calls) :=
  ⟨contained_of_answers inMemory_lawful (fun _ _ _ _ _ h hs hq ↦ isDenial_inMemory h hs hq) calls,
    contained_of_answers sqlite_lawful (fun _ _ _ _ _ h hs hq ↦ isDenial_sqlite h hs hq) calls⟩

end Containment

end Quarantine

namespace Sample

attribute [local instance] pythonPlatform

/-- A guardian with the thresholds of the source. -/
def guardian : Guardian where
  tenant := .ofString "default"
  mode := .rule
  model := none
  reductionThreshold := 60
  quarantineThreshold := 100
  slowProbeWindowMs := 60000
  name := .ofString "behavioral-transition-guardian"
  thresholds := by decide

def session : PyStr := .ofString "session-1"

/-- The first call quarantines the session. -/
def signalled : States SessionState :=
  after inMemory guardian [.recordSecuritySignal session (.ofString "canary-interaction") 1000]

theorem exists_quarantined :
    ∃ s, current inMemory guardian signalled session = .ok s ∧ s.quarantined = true := by
  have h : ((current inMemory guardian signalled session).map fun s ↦ s.quarantined).toOption =
      some true := by decide +kernel
  cases hs : current inMemory guardian signalled session with
  | error e =>
    rw [hs] at h
    cases h
  | ok s =>
    rw [hs] at h
    exact ⟨s, rfl, Option.some.inj h⟩

end Sample

/-- A request that was accepted but has no digest is not denied when its session is quarantined. -/
theorem not_contained :
    let _ := pythonPlatform
    ∃ r : Request, Policy.PyRequest.fromDict (Policy.Sample.payload 7) = .ok r.toPyRequest ∧
      ¬Contained inMemory Sample.guardian
        [.recordSecuritySignal Sample.session (.ofString "canary-interaction") 1000,
          .evaluateContext r 2000 (.ofString "local")] := by
  intro _
  obtain ⟨q, hq⟩ := Policy.Sample.exists_request (n := 7) (by decide +kernel)
  have hdist := Policy.Sample.distinct_payload 7
  let r : Request := ⟨q, Policy.Sample.payload 7, hdist, hq⟩
  refine ⟨r, hq, fun hcontained ↦ ?_⟩
  have hsession : r.session = Sample.session := by
    obtain ⟨items, hitems, hcarries, -⟩ := Policy.PyRequest.fromDict_eq_ok.mp hq
    cases hitems
    exact (PyValue.str.inj hcarries.sessionId).symm
  obtain ⟨s, hs, hflag⟩ := Sample.exists_quarantined
  rw [← hsession] at hs
  have hdenial := hcontained.sticky [_] [] [] r 2000 (.ofString "local") s rfl hs hflag
    (fun c hc ↦ nomatch hc)
  have hnesting := ((isDenial_inMemory (sound_after inMemory_lawful _) hs hflag).mp hdenial).1.2
  rw [← exists_requestDigest, Request.requestDigest, PyValue.digest_eq_ok,
    ← PyValue.canonicalBytes_eq_ok] at hnesting
  exact absurd ((Policy.PyRequest.exists_canonicalBytes_iff hdist hq).mp hnesting) (by decide)

end EventHorizon.Behavior
