import EventHorizon.Decay.Sqlite
import Mathlib.Algebra.Ring.Int.Defs
import Mathlib.Data.List.Induction

/-!
# Runs of the decay engine

A run is a list of calls of `authorize` on one capability, under one profile and one issuance time,
against either store. A call that raises leaves the store as it was. The recorded state is a
function of the calls that were authorised: its counters are their sums and maxima, and its
authority is the closed form of these counters.
-/

namespace EventHorizon.Decay

open Policy (invalid)

section Runs

variable [Platform] {σ : Type}

/-! ## What a list of calls adds up to -/

/-- The sums and maxima of the observations of a list of calls, and their number. -/
def Counters.tally (calls : List Call) : Counters where
  useCount := calls.length
  readBytes := (calls.map (·.observation.readBytes)).sum
  writeBytes := (calls.map (·.observation.writeBytes)).sum
  denials := (calls.map (·.observation.denials)).sum
  riskScore := (calls.map (·.observation.riskScore)).foldl max 0
  canaryEvents := (calls.map (·.observation.canaryEvents)).sum
  trustAgeMs := (calls.map (·.observation.trustAgeMs)).foldl max 0
  policyAgeMs := (calls.map (·.observation.policyAgeMs)).foldl max 0
  environmentChanges := (calls.map (·.observation.environmentChanges)).sum
  workloadRestarts := (calls.map (·.observation.workloadRestarts)).sum

/-- The largest time since issuance in a list of calls. -/
def elapsedOf (issuedAtMs : ℤ) (calls : List Call) : ℤ :=
  (calls.map (·.nowMs - issuedAtMs)).foldl max 0

theorem Counters.tally_append (calls : List Call) (call : Call) :
    tally (calls ++ [call]) = ((tally calls).observe call.observation).use := by
  simp [tally, observe, use]

theorem elapsedOf_append (issuedAtMs : ℤ) (calls : List Call) (call : Call) :
    elapsedOf issuedAtMs (calls ++ [call]) =
      max (elapsedOf issuedAtMs calls) (call.nowMs - issuedAtMs) := by
  simp [elapsedOf]

/-- Every call of a list has a property, which may speak of the calls before it. -/
def Throughout (P : List Call → Call → Prop) (calls : List Call) : Prop :=
  ∀ earlier call later, calls = earlier ++ call :: later → P earlier call

section Throughout

variable {P : List Call → Call → Prop} {calls : List Call} {call : Call}

theorem Throughout.nil : Throughout P [] := by
  intro earlier call later he
  simp at he

theorem Throughout.append (h : Throughout P calls) (hcall : P calls call) :
    Throughout P (calls ++ [call]) := by
  intro earlier call' later he
  rcases List.eq_nil_or_concat later with rfl | ⟨later', last, rfl⟩
  · obtain ⟨rfl, hlast⟩ := List.append_inj' he rfl
    exact List.singleton_inj.mp hlast ▸ hcall
  · rw [List.concat_eq_append, ← List.cons_append, ← List.append_assoc] at he
    exact h earlier call' later' (List.append_inj' he rfl).1

theorem Throughout.left {later : List Call} (h : Throughout P (calls ++ later)) :
    Throughout P calls := by
  intro earlier call later' he
  refine h earlier call (later' ++ later) ?_
  rw [he, List.append_assoc, List.cons_append]

theorem Throughout.last (h : Throughout P (calls ++ [call])) : P calls call := h calls call [] rfl

end Throughout

/-! ## Runs -/

/-- A call of a run, and what came of it. -/
structure Outcome where
  call : Call
  result : Except Exn DecayEvaluation

/-- A store, and the calls that were made. -/
structure Run (σ : Type) where
  store : σ
  outcomes : List Outcome

/-- The calls that were authorised, in order. -/
def Run.authorised (r : Run σ) : List Call :=
  r.outcomes.filterMap fun o ↦
    match o.result with
    | .ok _ => some o.call
    | .error _ => none

/-- One more call. -/
def Run.perform (store : Store σ) (capabilityId : String) (profile : ProfileFields) (issuedAtMs : ℤ)
    (r : Run σ) (call : Call) : Run σ :=
  match authorize store r.store capabilityId profile issuedAtMs call with
  | .ok (s, evaluation) => ⟨s, r.outcomes ++ [⟨call, .ok evaluation⟩]⟩
  | .error e => ⟨r.store, r.outcomes ++ [⟨call, .error e⟩]⟩

/-- A list of calls, from a given store. -/
def run (store : Store σ) (capabilityId : String) (profile : ProfileFields) (issuedAtMs : ℤ) (s : σ)
    (calls : List Call) : Run σ :=
  calls.foldl (Run.perform store capabilityId profile issuedAtMs) ⟨s, []⟩

/-- The state that is stored for a capability. -/
def stored (store : Store σ) (s : σ) (capabilityId : String) : Option DecayState :=
  match store.load s capabilityId with
  | .ok state => state
  | .error _ => none

/-- The authority that is stored for a capability. -/
def storedAuthority (store : Store σ) (s : σ) (capabilityId : String) : Option DecayAuthority :=
  (stored store s capabilityId).map (·.currentAuthority)

variable {store : Store σ} {capabilityId : String} {profile profile' : DecayProfile}
  {issuedAtMs : ℤ}
  {s s' : σ} {call : Call} {prior : Option DecayState} {ev : DecayEvaluation}

theorem run_append (calls : List Call) (call : Call) :
    run store capabilityId profile.toProfileFields issuedAtMs s (calls ++ [call]) =
      (run store capabilityId profile.toProfileFields issuedAtMs s calls).perform store capabilityId
        profile.toProfileFields issuedAtMs call := by
  simp [run]

/-! ## One call -/

omit [Platform] in
theorem asUnavailable_eq_ok {α : Type} {x : Except Exn α} {a : α} :
    asUnavailable x = .ok a ↔ x = .ok a := by
  cases x with
  | ok b => rfl
  | error e =>
    rw [asUnavailable]
    split <;> simp

/-- The store accepts the state that a transition makes. -/
theorem validate_record {profileDigest : String} (ho : call.observation.Nonneg)
    (hprior : ∀ s ∈ prior, Recorded capabilityId profile.toProfileFields issuedAtMs s)
    (hd : profile.profileDigest = .ok profileDigest) :
    validateStateTransition capabilityId prior
      (record capabilityId profileDigest profile.toProfileFields issuedAtMs call prior) =
      .ok () := by
  refine raiseIf_bind_eq_ok.mpr ⟨fun h ↦ h rfl, ?_⟩
  cases prior with
  | none => rfl
  | some p =>
    have hp := hprior p rfl
    have hle : p.counters.Le ((p.counters.observe call.observation).use) :=
      (p.counters.le_observe ho).trans (Counters.le_use _)
    have hdigest : profileDigest = p.profileDigest :=
      Except.ok.inj (hd.symm.trans hp.profileDigest)
    have hsubset : (DecayAuthority.closedForm profile.toProfileFields issuedAtMs
        (observed call (some p)).use (elapsedMs issuedAtMs call.nowMs (some p))).isSubsetOf
          p.currentAuthority = true :=
      ((closedForm_within_judged ho hprior).trans judged_within).isSubsetOf hp.valid.normal
    have hnot : ∀ {m n : ℤ}, m ≤ n → ¬n < m := fun h ↦ not_lt.mpr h
    refine raiseIf_bind_eq_ok.mpr ⟨fun h ↦ h hdigest, ?_⟩
    refine raiseIf_bind_eq_ok.mpr ⟨hnot (le_max_right _ _), ?_⟩
    refine raiseIf_bind_eq_ok.mpr ⟨hnot hle.useCount, ?_⟩
    refine raiseIf_bind_eq_ok.mpr ⟨hnot hle.readBytes, ?_⟩
    refine raiseIf_bind_eq_ok.mpr ⟨hnot hle.writeBytes, ?_⟩
    refine raiseIf_bind_eq_ok.mpr ⟨hnot hle.denials, ?_⟩
    refine raiseIf_bind_eq_ok.mpr ⟨hnot hle.riskScore, ?_⟩
    refine raiseIf_bind_eq_ok.mpr ⟨hnot hle.canaryEvents, ?_⟩
    refine raiseIf_bind_eq_ok.mpr ⟨hnot hle.trustAgeMs, ?_⟩
    refine raiseIf_bind_eq_ok.mpr ⟨hnot hle.policyAgeMs, ?_⟩
    refine raiseIf_bind_eq_ok.mpr ⟨hnot hle.environmentChanges, ?_⟩
    refine raiseIf_bind_eq_ok.mpr ⟨hnot hle.workloadRestarts, ?_⟩
    rw [raiseIf_eq_ok, Bool.not_eq_false]
    exact hsubset

/-- The numbers of a state. -/
def DecayState.numbers (s : DecayState) : List ℤ := [s.maxObservedTimeMs, s.counters.useCount,
  s.counters.readBytes, s.counters.writeBytes, s.counters.denials, s.counters.riskScore,
  s.counters.canaryEvents, s.counters.trustAgeMs, s.counters.policyAgeMs,
  s.counters.environmentChanges, s.counters.workloadRestarts]

omit [Platform] in
/-- When a state can be constructed. -/
theorem DecayState.postInit_eq_ok {s : DecayState} : s.postInit = .ok s ↔ s.capabilityId ≠ "" ∧
    isDigest s.profileDigest = true ∧ ∀ n ∈ s.numbers, 0 ≤ n ∧ n ≤ maxSafeInteger := by
  simp only [postInit, raiseIf_bind_eq_ok, nonnegative_bind_eq_ok, numbers, List.forall_mem_cons,
    Bool.not_eq_false]
  constructor
  · rintro ⟨hid, hd, h1, h2, h3, h4, h5, h6, h7, h8, h9, h10, h11, -⟩
    exact ⟨hid, hd, h1, h2, h3, h4, h5, h6, h7, h8, h9, h10, h11, by simp⟩
  · rintro ⟨hid, hd, h1, h2, h3, h4, h5, h6, h7, h8, h9, h10, h11, -⟩
    exact ⟨hid, hd, h1, h2, h3, h4, h5, h6, h7, h8, h9, h10, h11, rfl⟩

/-- What a call has to meet to be authorised, and the state it records. -/
structure Admits (store : Store σ) (capabilityId : String) (profile : ProfileFields)
    (issuedAtMs : ℤ)
    (s : σ) (prior : Option DecayState) (call : Call) (digest : String) (s' : σ) : Prop where
  observation : call.observation.check = .ok ()
  clock : issuedAtMs - 5000 ≤ call.nowMs
  profileDigest : profile.profileDigest = .ok digest
  expirable : Expirable profile issuedAtMs call prior
  permits : (judged profile issuedAtMs call prior).permits call.request
    (effectiveNow call.nowMs prior) = true
  constructed : (record capabilityId digest profile issuedAtMs call prior).postInit =
    .ok (record capabilityId digest profile issuedAtMs call prior)
  saved : store.save s capabilityId
    (record capabilityId digest profile issuedAtMs call prior) = .ok s'

/-- When a call is authorised, and what it returns. -/
theorem authorize_eq_ok (hload : store.load s capabilityId = .ok prior)
    (hprior : ∀ s ∈ prior, Recorded capabilityId profile.toProfileFields issuedAtMs s) :
    authorize store s capabilityId profile.toProfileFields issuedAtMs call = .ok (s', ev) ↔
      ∃ profileDigest, Admits store capabilityId profile.toProfileFields issuedAtMs s prior call
        profileDigest s' ∧
        ev = ⟨judged profile.toProfileFields issuedAtMs call prior,
          record capabilityId profileDigest profile.toProfileFields issuedAtMs call prior,
          rolledBack call.nowMs prior⟩ := by
  constructor
  · intro h
    obtain ⟨⟨⟩, hcheck, h⟩ := bind_eq_ok.mp h
    have ho := Observation.nonneg_of_check hcheck
    obtain ⟨hclock, h⟩ := raiseIf_bind_eq_ok.mp h
    obtain ⟨p, hp, h⟩ := bind_eq_ok.mp (asUnavailable_eq_ok.mp h)
    obtain rfl := Except.ok.inj (hload.symm.trans hp)
    obtain ⟨ev', hev, h⟩ := bind_eq_ok.mp h
    obtain ⟨d, hd, hexp, hpermits, hconstructed, rfl⟩ := (transition_eq_ok ho hprior).mp hev
    obtain ⟨⟨⟩, -, h⟩ := bind_eq_ok.mp h
    obtain ⟨y, hsave, h⟩ := bind_eq_ok.mp h
    obtain ⟨rfl, rfl⟩ := Prod.mk.inj (Except.ok.inj h)
    exact ⟨d, ⟨hcheck, not_lt.mp hclock, hd, hexp, hpermits, hconstructed, hsave⟩, rfl⟩
  · rintro ⟨d, h, rfl⟩
    have ho := Observation.nonneg_of_check h.observation
    refine bind_eq_ok.mpr ⟨(), h.observation, raiseIf_bind_eq_ok.mpr ⟨not_lt.mpr h.clock, ?_⟩⟩
    have hev := (transition_eq_ok ho hprior).mpr
      ⟨d, h.profileDigest, h.expirable, h.permits, h.constructed, rfl⟩
    refine asUnavailable_eq_ok.mpr (bind_eq_ok.mpr ⟨prior, hload, bind_eq_ok.mpr ⟨_, hev, ?_⟩⟩)
    exact bind_eq_ok.mpr ⟨(), validate_record ho hprior h.profileDigest,
      bind_eq_ok.mpr ⟨s', h.saved, rfl⟩⟩

/-! ## The recorded state of a run -/

omit [Platform] in
/-- The closed form is a valid authority when no step it applies expires before time zero. -/
theorem valid_closedForm {c : Counters} {e : ℤ}
    (h : ∀ step ∈ reached profile.steps (c.reading e), ∀ n ∈ step.expiration issuedAtMs, 0 ≤ n) :
    (DecayAuthority.closedForm profile.toProfileFields issuedAtMs c e).Valid := by
  have hsteps :
      applySteps profile.steps (c.reading e) issuedAtMs profile.initialAuthority = .ok _ :=
    (DecayAuthority.applySteps_eq_ok profile.initialValid fun _ h ↦ DecayProfile.step_valid h).mpr
      ⟨h, rfl⟩
  exact DecayAuthority.valid_spent (DecayAuthority.valid_of_applySteps profile.initialValid hsteps)

theorem Admits.recorded {digest : String}
    (h : Admits store capabilityId profile.toProfileFields issuedAtMs s prior call digest s') :
    Recorded capabilityId profile.toProfileFields issuedAtMs
      (record capabilityId digest profile.toProfileFields issuedAtMs call prior) where
  capabilityId := rfl
  profileDigest := h.profileDigest
  constructed := h.constructed
  authority := rfl
  valid := valid_closedForm h.expirable

/-- The stored state is that of a list of authorised calls. -/
structure Tallied (store : Store σ) (capabilityId : String) (profile : ProfileFields)
    (issuedAtMs : ℤ) (s : σ) (calls : List Call) (prior : Option DecayState) : Prop where
  load : store.load s capabilityId = .ok prior
  recorded : ∀ p ∈ prior, Recorded capabilityId profile issuedAtMs p
  none_iff : prior = none ↔ calls = []
  counters : countersOf prior = Counters.tally calls
  elapsed : ∀ p ∈ prior, max 0 (p.maxObservedTimeMs - issuedAtMs) = elapsedOf issuedAtMs calls

/-- A call that is authorised is added to the list. -/
theorem Tallied.authorize (hl : store.Lawful) {calls : List Call}
    (h : Tallied store capabilityId profile.toProfileFields issuedAtMs s calls prior)
    (hcall : authorize store s capabilityId profile.toProfileFields issuedAtMs call =
      .ok (s', ev)) :
    Tallied store capabilityId profile.toProfileFields issuedAtMs s' (calls ++ [call])
      (some ev.resultingState) := by
  obtain ⟨d, hadmits, rfl⟩ := (authorize_eq_ok h.load h.recorded).mp hcall
  have hrecorded := hadmits.recorded
  refine ⟨hl.load_save rfl hadmits.constructed hrecorded.valid hadmits.saved, ?_, by simp, ?_, ?_⟩
  · intro p hp
    exact Option.some.inj hp ▸ hrecorded
  · rw [Counters.tally_append, ← h.counters]
    rfl
  · intro p hp
    rw [← Option.some.inj hp, elapsedOf_append]
    cases prior with
    | none =>
      rw [h.none_iff.mp rfl]
      rfl
    | some q =>
      have hq := h.elapsed q rfl
      simp only [record, effectiveNow]
      omega

/-- The state a run leaves is that of its authorised calls. -/
theorem tallied_run (hl : store.Lawful) (profile : DecayProfile) (issuedAtMs : ℤ)
    (hs : store.load s capabilityId = .ok none) (calls : List Call) :
    ∃ prior, Tallied store capabilityId profile.toProfileFields issuedAtMs
      (run store capabilityId profile.toProfileFields issuedAtMs s calls).store
      (run store capabilityId profile.toProfileFields issuedAtMs s calls).authorised prior := by
  induction calls using List.reverseRecOn with
  | nil => exact ⟨none, hs, by simp, by simp [run, Run.authorised], rfl, by simp⟩
  | append_singleton calls call ih =>
    obtain ⟨prior, ih⟩ := ih
    rw [run_append, Run.perform]
    cases hcall : Decay.authorize store _ capabilityId profile.toProfileFields issuedAtMs call with
    | ok result =>
      obtain ⟨s', ev⟩ := result
      refine ⟨some ev.resultingState, ?_⟩
      have hnext := ih.authorize hl hcall
      simpa [Run.authorised] using hnext
    | error e =>
      refine ⟨prior, ?_⟩
      simpa [Run.authorised] using ih

theorem Tallied.stored {calls : List Call}
    (h : Tallied store capabilityId profile.toProfileFields issuedAtMs s calls prior) :
    stored store s capabilityId = prior := by
  rw [Decay.stored, h.load]

/-- The stored authority is the closed form of the authorised calls. -/
theorem Tallied.storedAuthority {calls : List Call}
    (h : Tallied store capabilityId profile.toProfileFields issuedAtMs s calls prior) :
    storedAuthority store s capabilityId = if calls = [] then none else
      some (DecayAuthority.closedForm profile.toProfileFields issuedAtMs (Counters.tally calls)
        (elapsedOf issuedAtMs calls)) := by
  rw [Decay.storedAuthority, h.stored]
  cases prior with
  | none => rw [if_pos (h.none_iff.mp rfl), Option.map_none]
  | some p =>
    have hne : calls ≠ [] := fun he ↦ nomatch h.none_iff.mpr he
    rw [if_neg hne, Option.map_some, (h.recorded p rfl).authority, h.elapsed p rfl, ← h.counters]
    rfl

/-! ## Authority decreases -/

/-- A later state of one capability: more is counted, and less is left. -/
structure DecayState.Grows (p q : DecayState) : Prop where
  counters : p.counters.Le q.counters
  maxObservedTimeMs : p.maxObservedTimeMs ≤ q.maxObservedTimeMs
  currentAuthority : q.currentAuthority.Within p.currentAuthority

omit [Platform] in
theorem DecayState.Grows.refl (p : DecayState) : p.Grows p :=
  ⟨.refl _, le_rfl, .refl _⟩

omit [Platform] in
theorem DecayState.Grows.trans {p q r : DecayState} (h : p.Grows q) (h' : q.Grows r) : p.Grows r :=
  ⟨h.counters.trans h'.counters, le_trans h.maxObservedTimeMs h'.maxObservedTimeMs,
    h'.currentAuthority.trans h.currentAuthority⟩

/-- One call that is authorised. -/
theorem grows_of_authorize (hload : store.load s capabilityId = .ok prior)
    (hprior : ∀ s ∈ prior, Recorded capabilityId profile.toProfileFields issuedAtMs s)
    (hcall : authorize store s capabilityId profile.toProfileFields issuedAtMs call = .ok (s', ev))
    {p : DecayState} (hp : p ∈ prior) : p.Grows ev.resultingState := by
  obtain ⟨d, hadmits, rfl⟩ := (authorize_eq_ok hload hprior).mp hcall
  obtain rfl := Option.mem_def.mp hp
  have ho := Observation.nonneg_of_check hadmits.observation
  exact ⟨(p.counters.le_observe ho).trans (Counters.le_use _), le_max_right _ _,
    (closedForm_within_judged ho hprior).trans judged_within⟩

/-- A run from a run. -/
theorem grows_run (hl : store.Lawful) (hs : store.load s capabilityId = .ok none)
    (earlier later : List Call) {p : DecayState}
    (hp : p ∈ stored store
      (run store capabilityId profile.toProfileFields issuedAtMs s earlier).store capabilityId) :
    ∃ q ∈ stored store (run store capabilityId profile.toProfileFields issuedAtMs s
      (earlier ++ later)).store capabilityId, p.Grows q := by
  induction later using List.reverseRecOn with
  | nil => exact ⟨p, by rwa [List.append_nil], .refl p⟩
  | append_singleton later call ih =>
    obtain ⟨q, hq, hgrows⟩ := ih
    obtain ⟨prior, hprior⟩ := tallied_run hl profile issuedAtMs hs (earlier ++ later)
    rw [hprior.stored] at hq
    rw [← List.append_assoc, run_append, Run.perform]
    cases hcall : authorize store _ capabilityId profile.toProfileFields issuedAtMs call with
    | ok result =>
      obtain ⟨s', ev⟩ := result
      refine ⟨ev.resultingState, (hprior.authorize hl hcall).stored, hgrows.trans ?_⟩
      exact grows_of_authorize hprior.load hprior.recorded hcall hq
    | error e => exact ⟨q, hprior.stored ▸ hq, hgrows⟩

/-! ## The order of the steps -/

/-- The same profile with its steps in another order. -/
structure Reordered (profile profile' : ProfileFields) : Prop where
  fields : profile' = { profile with steps := profile'.steps }
  steps : profile'.steps.Perm profile.steps

omit [Platform] in
theorem Reordered.symm {profile profile' : ProfileFields} (h : Reordered profile profile') :
    Reordered profile' profile :=
  ⟨by rw [h.fields], h.steps.symm⟩

omit [Platform] in
theorem Reordered.mem_reached {profile profile' : ProfileFields} (h : Reordered profile profile')
    {reading : Trigger → ℤ} {step : DecayStep} :
    step ∈ reached profile'.steps reading ↔ step ∈ reached profile.steps reading := by
  rw [Decay.mem_reached, Decay.mem_reached, h.steps.mem_iff]

omit [Platform] in
theorem Reordered.initialAuthority {profile profile' : ProfileFields}
    (h : Reordered profile profile') : profile'.initialAuthority = profile.initialAuthority := by
  rw [h.fields]

omit [Platform] in
theorem Reordered.closedForm {profile profile' : ProfileFields} (h : Reordered profile profile')
    (c : Counters) (e : ℤ) : DecayAuthority.closedForm profile' issuedAtMs c e =
      DecayAuthority.closedForm profile issuedAtMs c e := by
  rw [DecayAuthority.closedForm, DecayAuthority.closedForm, h.initialAuthority,
    DecayAuthority.reduced_congr fun _ ↦ h.mem_reached]

/-- The digest of a profile can be computed whatever the order of its steps. -/
theorem Reordered.exists_profileDigest {profile profile' : ProfileFields}
    (h : Reordered profile profile') {d : String} (hd : profile.profileDigest = .ok d) :
    ∃ d', profile'.profileDigest = .ok d' := by
  refine exists_digest_eq_ok.mpr ?_
  have hc : Canonicalizes 0 profile.toDict := exists_digest_eq_ok.mp ⟨d, hd⟩
  have hsteps : ∀ {k : ℕ}, Canonicalizes k (.arr (profile.steps.map DecayStep.toDict)) →
      Canonicalizes k (.arr (profile'.steps.map DecayStep.toDict)) := by
    intro k hk
    have hperm := h.steps.map DecayStep.toDict
    rw [canonicalizes_arr] at hk ⊢
    exact ⟨hk.1, hperm.length_eq ▸ hk.2.1, fun x hx ↦ hk.2.2 x (hperm.mem_iff.mp hx)⟩
  rw [h.fields]
  simp only [ProfileFields.toDict, canonicalizes_obj, List.mem_cons, List.not_mem_nil, or_false,
    forall_eq_or_imp, forall_eq, List.length_cons, List.length_nil] at hc ⊢
  obtain ⟨hd, hlen, h1, h2, h3, ⟨hs1, hs2, hs⟩, h5⟩ := hc
  exact ⟨hd, hlen, h1, h2, h3, ⟨hs1, hs2, hsteps hs⟩, h5⟩

/-- Two recorded states that differ at most in the digest of the profile. -/
def SameRecord (prior prior' : Option DecayState) : Prop :=
  prior'.map (fun p ↦ { p with profileDigest := "" }) =
    prior.map fun p ↦ { p with profileDigest := "" }

omit [Platform] in
theorem SameRecord.cases {prior prior' : Option DecayState} (h : SameRecord prior prior') :
    prior = none ∧ prior' = none ∨
      ∃ p d, prior = some p ∧ prior' = some { p with profileDigest := d } := by
  cases prior with
  | none => exact .inl ⟨rfl, Option.map_eq_none_iff.mp h⟩
  | some p =>
    obtain ⟨q, rfl, hq⟩ := Option.map_eq_some_iff.mp h
    obtain ⟨hid, -, htime, hcounters, hauthority⟩ := DecayState.mk.inj hq
    refine .inr ⟨p, q.profileDigest, rfl, congrArg some ?_⟩
    rw [← hid, ← htime, ← hcounters, ← hauthority]

section Order

variable {prior' : Option DecayState}
  (h : Reordered profile.toProfileFields profile'.toProfileFields)
  (hprior : SameRecord prior prior')

include hprior

omit [Platform] in
theorem SameRecord.effectiveNow (nowMs : ℤ) :
    effectiveNow nowMs prior' = effectiveNow nowMs prior := by
  obtain ⟨rfl, rfl⟩ | ⟨p, d, rfl, rfl⟩ := hprior.cases <;> rfl

omit [Platform] in
theorem SameRecord.countersOf : countersOf prior' = countersOf prior := by
  obtain ⟨rfl, rfl⟩ | ⟨p, d, rfl, rfl⟩ := hprior.cases <;> rfl

theorem SameRecord.observed : observed call prior' = observed call prior := by
  rw [Decay.observed, Decay.observed, hprior.countersOf]

omit [Platform] in
theorem SameRecord.elapsedMs (nowMs : ℤ) :
    elapsedMs issuedAtMs nowMs prior' = elapsedMs issuedAtMs nowMs prior := by
  rw [Decay.elapsedMs, Decay.elapsedMs, hprior.effectiveNow]

include h

omit [Platform] in
theorem authorityOf_reordered : authorityOf profile'.toProfileFields prior' =
    authorityOf profile.toProfileFields prior := by
  obtain ⟨rfl, rfl⟩ | ⟨p, d, rfl, rfl⟩ := hprior.cases
  · exact h.initialAuthority
  · rfl

theorem judged_reordered : judged profile'.toProfileFields issuedAtMs call prior' =
    judged profile.toProfileFields issuedAtMs call prior := by
  rw [judged, judged, authorityOf_reordered h hprior, hprior.observed, hprior.elapsedMs]
  exact DecayAuthority.reduced_congr fun _ ↦ h.mem_reached

theorem record_reordered (digest digest' : String) :
    record capabilityId digest' profile'.toProfileFields issuedAtMs call prior' =
      { record capabilityId digest profile.toProfileFields issuedAtMs call prior with
        profileDigest := digest' } := by
  rw [record, record, hprior.observed, hprior.elapsedMs, hprior.effectiveNow, h.closedForm]

/-- What one order of the steps admits, another does. -/
theorem Admits.reordered (hl : store.Lawful) {digest : String} {t : σ}
    (ha : Admits store capabilityId profile.toProfileFields issuedAtMs s prior call digest s') :
    ∃ digest' t',
      Admits store capabilityId profile'.toProfileFields issuedAtMs t prior' call digest'
      t' := by
  obtain ⟨digest', hdigest'⟩ := h.exists_profileDigest ha.profileDigest
  have hisDigest : isDigest digest' = true := isDigest_of_digest_eq_ok hdigest'
  obtain ⟨t', ht'⟩ := hl.save_congr t hisDigest ha.saved
  have hexpirable := ha.expirable
  have hconstructed := ha.constructed
  refine ⟨digest', t', ha.observation, ha.clock, hdigest', ?_, ?_, ?_, ?_⟩
  · intro step hstep
    rw [hprior.observed, hprior.elapsedMs, h.mem_reached] at hstep
    exact hexpirable step hstep
  · rw [judged_reordered h hprior, hprior.effectiveNow]
    exact ha.permits
  · rw [record_reordered h hprior digest digest']
    rw [DecayState.postInit_eq_ok] at hconstructed ⊢
    exact ⟨hconstructed.1, hisDigest, hconstructed.2.2⟩
  · rw [record_reordered h hprior digest digest']
    exact ht'

end Order

/-- Two runs of the same calls under reordered profiles authorise the same calls. -/
theorem run_reordered (hl : store.Lawful) (issuedAtMs : ℤ) {t : σ}
    (h : Reordered profile.toProfileFields profile'.toProfileFields)
    (hs : store.load s capabilityId = .ok none) (ht : store.load t capabilityId = .ok none)
    (calls : List Call) :
    (run store capabilityId profile'.toProfileFields issuedAtMs t calls).authorised =
      (run store capabilityId profile.toProfileFields issuedAtMs s calls).authorised ∧
    SameRecord
      (stored store (run store capabilityId profile.toProfileFields issuedAtMs s calls).store
        capabilityId)
      (stored store (run store capabilityId profile'.toProfileFields issuedAtMs t calls).store
        capabilityId) := by
  induction calls using List.reverseRecOn with
  | nil =>
    simp only [run, List.foldl_nil, stored, hs, ht]
    exact ⟨rfl, rfl⟩
  | append_singleton calls call ih =>
    obtain ⟨hauthorised, hsame⟩ := ih
    obtain ⟨prior, hprior⟩ := tallied_run hl profile issuedAtMs hs calls
    obtain ⟨prior', hprior'⟩ := tallied_run hl profile' issuedAtMs ht calls
    rw [hprior.stored, hprior'.stored] at hsame
    rw [run_append, run_append, Run.perform, Run.perform]
    cases hcall : authorize store _ capabilityId profile.toProfileFields issuedAtMs call with
    | ok result =>
      obtain ⟨u, ev⟩ := result
      obtain ⟨d, hadmits, rfl⟩ := (authorize_eq_ok hprior.load hprior.recorded).mp hcall
      obtain ⟨d', u', hadmits'⟩ := hadmits.reordered h hsame hl
      have hcall' := (authorize_eq_ok hprior'.load hprior'.recorded).mpr ⟨d', hadmits', rfl⟩
      have hrecord : record capabilityId d' profile'.toProfileFields issuedAtMs call prior' = _ :=
        record_reordered h hsame d d'
      rw [hcall']
      constructor
      · simpa [Run.authorised] using hauthorised
      · rw [(hprior.authorize hl hcall).stored, (hprior'.authorize hl hcall').stored, SameRecord,
          Option.map_some, Option.map_some, hrecord]
    | error e =>
      cases hcall' : authorize store _ capabilityId profile'.toProfileFields issuedAtMs call with
      | ok result =>
        -- the call would be authorised under the first order too
        obtain ⟨u', ev'⟩ := result
        obtain ⟨d', hadmits', -⟩ := (authorize_eq_ok hprior'.load hprior'.recorded).mp hcall'
        obtain ⟨d, u, hadmits⟩ := hadmits'.reordered h.symm hsame.symm hl
        have hok := (authorize_eq_ok hprior.load hprior.recorded).mpr ⟨d, hadmits, rfl⟩
        exact nomatch hcall.symm.trans hok
      | error e' =>
        constructor
        · simpa [Run.authorised] using hauthorised
        · rwa [hprior.stored, hprior'.stored]

/-! ## Errors that are not raised -/

/-- What the engine raises when an authority would grow. -/
def increaseError : Exn := denied "decay transition attempted to increase authority"

section NotRaised

variable {e : Exn} (he : e.cls = .decayError)

include he

omit [Platform] in
theorem invalid_ne (message : String) : invalid message ≠ e := by
  rintro rfl
  exact nomatch he

omit [Platform] in
theorem nonnegative_ne_error {n : ℤ} {name : String} : nonnegative n name ≠ .error e :=
  bind_ne_error (raiseIf_ne_error fun _ ↦ invalid_ne he _) fun _ _ ↦ ok_ne_error

omit [Platform] in
theorem strings_ne_error {xs : List String} {name : String} : strings xs name ≠ .error e :=
  bind_ne_error (raiseIf_ne_error fun _ ↦ invalid_ne he _) fun _ _ ↦
    bind_ne_error (raiseIf_ne_error fun _ ↦ invalid_ne he _) fun _ _ ↦ ok_ne_error

omit [Platform] in
theorem DecayAuthority.postInit_ne_error {a : DecayAuthority} : a.postInit ≠ .error e :=
  have hnumber : ∀ {n : ℤ} {name : String}, nonnegative n name ≠ .error e := nonnegative_ne_error he
  have hnames : ∀ {xs : List String} {name : String}, strings xs name ≠ .error e :=
    strings_ne_error he
  have hcheck : ∀ {p : Prop} [Decidable p] {message : String},
      raiseIf p (invalid message) ≠ .error e := raiseIf_ne_error fun _ ↦ invalid_ne he _
  bind_ne_error hnumber fun _ _ ↦ bind_ne_error hnumber fun _ _ ↦ bind_ne_error hnumber fun _ _ ↦
    bind_ne_error hnumber fun _ _ ↦ bind_ne_error hnumber fun _ _ ↦ bind_ne_error hnumber fun _ _ ↦
    bind_ne_error hcheck fun _ _ ↦ bind_ne_error hnames fun _ _ ↦ bind_ne_error hnames fun _ _ ↦
    bind_ne_error hnames fun _ _ ↦ bind_ne_error hnames fun _ _ ↦ bind_ne_error hcheck fun _ _ ↦
    bind_ne_error hcheck fun _ _ ↦ bind_ne_error hcheck fun _ _ ↦ ok_ne_error

omit [Platform] in
theorem DecayState.postInit_ne_error {s : DecayState} : s.postInit ≠ .error e :=
  have hnumber : ∀ {n : ℤ} {name : String}, nonnegative n name ≠ .error e := nonnegative_ne_error he
  have hcheck : ∀ {p : Prop} [Decidable p] {message : String},
      raiseIf p (invalid message) ≠ .error e := raiseIf_ne_error fun _ ↦ invalid_ne he _
  bind_ne_error hcheck fun _ _ ↦ bind_ne_error hcheck fun _ _ ↦ bind_ne_error hnumber fun _ _ ↦
    bind_ne_error hnumber fun _ _ ↦ bind_ne_error hnumber fun _ _ ↦ bind_ne_error hnumber fun _ _ ↦
    bind_ne_error hnumber fun _ _ ↦ bind_ne_error hnumber fun _ _ ↦ bind_ne_error hnumber fun _ _ ↦
    bind_ne_error hnumber fun _ _ ↦ bind_ne_error hnumber fun _ _ ↦ bind_ne_error hnumber fun _ _ ↦
    bind_ne_error hnumber fun _ _ ↦ ok_ne_error

omit [Platform] in
theorem Observation.check_ne_error {o : Observation} : o.check ≠ .error e :=
  have hnumber : ∀ {n : ℤ} {name : String}, nonnegative n name ≠ .error e := nonnegative_ne_error he
  bind_ne_error hnumber fun _ _ ↦ bind_ne_error hnumber fun _ _ ↦ bind_ne_error hnumber fun _ _ ↦
    bind_ne_error hnumber fun _ _ ↦ bind_ne_error hnumber fun _ _ ↦ bind_ne_error hnumber fun _ _ ↦
    bind_ne_error hnumber fun _ _ ↦ bind_ne_error hnumber fun _ _ ↦ bind_ne_error hnumber fun _ _ ↦
    ok_ne_error

omit [Platform] in
theorem applySteps_ne_error {steps : List DecayStep} {reading : Trigger → ℤ} {a : DecayAuthority} :
    applySteps steps reading issuedAtMs a ≠ .error e := by
  refine foldlM_ne_error fun a step ↦ ?_
  split
  · exact DecayAuthority.postInit_ne_error he
  · exact ok_ne_error

omit he

/-- No transition from a recorded state would grow the authority. -/
theorem transition_ne_increaseError
    (hprior : ∀ s ∈ prior, Recorded capabilityId profile.toProfileFields issuedAtMs s) :
    transition capabilityId profile.toProfileFields issuedAtMs call prior ≠
      .error increaseError := by
  have hcls : increaseError.cls = .decayError := rfl
  have hne : increaseError.cls ≠ .canonicalizationError := by decide
  have hvalid := authorityOf_valid hprior
  have hsteps : ∀ step ∈ profile.steps, step.Valid := fun _ h ↦ DecayProfile.step_valid h
  have hprofile : checkProfile profile.toProfileFields prior ≠ .error increaseError := by
    cases prior with
    | none => exact ok_ne_error
    | some p =>
      refine bind_ne_error (digest_ne_error hne) fun _ _ ↦ raiseIf_ne_error fun _ ↦ ?_
      decide
  refine bind_ne_error hprofile fun _ _ ↦ bind_ne_error (applySteps_ne_error hcls) fun a ha ↦ ?_
  have havalid := DecayAuthority.valid_of_applySteps hvalid ha
  obtain ⟨-, rfl⟩ := (applySteps_observed hprior).mp ha
  rw [checkDecrease_eq_ok hprior]
  refine bind_ne_error ok_ne_error fun _ _ ↦ ?_
  refine bind_ne_error (raiseIf_ne_error fun _ ↦ by decide) fun _ _ ↦ ?_
  refine bind_ne_error (applySteps_ne_error hcls) fun b hb ↦ ?_
  have hbvalid := DecayAuthority.valid_of_applySteps havalid hb
  obtain ⟨-, rfl⟩ := (DecayAuthority.applySteps_eq_ok havalid hsteps).mp hb
  refine bind_ne_error (DecayAuthority.postInit_ne_error hcls) fun c hc ↦ ?_
  obtain rfl := (DecayAuthority.spend_eq_ok hbvalid).mp hc
  refine bind_ne_error (raiseIf_ne_error fun h ↦ ?_) fun _ _ ↦ ?_
  · refine absurd h ?_
    rw [Bool.not_eq_false]
    exact (DecayAuthority.spent_within.trans DecayAuthority.reduced_within_self).isSubsetOf
      havalid.normal
  · refine bind_ne_error (digest_ne_error hne) fun _ _ ↦ ?_
    exact bind_ne_error (DecayState.postInit_ne_error hcls) fun _ _ ↦ ok_ne_error

/-- No call on a recorded state raises that the authority would grow. -/
theorem authorize_ne_increaseError (hl : store.Lawful)
    (hload : store.load s capabilityId = .ok prior)
    (hprior : ∀ s ∈ prior, Recorded capabilityId profile.toProfileFields issuedAtMs s) :
    authorize store s capabilityId profile.toProfileFields issuedAtMs call ≠
      .error increaseError := by
  have hcls : increaseError.cls = .decayError := rfl
  refine bind_ne_error (Observation.check_ne_error hcls) fun _ hcheck ↦ ?_
  refine bind_ne_error (raiseIf_ne_error fun _ ↦ by decide) fun _ _ ↦ ?_
  have ho := Observation.nonneg_of_check hcheck
  have hupdate : store.update s capabilityId
      (transition capabilityId profile.toProfileFields issuedAtMs call) ≠ .error increaseError := by
    rw [Store.update, hload]
    refine bind_ne_error ok_ne_error fun p hp ↦ ?_
    obtain rfl := Except.ok.inj hp
    refine bind_ne_error (transition_ne_increaseError hprior) fun ev hev ↦ ?_
    obtain ⟨d, hd, -, -, -, rfl⟩ := (transition_eq_ok ho hprior).mp hev
    rw [validate_record ho hprior hd]
    refine bind_ne_error ok_ne_error fun _ _ ↦ ?_
    exact bind_ne_error (hl.save_ne_error hcls) fun _ _ ↦ ok_ne_error
  cases hresult : store.update s capabilityId
      (transition capabilityId profile.toProfileFields issuedAtMs call) with
  | ok result => exact ok_ne_error
  | error e' =>
    rw [asUnavailable]
    split
    · exact fun h ↦ hupdate (hresult.trans h)
    · exact fun h ↦ absurd (Except.error.inj h) (by decide)

end NotRaised

theorem outcomes_ne_increaseError (hl : store.Lawful) (hs : store.load s capabilityId = .ok none)
    (calls : List Call) : ∀ o ∈
      (run store capabilityId profile.toProfileFields issuedAtMs s calls).outcomes,
      o.result ≠ .error increaseError := by
  induction calls using List.reverseRecOn with
  | nil => simp [run]
  | append_singleton calls call ih =>
    obtain ⟨prior, hprior⟩ := tallied_run hl profile issuedAtMs hs calls
    have hcall : authorize store _ capabilityId profile.toProfileFields issuedAtMs call ≠ _ :=
      authorize_ne_increaseError hl hprior.load hprior.recorded
    rw [run_append, Run.perform]
    split
    case h_1 s' ev _ =>
      intro o ho
      rcases List.mem_append.mp ho with ho | ho
      · exact ih o ho
      · obtain rfl := List.mem_singleton.mp ho
        exact ok_ne_error
    case h_2 e he =>
      intro o ho
      rcases List.mem_append.mp ho with ho | ho
      · exact ih o ho
      · obtain rfl := List.mem_singleton.mp ho
        exact fun h ↦ hcall (he.trans (congrArg Except.error (Except.error.inj h)))

end Runs

/-! ## Sessions -/

section Sessions

variable [Platform] {σ : Type}

/-- One of the two stores. -/
inductive EitherStore : {σ : Type} → Store σ → Prop
  | inMemory : EitherStore Decay.inMemory
  | sqlite : EitherStore Decay.sqlite

theorem EitherStore.lawful {store : Store σ} (h : EitherStore store) : store.Lawful := by
  cases h with
  | inMemory => exact inMemory_lawful
  | sqlite => exact sqlite_lawful

/-- What the calls on one capability share: the store, and the profile and the issuance time of the
capability. Nothing is stored for the capability at the start. -/
structure Session (σ : Type) where
  store : Store σ
  capabilityId : String
  profile : DecayProfile
  issuedAtMs : ℤ
  start : σ
  either : EitherStore store
  fresh : store.load start capabilityId = .ok none

namespace Session

variable (S : Session σ)

/-- The calls of a list, made one after the other. -/
def run (calls : List Call) : Run σ :=
  Decay.run S.store S.capabilityId S.profile.toProfileFields S.issuedAtMs S.start calls

/-- The state that is stored after a list of calls. -/
def state (calls : List Call) : Option DecayState :=
  stored S.store (S.run calls).store S.capabilityId

/-- The authority that is stored after a list of calls. -/
def currentAuthority (calls : List Call) : Option DecayAuthority :=
  storedAuthority S.store (S.run calls).store S.capabilityId

/-- The calls of a list that are authorised. -/
def authorised (calls : List Call) : List Call := (S.run calls).authorised

/-- A call after a list of calls. -/
def attempt (earlier : List Call) (call : Call) : Except Exn (σ × DecayEvaluation) :=
  authorize S.store (S.run earlier).store S.capabilityId S.profile.toProfileFields S.issuedAtMs call

theorem currentAuthority_eq (calls : List Call) :
    S.currentAuthority calls = (S.state calls).map (·.currentAuthority) := rfl

theorem tallied (calls : List Call) : Tallied S.store S.capabilityId S.profile.toProfileFields
    S.issuedAtMs (S.run calls).store (S.authorised calls) (S.state calls) := by
  obtain ⟨prior, hprior⟩ := tallied_run S.either.lawful S.profile S.issuedAtMs S.fresh calls
  rwa [Session.state, show stored S.store (S.run calls).store S.capabilityId = prior from
    hprior.stored]

theorem run_append (calls : List Call) (call : Call) : S.run (calls ++ [call]) =
    (S.run calls).perform S.store S.capabilityId S.profile.toProfileFields S.issuedAtMs call :=
  Decay.run_append calls call

variable {S} {calls : List Call} {call : Call}

/-- A call that is authorised. -/
theorem authorised_append {result : σ × DecayEvaluation} (h : S.attempt calls call = .ok result) :
    S.authorised (calls ++ [call]) = S.authorised calls ++ [call] ∧
      S.state (calls ++ [call]) = some result.2.resultingState := by
  have hrun : S.run (calls ++ [call]) =
      ⟨result.1, (S.run calls).outcomes ++ [⟨call, .ok result.2⟩]⟩ := by
    rw [run_append, Run.perform, show authorize .. = .ok result from h]
  constructor
  · simp [authorised, hrun, Run.authorised]
  · rw [state, hrun]
    exact ((S.tallied calls).authorize S.either.lawful h).stored

/-- A call that is refused. -/
theorem refused_append {e : Exn} (h : S.attempt calls call = .error e) :
    S.authorised (calls ++ [call]) = S.authorised calls ∧
      S.state (calls ++ [call]) = S.state calls := by
  have hrun : S.run (calls ++ [call]) =
      ⟨(S.run calls).store, (S.run calls).outcomes ++ [⟨call, .error e⟩]⟩ := by
    rw [run_append, Run.perform, show authorize .. = .error e from h]
  constructor
  · simp [authorised, hrun, Run.authorised]
  · rw [state, state, hrun]

/-- A call is authorised when it meets the conditions. -/
theorem attempt_eq_ok {result : σ × DecayEvaluation} : S.attempt calls call = .ok result ↔
    ∃ digest, Admits S.store S.capabilityId S.profile.toProfileFields S.issuedAtMs
      (S.run calls).store (S.state calls) call digest result.1 ∧
      result.2 = ⟨judged S.profile.toProfileFields S.issuedAtMs call (S.state calls),
        record S.capabilityId digest S.profile.toProfileFields S.issuedAtMs call (S.state calls),
        rolledBack call.nowMs (S.state calls)⟩ :=
  authorize_eq_ok (S.tallied calls).load (S.tallied calls).recorded

/-- What is stored only grows less. -/
theorem state_grows (later : List Call) {p : DecayState} (hp : p ∈ S.state calls) :
    ∃ q ∈ S.state (calls ++ later), p.Grows q :=
  grows_run S.either.lawful S.fresh calls later hp

variable (S)

/-- What is recorded for a capability, throughout a list of calls. -/
structure FollowsClosedForm (calls : List Call) : Prop where
  /-- The stored authority is the closed form of the calls that were authorised. -/
  closedForm : S.currentAuthority calls =
    if S.authorised calls = [] then none else
      some (DecayAuthority.closedForm S.profile.toProfileFields S.issuedAtMs
        (Counters.tally (S.authorised calls)) (elapsedOf S.issuedAtMs (S.authorised calls)))
  /-- It is a subset of every earlier one. -/
  decreasing : ∀ earlier later, calls = earlier ++ later → ∀ a ∈ S.currentAuthority earlier,
    ∃ b ∈ S.currentAuthority calls, b.isSubsetOf a = true
  /-- It does not depend on the order in which the profile lists its steps. -/
  reordered : ∀ (profile : DecayProfile) (start : σ)
    (fresh : S.store.load start S.capabilityId = .ok none),
    Reordered S.profile.toProfileFields profile.toProfileFields →
    { S with profile := profile, start := start, fresh := fresh }.currentAuthority calls =
      S.currentAuthority calls
  /-- No call raises that the authority would grow. -/
  neverIncreases : ∀ o ∈ (S.run calls).outcomes, o.result ≠ .error increaseError

/-- The decay state of a capability follows its closed form. -/
theorem followsClosedForm (calls : List Call) : S.FollowsClosedForm calls where
  closedForm := (S.tallied calls).storedAuthority
  decreasing := by
    rintro earlier later rfl a ha
    obtain ⟨p, hp, rfl⟩ := Option.map_eq_some_iff.mp ha
    obtain ⟨q, hq, hgrows⟩ := state_grows later hp
    have hrecorded := (S.tallied earlier).recorded p hp
    refine ⟨q.currentAuthority, Option.mem_map_of_mem _ hq, ?_⟩
    exact hgrows.currentAuthority.isSubsetOf hrecorded.valid.normal
  reordered profile start fresh h := by
    have hauthorised := (run_reordered S.either.lawful S.issuedAtMs h S.fresh fresh calls).1
    obtain ⟨_, hprior⟩ := tallied_run S.either.lawful S.profile S.issuedAtMs S.fresh calls
    obtain ⟨_, hprior'⟩ := tallied_run S.either.lawful profile S.issuedAtMs fresh calls
    refine hprior'.storedAuthority.trans (Eq.trans ?_ hprior.storedAuthority.symm)
    simp only [hauthorised, h.closedForm]
  neverIncreases := outcomes_ne_increaseError S.either.lawful S.fresh calls

end Session

/-! ## A sample capability -/

/-- A session on an empty store in memory. -/
def inMemorySession (capabilityId : String) (profile : DecayProfile) (issuedAtMs : ℤ) :
    Session (Table String DecayState) where
  store := inMemory
  capabilityId := capabilityId
  profile := profile
  issuedAtMs := issuedAtMs
  start := []
  either := .inMemory
  fresh := rfl

theorem Session.state_nil (S : Session σ) : S.state [] = none := by
  rw [Session.state, Session.run, Decay.run, List.foldl_nil, stored, S.fresh]

/-- A call on a store in memory is authorised when the authority permits the request and the numbers
stay in range. -/
theorem inMemorySession_attempt {capabilityId : String} {profile : DecayProfile} {issuedAtMs : ℤ}
    {earlier : List Call} {call : Call} {prior : Option DecayState}
    (hprior : (inMemorySession capabilityId profile issuedAtMs).state earlier = prior)
    (hid : capabilityId ≠ "") (hdict : Canonicalizes 0 profile.toDict)
    (hcheck : call.observation.check = .ok ()) (hclock : issuedAtMs - 5000 ≤ call.nowMs)
    (hexpirable : Expirable profile.toProfileFields issuedAtMs call prior)
    (hpermits : (judged profile.toProfileFields issuedAtMs call prior).permits call.request
      (effectiveNow call.nowMs prior) = true)
    (hnumbers : ∀ n ∈
      (record capabilityId "" profile.toProfileFields issuedAtMs call prior).numbers,
      0 ≤ n ∧ n ≤ maxSafeInteger) :
    ∃ digest s, (inMemorySession capabilityId profile issuedAtMs).attempt earlier call =
      .ok (s, ⟨judged profile.toProfileFields issuedAtMs call prior,
        record capabilityId digest profile.toProfileFields issuedAtMs call prior,
        rolledBack call.nowMs prior⟩) := by
  subst hprior
  obtain ⟨digest, hdigest⟩ := exists_digest_eq_ok.mpr hdict
  have hconstructed : (record capabilityId digest profile.toProfileFields issuedAtMs call
      ((inMemorySession capabilityId profile issuedAtMs).state earlier)).postInit = .ok _ :=
    DecayState.postInit_eq_ok.mpr ⟨hid, isDigest_of_digest_eq_ok hdigest, hnumbers⟩
  exact ⟨digest, _, Session.attempt_eq_ok.mpr ⟨digest,
    ⟨hcheck, hclock, hdigest, hexpirable, hpermits, hconstructed, rfl⟩, rfl⟩⟩

end Sessions

namespace Sample

attribute [local instance] pythonPlatform

def request : Policy.ActionRequest where
  requestId := "request-1"
  sessionId := "session-1"
  agentId := "agent-1"
  operation := "object.read"
  resourceId := "target"
  executorId := "executor-1"
  arguments := []
  purpose := "read"
  valid := by decide +kernel
  distinct := by decide

def initial : DecayAuthority where
  expiresAtMs := 2000
  remainingCalls := 10
  remainingReadBytes := 10
  remainingWriteBytes := 10
  networkDestinations := []
  tools := []
  actions := ["object.read"]
  resources := ["target"]
  argumentRanges := []
  maximumParallelism := 1
  maximumEffectSeverity := 0

theorem initial_valid : initial.Valid := by
  constructor <;> decide

/-- A profile without steps. -/
def plain : DecayProfile where
  profileId := "profile-1"
  version := "1"
  initialAuthority := initial
  steps := []
  valid := by decide
  initialValid := initial_valid
  stepsValid := by decide

def session (profile : DecayProfile) : Session (Table String DecayState) :=
  inMemorySession "cap-1" profile 1000

/-- A call that reads a number of bytes. -/
def reading (readBytes nowMs : ℤ) : Call :=
  { request := request, nowMs := nowMs, observation := { readBytes := readBytes } }

theorem plain_canonicalizes : Canonicalizes 0 plain.toDict := by decide +kernel

theorem plain_expirable (call : Call) (prior : Option DecayState) :
    Expirable plain.toProfileFields 1000 call prior := by
  intro step hstep
  exact absurd (mem_reached.mp hstep).1 List.not_mem_nil

/-- When a call under the profile without steps is authorised. -/
theorem plain_attempt {earlier : List Call} {call : Call} {prior : Option DecayState}
    (hprior : (session plain).state earlier = prior) (hcheck : call.observation.check = .ok ())
    (hclock : 1000 - 5000 ≤ call.nowMs)
    (hpermits : (judged plain.toProfileFields 1000 call prior).permits call.request
      (effectiveNow call.nowMs prior) = true)
    (hnumbers : ∀ n ∈ (record "cap-1" "" plain.toProfileFields 1000 call prior).numbers,
      0 ≤ n ∧ n ≤ maxSafeInteger) :
    ∃ digest s, (session plain).attempt earlier call =
      .ok (s, ⟨judged plain.toProfileFields 1000 call prior,
        record "cap-1" digest plain.toProfileFields 1000 call prior,
        rolledBack call.nowMs prior⟩) :=
  inMemorySession_attempt hprior (by decide) plain_canonicalizes hcheck hclock
    (plain_expirable call prior) hpermits hnumbers

end Sample

/-- A budget that is overdrawn is recorded as spent, not as negative. -/
theorem remaining_ne_of_overdrawn :
    let _ := pythonPlatform
    ∃ a ∈ (Sample.session Sample.plain).currentAuthority [Sample.reading 20 1001],
      a.remainingReadBytes ≠ min
        (capped Sample.initial.remainingReadBytes
          ((reached Sample.plain.steps ((Counters.tally ((Sample.session Sample.plain).authorised
            [Sample.reading 20 1001])).reading 1)).map (·.maximumReadBytes)))
        (Sample.initial.remainingReadBytes - (Counters.tally
          ((Sample.session Sample.plain).authorised [Sample.reading 20 1001])).readBytes) := by
  intro _
  have hpermits : (judged Sample.plain.toProfileFields 1000 (Sample.reading 20 1001) none).permits
      (Sample.reading 20 1001).request 1001 = true := by decide +kernel
  obtain ⟨digest, s, hattempt⟩ := Sample.plain_attempt (Session.state_nil _) (by decide) (by decide)
    hpermits (by decide)
  obtain ⟨hauthorised, hstate⟩ := Session.authorised_append hattempt
  have hnil : (Sample.session Sample.plain).authorised [] = [] := rfl
  rw [hnil, List.nil_append] at hauthorised
  rw [List.nil_append] at hstate
  rw [Session.currentAuthority_eq, hstate, hauthorised]
  exact ⟨_, rfl, (by decide : (0 : ℤ) ≠ -10)⟩

end EventHorizon.Decay
