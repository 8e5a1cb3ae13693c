import EventHorizon.Decay.Authority

/-!
# The decay engine

`DecayEngine.authorize` of `trust_decay.py`. A call reports what it observed; the transition adds it
to the recorded counters, applies the steps that the counters reach, asks the resulting authority
for the request, and records the call. A transition that raises records nothing: the in-memory store
keeps its state, and the SQLite store rolls back.
-/

namespace EventHorizon.Decay

open Policy (invalid keysOf strArray ActionRequest)

/-- A `DecayError`. -/
def denied (message : String) : Exn := ⟨.decayError, message⟩

/-! ## Profiles -/

/-- `REFRESH_REQUIREMENTS`. -/
def refreshRequirements : List String := ["fresh-attestation", "fresh-authorization"]

structure ProfileFields where
  profileId : String
  version : String
  initialAuthority : DecayAuthority
  steps : List DecayStep
  refreshRequirements : List String := Decay.refreshRequirements
  deriving DecidableEq

/-- `DecayProfile.__post_init__`. -/
def ProfileFields.postInit (p : ProfileFields) : Except Exn ProfileFields := do
  raiseIf (p.profileId = "") (invalid "decay profile ID is invalid")
  raiseIf (p.version = "") (invalid "decay profile version is invalid")
  let steps := p.steps.insertionSort DecayStep.le
  let requirements ← strings p.refreshRequirements "refresh requirements"
  raiseIf (requirements ≠ Decay.refreshRequirements.insertionSort (· ≤ ·))
    (invalid "decay refresh requires fresh attestation and authorization")
  return { p with steps := steps, refreshRequirements := requirements }

/-- A profile that was constructed, of an authority and steps that were. -/
structure DecayProfile extends ProfileFields where
  valid : toProfileFields.postInit = .ok toProfileFields
  initialValid : initialAuthority.Valid
  stepsValid : ∀ step ∈ steps, step.postInit = .ok step

def ProfileFields.toDict (p : ProfileFields) : Json := .obj [
  ("profile_id", .str p.profileId), ("version", .str p.version),
  ("initial_authority", p.initialAuthority.toDict), ("steps", .arr (p.steps.map DecayStep.toDict)),
  ("refresh_requirements", strArray p.refreshRequirements)]

/-! ## States -/

/-- The counters of a state. -/
structure Counters where
  useCount : ℤ
  readBytes : ℤ
  writeBytes : ℤ
  denials : ℤ
  riskScore : ℤ
  canaryEvents : ℤ
  trustAgeMs : ℤ
  policyAgeMs : ℤ
  environmentChanges : ℤ
  workloadRestarts : ℤ
  deriving DecidableEq

/-- What a call reports. -/
structure Observation where
  readBytes : ℤ := 0
  writeBytes : ℤ := 0
  denials : ℤ := 0
  riskScore : ℤ := 0
  canaryEvents : ℤ := 0
  trustAgeMs : ℤ := 0
  policyAgeMs : ℤ := 0
  environmentChanges : ℤ := 0
  workloadRestarts : ℤ := 0
  deriving DecidableEq

namespace Counters

def zero : Counters := ⟨0, 0, 0, 0, 0, 0, 0, 0, 0, 0⟩

/-- The counters with an observation added, before the call is counted as a use. -/
def observe (c : Counters) (o : Observation) : Counters where
  useCount := c.useCount
  readBytes := c.readBytes + o.readBytes
  writeBytes := c.writeBytes + o.writeBytes
  denials := c.denials + o.denials
  riskScore := max c.riskScore o.riskScore
  canaryEvents := c.canaryEvents + o.canaryEvents
  trustAgeMs := max c.trustAgeMs o.trustAgeMs
  policyAgeMs := max c.policyAgeMs o.policyAgeMs
  environmentChanges := c.environmentChanges + o.environmentChanges
  workloadRestarts := c.workloadRestarts + o.workloadRestarts

/-- The counters with one more use. -/
def use (c : Counters) : Counters := { c with useCount := c.useCount + 1 }

/-- The counter that a trigger reads. -/
def reading (c : Counters) (elapsedMs : ℤ) : Trigger → ℤ
  | .elapsedMs => elapsedMs
  | .useCount => c.useCount
  | .readBytes => c.readBytes
  | .writeBytes => c.writeBytes
  | .denials => c.denials
  | .riskScore => c.riskScore
  | .canaryEvents => c.canaryEvents
  | .trustAgeMs => c.trustAgeMs
  | .policyAgeMs => c.policyAgeMs
  | .environmentChanges => c.environmentChanges
  | .workloadRestarts => c.workloadRestarts

end Counters

structure DecayState where
  capabilityId : String
  profileDigest : String
  maxObservedTimeMs : ℤ
  counters : Counters
  currentAuthority : DecayAuthority
  deriving DecidableEq

namespace DecayState

/-- `DecayState.__post_init__`. The code checks the numbers in the order of a set. -/
def postInit (s : DecayState) : Except Exn DecayState := do
  raiseIf (s.capabilityId = "") (invalid "decay state capability ID is invalid")
  raiseIf (isDigest s.profileDigest = false) (invalid "decay state profile digest is invalid")
  let _ ← nonnegative s.maxObservedTimeMs "max_observed_time_ms"
  let _ ← nonnegative s.counters.useCount "use_count"
  let _ ← nonnegative s.counters.readBytes "read_bytes"
  let _ ← nonnegative s.counters.writeBytes "write_bytes"
  let _ ← nonnegative s.counters.denials "denials"
  let _ ← nonnegative s.counters.riskScore "risk_score"
  let _ ← nonnegative s.counters.canaryEvents "canary_events"
  let _ ← nonnegative s.counters.trustAgeMs "trust_age_ms"
  let _ ← nonnegative s.counters.policyAgeMs "policy_age_ms"
  let _ ← nonnegative s.counters.environmentChanges "environment_changes"
  let _ ← nonnegative s.counters.workloadRestarts "workload_restarts"
  return s

/-- The constructor of a state changes nothing. -/
theorem eq_of_postInit {s t : DecayState} (h : s.postInit = .ok t) : t = s := by
  simp only [postInit, raiseIf_bind_eq_ok, nonnegative_bind_eq_ok] at h
  obtain ⟨-, -, -, -, -, -, -, -, -, -, -, -, -, h⟩ := h
  exact (Except.ok.inj h).symm

def toDict (s : DecayState) : Json := .obj [
  ("capability_id", .str s.capabilityId), ("profile_digest", .str s.profileDigest),
  ("max_observed_time_ms", .int s.maxObservedTimeMs), ("use_count", .int s.counters.useCount),
  ("read_bytes", .int s.counters.readBytes), ("write_bytes", .int s.counters.writeBytes),
  ("denials", .int s.counters.denials), ("risk_score", .int s.counters.riskScore),
  ("canary_events", .int s.counters.canaryEvents), ("trust_age_ms", .int s.counters.trustAgeMs),
  ("policy_age_ms", .int s.counters.policyAgeMs),
  ("environment_changes", .int s.counters.environmentChanges),
  ("workload_restarts", .int s.counters.workloadRestarts),
  ("current_authority", s.currentAuthority.toDict)]

end DecayState

/-- `_validate_state_transition`. -/
def validateStateTransition (capabilityId : String) (prior : Option DecayState)
    (state : DecayState) : Except Exn Unit := do
  raiseIf (state.capabilityId ≠ capabilityId)
    (denied "decay transition changed capability identity")
  match prior with
  | none => return ()
  | some prior =>
    raiseIf (state.profileDigest ≠ prior.profileDigest)
      (denied "decay transition changed the profile")
    raiseIf (state.maxObservedTimeMs < prior.maxObservedTimeMs)
      (denied "decay transition reduced monotonic counter: max_observed_time_ms")
    raiseIf (state.counters.useCount < prior.counters.useCount)
      (denied "decay transition reduced monotonic counter: use_count")
    raiseIf (state.counters.readBytes < prior.counters.readBytes)
      (denied "decay transition reduced monotonic counter: read_bytes")
    raiseIf (state.counters.writeBytes < prior.counters.writeBytes)
      (denied "decay transition reduced monotonic counter: write_bytes")
    raiseIf (state.counters.denials < prior.counters.denials)
      (denied "decay transition reduced monotonic counter: denials")
    raiseIf (state.counters.riskScore < prior.counters.riskScore)
      (denied "decay transition reduced monotonic counter: risk_score")
    raiseIf (state.counters.canaryEvents < prior.counters.canaryEvents)
      (denied "decay transition reduced monotonic counter: canary_events")
    raiseIf (state.counters.trustAgeMs < prior.counters.trustAgeMs)
      (denied "decay transition reduced monotonic counter: trust_age_ms")
    raiseIf (state.counters.policyAgeMs < prior.counters.policyAgeMs)
      (denied "decay transition reduced monotonic counter: policy_age_ms")
    raiseIf (state.counters.environmentChanges < prior.counters.environmentChanges)
      (denied "decay transition reduced monotonic counter: environment_changes")
    raiseIf (state.counters.workloadRestarts < prior.counters.workloadRestarts)
      (denied "decay transition reduced monotonic counter: workload_restarts")
    raiseIf (state.currentAuthority.isSubsetOf prior.currentAuthority = false)
      (denied "decay transition attempted to increase authority")

/-! ## Steps -/

/-- `_apply_step`. -/
def applyStep (a : DecayAuthority) (step : DecayStep) (issuedAtMs : ℤ) :
    Except Exn DecayAuthority :=
  DecayAuthority.postInit { a with
    expiresAtMs := capWith a.expiresAtMs (step.shortenExpirationToMs.map (issuedAtMs + ·))
    remainingCalls := capWith a.remainingCalls step.maximumCalls
    remainingReadBytes := capWith a.remainingReadBytes step.maximumReadBytes
    remainingWriteBytes := capWith a.remainingWriteBytes step.maximumWriteBytes
    networkDestinations := a.networkDestinations.filter (· ∉ step.removeNetworkDestinations)
    tools := a.tools.filter (· ∉ step.removeTools)
    actions := a.actions.filter (· ∉ step.removeActions)
    resources := a.resources.filter (· ∉ step.removeResources)
    maximumParallelism := capWith a.maximumParallelism step.maximumParallelism
    maximumEffectSeverity := capWith a.maximumEffectSeverity step.maximumEffectSeverity }

/-- The loop over the steps of a profile: those whose counter is at the threshold are applied. -/
def applySteps (steps : List DecayStep) (reading : Trigger → ℤ) (issuedAtMs : ℤ)
    (a : DecayAuthority) : Except Exn DecayAuthority :=
  steps.foldlM (fun a step ↦
    if step.threshold ≤ reading step.trigger then applyStep a step issuedAtMs else .ok a) a

/-- The authority with the use that the counters record taken off the initial budgets. -/
def spend (initial : DecayAuthority) (c : Counters) (a : DecayAuthority) :
    Except Exn DecayAuthority :=
  DecayAuthority.postInit { a with
    remainingCalls := min a.remainingCalls (max 0 (initial.remainingCalls - c.useCount))
    remainingReadBytes :=
      min a.remainingReadBytes (max 0 (initial.remainingReadBytes - c.readBytes))
    remainingWriteBytes :=
      min a.remainingWriteBytes (max 0 (initial.remainingWriteBytes - c.writeBytes)) }

section Engine

variable [Platform]

/-- `profile_digest`. -/
def ProfileFields.profileDigest (p : ProfileFields) : Except Exn String := digest p.toDict

/-- The arguments of `authorize` that change from call to call. -/
structure Call where
  request : ActionRequest
  nowMs : ℤ
  observation : Observation := {}

structure DecayEvaluation where
  authorizedAuthority : DecayAuthority
  resultingState : DecayState
  clockRollbackObserved : Bool
  deriving DecidableEq

/-- The time a call counts with: never before a time that is recorded. -/
def effectiveNow (nowMs : ℤ) : Option DecayState → ℤ
  | none => nowMs
  | some prior => max nowMs prior.maxObservedTimeMs

/-- The counters that are recorded. -/
def countersOf : Option DecayState → Counters
  | none => .zero
  | some prior => prior.counters

/-- The authority a call starts from. -/
def authorityOf (profile : ProfileFields) : Option DecayState → DecayAuthority
  | none => profile.initialAuthority
  | some prior => prior.currentAuthority

/-- The recorded state is of the same profile. -/
def checkProfile (profile : ProfileFields) : Option DecayState → Except Exn Unit
  | none => .ok ()
  | some prior => do
    let profileDigest ← profile.profileDigest
    raiseIf (prior.profileDigest ≠ profileDigest) (denied "decay profile substitution detected")

/-- The authority is not more than the recorded one. -/
def checkDecrease (authorized : DecayAuthority) : Option DecayState → Except Exn Unit
  | none => .ok ()
  | some prior =>
    raiseIf (authorized.isSubsetOf prior.currentAuthority = false)
      (denied "decay transition attempted to increase authority")

/-- The clock of the call is before the recorded time. -/
def rolledBack (nowMs : ℤ) : Option DecayState → Bool
  | none => false
  | some prior => decide (nowMs < prior.maxObservedTimeMs)

/-- The function that `authorize` hands to the store. -/
def transition (capabilityId : String) (profile : ProfileFields) (issuedAtMs : ℤ) (call : Call)
    (prior : Option DecayState) : Except Exn DecayEvaluation := do
  checkProfile profile prior
  let now := effectiveNow call.nowMs prior
  let elapsed := max 0 (now - issuedAtMs)
  let priorCounters := (countersOf prior).observe call.observation
  let authorized ← applySteps profile.steps (priorCounters.reading elapsed) issuedAtMs
    (authorityOf profile prior)
  checkDecrease authorized prior
  raiseIf (authorized.permits call.request now = false)
    (denied "current decay authority denies the request")
  let counters := priorCounters.use
  let current ← applySteps profile.steps (counters.reading elapsed) issuedAtMs authorized
  let current ← spend profile.initialAuthority counters current
  raiseIf (current.isSubsetOf authorized = false)
    (denied "decay transition attempted to increase authority")
  let profileDigest ← profile.profileDigest
  let state ← DecayState.postInit {
    capabilityId := capabilityId
    profileDigest := profileDigest
    maxObservedTimeMs := now
    counters := counters
    currentAuthority := current }
  return ⟨authorized, state, rolledBack call.nowMs prior⟩

/-! ## Stores -/

/-- What `update` of either store is made of. -/
structure Store (σ : Type) where
  load : σ → String → Except Exn (Option DecayState)
  save : σ → String → DecayState → Except Exn σ

/-- `update`, of either store. -/
def Store.update {σ : Type} (store : Store σ) (s : σ) (capabilityId : String)
    (transition : Option DecayState → Except Exn DecayEvaluation) :
    Except Exn (σ × DecayEvaluation) := do
  let prior ← store.load s capabilityId
  let evaluation ← transition prior
  validateStateTransition capabilityId prior evaluation.resultingState
  let s ← store.save s capabilityId evaluation.resultingState
  return (s, evaluation)

/-- An exception that is not a `DecayError` becomes one. -/
def asUnavailable {α : Type} : Except Exn α → Except Exn α
  | .ok a => .ok a
  | .error e => if e.cls = .decayError then .error e else .error (denied "decay state unavailable")

/-- The check of the reported numbers. -/
def Observation.check (o : Observation) : Except Exn Unit := do
  let _ ← nonnegative o.readBytes "read_bytes"
  let _ ← nonnegative o.writeBytes "write_bytes"
  let _ ← nonnegative o.denials "denials"
  let _ ← nonnegative o.riskScore "risk_score"
  let _ ← nonnegative o.canaryEvents "canary_events"
  let _ ← nonnegative o.trustAgeMs "trust_age_ms"
  let _ ← nonnegative o.policyAgeMs "policy_age_ms"
  let _ ← nonnegative o.environmentChanges "environment_changes"
  let _ ← nonnegative o.workloadRestarts "workload_restarts"

/-- `authorize`. -/
def authorize {σ : Type} (store : Store σ) (s : σ) (capabilityId : String)
    (profile : ProfileFields) (issuedAtMs : ℤ) (call : Call) :
    Except Exn (σ × DecayEvaluation) := do
  call.observation.check
  raiseIf (call.nowMs < issuedAtMs - 5000) (denied "decay clock is before capability issuance")
  asUnavailable (store.update s capabilityId (transition capabilityId profile issuedAtMs call))

/-- `InMemoryDecayStateStore`. -/
def inMemory : Store (Table String DecayState) where
  load s capabilityId := .ok (s.get? capabilityId)
  save s capabilityId state := .ok (s.put capabilityId state)

end Engine

end EventHorizon.Decay
