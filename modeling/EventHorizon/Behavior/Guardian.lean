import EventHorizon.Behavior.State
import EventHorizon.Library.Transducer
import Mathlib.Algebra.Ring.Int.Defs

/-!
# The behavioural guardian

`BehavioralGuardian` of `behavioral_guardian.py`. Each of its calls reads the state of one session,
computes the next one and stores it, all inside `update` of the store. `evaluate_context` then makes
a decision of the stored state; a model that the guardian may have answers from the state and the
request, if it answers in time.
-/

namespace EventHorizon.Behavior

open Policy (PyRequest ReductionFields invalid maxCollection optionalNonnegative)

section Guardian

variable [Platform]

/-- An `ActionRequest`: its constructor has accepted it. -/
structure Request extends PyRequest where
  accepted : ∃ payload : PyValue, payload.Distinct ∧ PyRequest.fromDict payload = .ok toPyRequest

/-- `request_digest`. -/
def Request.requestDigest (r : Request) : Except Exn String := r.canonicalPayload.digest

/-- `request.session_id` as Python has it. -/
def Request.session (r : Request) : PyStr := .ofString r.sessionId

/-! ## Reductions from a model -/

/-- `_text` on any value. -/
def readSource (v : PyValue) (label : String) : Except Exn String :=
  match v with
  | .str s =>
    match s.text? with
    | some t => Policy.text t label 256
    | none => .error s.encodeError
  | _ => .error (invalid (label ++ " must be a non-empty string <= 256 UTF-8 bytes"))

/-- `_strings` on the items of a tuple. -/
def readStrings (xs : List PyValue) (label : String) : Except Exn (List String) := do
  raiseIf (maxCollection < xs.length) (invalid (label ++ " must be a bounded array"))
  let normalized ← xs.mapM fun x ↦ readSource x (label ++ " item")
  Policy.strings normalized label

omit [Platform] in
/-- A bound of a reduction, which may be `None`. -/
def readBound (items : List (PyKey × PyValue)) (name : String) : Except Exn (Option ℤ) :=
  match PyValue.item items name with
  | .none => .ok none
  | .int n => optionalNonnegative (some n) name
  | _ => .error (invalid (name ++ " must be a non-negative bounded integer"))

omit [Platform] in
/-- A flag of a reduction. -/
def readSwitch (items : List (PyKey × PyValue)) (name : String) : Except Exn Bool :=
  match PyValue.item items name with
  | .bool b => .ok b
  | _ => .error (invalid "reduction flags must be booleans")

/-- The fields of an `AuthorityReduction`. -/
def reductionFieldNames : List String := [
  "source", "remove_tools", "remove_actions", "remove_resources", "remove_network_destinations",
  "maximum_read_bytes", "maximum_write_bytes", "maximum_calls", "maximum_parallelism",
  "maximum_duration_seconds", "require_reattestation", "require_human_approval", "revoke"]

/-- `AuthorityReduction.from_dict`. -/
def reductionFromDict : PyValue → Except Exn ReductionFields
  | .dict items => do
    raiseIf (PyValue.hasExactKeys items reductionFieldNames = false)
      (invalid "authority reduction fields are invalid")
    let tools ← (PyValue.item items "remove_tools").tupleOf
    let actions ← (PyValue.item items "remove_actions").tupleOf
    let resources ← (PyValue.item items "remove_resources").tupleOf
    let networkDestinations ← (PyValue.item items "remove_network_destinations").tupleOf
    let source ← readSource (PyValue.item items "source") "reduction source"
    let removeTools ← readStrings tools "remove_tools"
    let removeActions ← readStrings actions "remove_actions"
    let removeResources ← readStrings resources "remove_resources"
    let removeNetworkDestinations ← readStrings networkDestinations "remove_network_destinations"
    let maximumReadBytes ← readBound items "maximum_read_bytes"
    let maximumWriteBytes ← readBound items "maximum_write_bytes"
    let maximumCalls ← readBound items "maximum_calls"
    let maximumParallelism ← readBound items "maximum_parallelism"
    let maximumDurationSeconds ← readBound items "maximum_duration_seconds"
    let requireReattestation ← readSwitch items "require_reattestation"
    let requireHumanApproval ← readSwitch items "require_human_approval"
    let revoke ← readSwitch items "revoke"
    return {
      source, removeTools, removeActions, removeResources, removeNetworkDestinations,
      maximumReadBytes, maximumWriteBytes, maximumCalls, maximumParallelism, maximumDurationSeconds,
      requireReattestation, requireHumanApproval, revoke }
  | _ => .error (invalid "authority reduction fields are invalid")

/-! ## The guardian -/

/-- `BEHAVIORAL_MODES`. -/
inductive Mode
  | rule
  | anomaly
  | shadow
  | evaluation
  deriving DecidableEq, Repr

def Mode.text : Mode → String
  | .rule => "rule"
  | .anomaly => "anomaly"
  | .shadow => "shadow"
  | .evaluation => "evaluation"

/-- What becomes of `model.score` in its thread. -/
inductive ModelOutcome
  | timedOut
  | noResult
  | raised
  | returned (v : PyValue)

/-- The configuration, as `__post_init__` has checked it. -/
structure Guardian where
  tenant : PyStr
  mode : Mode
  model : Option (SessionState → Request → ModelOutcome)
  reductionThreshold : ℤ
  quarantineThreshold : ℤ
  slowProbeWindowMs : ℤ
  name : PyStr
  thresholds : 0 < reductionThreshold ∧ reductionThreshold ≤ quarantineThreshold

/-- `_model_output`. All that `from_dict` raises is a `TypeError` or a `ValueError`. -/
def Guardian.modelOutput (g : Guardian) (s : SessionState) (r : Request) :
    ℤ × Option ReductionFields × Option String :=
  match g.model with
  | none => (0, none, some "behavioral model unavailable")
  | some score =>
    match score s r with
    | .timedOut => (0, none, some "behavioral model timed out")
    | .noResult => (0, none, some "behavioral model returned no result")
    | .raised => (0, none, some "behavioral model output is malformed")
    | .returned (.dict items) =>
      if PyValue.hasExactKeys items ["risk_delta", "reduction"] = false then
        (0, none, some "behavioral model output is malformed")
      else
        match PyValue.item items "risk_delta" with
        | .int n =>
          if ¬(0 ≤ n ∧ n ≤ 100) then (0, none, some "behavioral model risk is malformed")
          else
            match PyValue.item items "reduction" with
            | .none => (n, none, none)
            | v =>
              match reductionFromDict v with
              | .ok reduction => (n, some reduction, none)
              | .error _ =>
                (0, none, some "behavioral model attempted a non-subtractive response")
        | _ => (0, none, some "behavioral model risk is malformed")
    | .returned _ => (0, none, some "behavioral model output is malformed")

/-! ### One field changed -/

mutual

/-- `_flatten`, as the list of the leaves in the order in which they are met. -/
def flatten : PyValue → PyStr → List (PyStr × PyValue)
  | .dict items, path => flattenFields items path
  | .list xs, path => flattenItems xs 0 path
  | .tuple xs, path => flattenItems xs 0 path
  | .none, path => [(path, .none)]
  | .bool b, path => [(path, .bool b)]
  | .int n, path => [(path, .int n)]
  | .float f, path => [(path, .float f)]
  | .str s, path => [(path, .str s)]
  | .other name, path => [(path, .other name)]

def flattenItems : List PyValue → ℕ → PyStr → List (PyStr × PyValue)
  | [], _, _ => []
  | x :: xs, i, path =>
    flatten x (path ++ .ofString ("[" ++ toString i ++ "]")) ++ flattenItems xs (i + 1) path

def flattenFields : List (PyKey × PyValue) → PyStr → List (PyStr × PyValue)
  | [], _ => []
  | (k, x) :: items, path =>
    let key := k.str?.getD []
    if key = .ofString "request_id" then flattenFields items path
    else
      flatten x (if path = [] then key else path ++ .ofString "." ++ key) ++
        flattenFields items path

end

/-- The dictionary that `_flatten` returns: a later leaf takes the place of an earlier one. -/
def leaves (v : PyValue) : Table PyStr PyValue :=
  (flatten v []).foldl (fun t r ↦ t.put r.1 r.2) []

/-- `_one_field_changed`. -/
def oneFieldChanged (previous : Option PyValue) (current : PyValue) : Bool :=
  match previous with
  | none => false
  | some previous =>
    let left := leaves previous
    let right := leaves current
    let keys := (left.map Prod.fst ++ right.map Prod.fst).dedup
    keys.countP (fun key ↦
      !((left.get? key).getD .none).same ((right.get? key).getD .none)) = 1

/-! ### The transition -/

/-- A signal and its risk, when the condition holds. -/
def finding (p : Prop) [Decidable p] (signal : String) (risk : ℤ) : List (String × ℤ) :=
  if p then [(signal, risk)] else []

def riskOf (found : List (String × ℤ)) : ℤ := (found.map Prod.snd).sum

/-- `state.first_seen_ms or now_ms`. -/
def firstSeen (s : StateFields) (nowMs : ℤ) : ℤ :=
    if s.firstSeenMs = 0 then nowMs else s.firstSeenMs

/-- The signals that a request raises, each with its risk. -/
def findings (g : Guardian) (r : Request) (nowMs : ℤ) (workerId : PyStr) (s : StateFields) :
    List (String × ℤ) :=
  let resources := PyStr.sortedWith s.resources (.ofString r.resourceId)
  let workloads := PyStr.sortedWith s.workloads (.ofString r.executorId)
  let workers := PyStr.sortedWith s.workers workerId
  let found :=
    finding (oneFieldChanged s.lastRequest r.canonicalPayload = true) "one-field-mutation" 35 ++
    finding (3 ≤ resources.length ∧ s.resources.length < resources.length)
      "resource-enumeration" 35 ++
    finding (1 < workloads.length) "workload-mutation" 100 ++
    finding (2 ≤ s.denialCount) "repeated-denials" 30 ++
    finding (s.lastOutcome = .denied ∧ nowMs - s.lastSeenMs ≤ 1000)
      "rapid-retry-after-denial" 25 ++
    finding (4 ≤ s.requestCount ∧ g.slowProbeWindowMs ≤ nowMs - firstSeen s nowMs)
      "slow-probing" 35
  found ++ finding (1 < workers.length ∧ (riskOf found ≠ 0 ∨ s.denialCount ≠ 0))
    "distributed-probing" 25

/-- What `evaluate_context` remembers of its transition. -/
structure Assessment where
  signals : List String
  modelError : Option String
  modelReduction : Option ReductionFields
  modelFailure : Bool

/-- What the model says, in the modes that ask it. -/
def Guardian.askModel (g : Guardian) (s : SessionState) (r : Request) :
    ℤ × Option ReductionFields × Option String :=
  if g.mode = .rule then (0, none, none) else g.modelOutput s r

/-- The risk that the model adds: only an anomaly guardian counts it. -/
def Guardian.modelRisk (g : Guardian) (s : SessionState) (r : Request) : ℤ :=
  if g.mode = .anomaly ∧ (g.askModel s r).2.2 = none then (g.askModel s r).1 else 0

/-- The model of an anomaly guardian did not answer as it should. -/
def Guardian.ModelFails (g : Guardian) (s : SessionState) (r : Request) : Prop :=
  g.mode = .anomaly ∧ (g.askModel s r).2.2 ≠ none

instance (g : Guardian) (s : SessionState) (r : Request) : Decidable (g.ModelFails s r) :=
  inferInstanceAs (Decidable (_ ∧ _))

/-- The score after a request. -/
def Guardian.nextScore (g : Guardian) (r : Request) (nowMs : ℤ) (workerId : PyStr)
    (s : SessionState) : ℤ :=
  min 1000 (s.riskScore + (riskOf (findings g r nowMs workerId s.toStateFields) + g.modelRisk s r))

/-- The state that the transition of `evaluate_context` constructs. -/
def Guardian.nextFields (g : Guardian) (r : Request) (nowMs : ℤ) (workerId : PyStr)
    (s : SessionState) : StateFields where
  tenant := s.tenant
  sessionId := s.sessionId
  requestCount := s.requestCount + 1
  denialCount := s.denialCount
  riskScore := g.nextScore r nowMs workerId s
  firstSeenMs := firstSeen s.toStateFields nowMs
  lastSeenMs := nowMs
  lastOutcome := s.lastOutcome
  lastRequest := some r.canonicalPayload
  workloads := PyStr.sortedWith s.workloads (.ofString r.executorId)
  resources := PyStr.sortedWith s.resources (.ofString r.resourceId)
  workers := PyStr.sortedWith s.workers workerId
  signals := s.signals
  quarantined := s.quarantined || decide (g.quarantineThreshold ≤ g.nextScore r nowMs workerId s)

/-- The transition of `evaluate_context`. -/
def Guardian.transition (g : Guardian) (r : Request) (nowMs : ℤ) (workerId : PyStr)
    (s : SessionState) : Except Exn (SessionState × Assessment) :=
  (construct (g.nextFields r nowMs workerId s)).map fun s' ↦ (s', {
    signals := (findings g r nowMs workerId s.toStateFields).map Prod.fst
    modelError := (g.askModel s r).2.2
    modelReduction := (g.askModel s r).2.1
    modelFailure := g.ModelFails s r })

/-! ### Decisions -/

structure GuardianDecision where
  guardian : PyStr
  allowed : Bool
  reason : String
  evidence : PyValue
  requestDigest : String

omit [Platform] in
/-- `AuthorityReduction(source=source)`. -/
def plainReduction (source : String) : ReductionFields :=
  ⟨source, [], [], [], [], none, none, none, none, none, false, false, false⟩

/-- `AuthorityReduction(source=self.name, ...)`. -/
def Guardian.reduction (g : Guardian) (change : ReductionFields → ReductionFields) :
    Except Exn ReductionFields :=
  match g.name.text? with
  | none => .error g.name.encodeError
  | some source => (change (plainReduction source)).postInit

/-- A denial that carries one reduction. -/
def Guardian.refusal (g : Guardian) (r : Request) (reason : String)
    (change : ReductionFields → ReductionFields) : Except Exn GuardianDecision := do
  let reduction ← g.reduction change
  let requestDigest ← r.requestDigest
  return ⟨g.name, false, reason,
    .ofNamed [("authority_reduction", .ofJson reduction.toDict)], requestDigest⟩

/-- The reduction of a decision. -/
def Guardian.reductionFor (g : Guardian) (s : SessionState) (a : Assessment) :
    Except Exn (Option ReductionFields) :=
  if s.quarantined = true then
    (g.reduction fun f ↦ { f with
      maximumCalls := some 0, maximumReadBytes := some 0, maximumWriteBytes := some 0,
      revoke := true, requireHumanApproval := true }).map some
  else if g.reductionThreshold ≤ s.riskScore then
    (g.reduction fun f ↦ { f with
      maximumCalls := some 1, maximumParallelism := some 1, maximumWriteBytes := some 0,
      requireReattestation := true }).map some
  else .ok (if g.mode = .anomaly then a.modelReduction else none)

/-- The items of `evidence`. -/
def Guardian.evidence (g : Guardian) (s : SessionState) (a : Assessment)
    (reduction : Option ReductionFields) (stateDigest : String) : List (String × PyValue) :=
  [("risk_score", .int s.riskScore), ("signals", texts (a.signals.map .ofString)),
    ("state_digest", .str (.ofString stateDigest)), ("mode", .str (.ofString g.mode.text))] ++
  (match reduction with
    | some reduction => [("authority_reduction", .ofJson reduction.toDict)]
    | none => []) ++
  if g.mode = .shadow ∨ g.mode = .evaluation then
    [("shadow_reduction", (a.modelReduction.map fun f ↦ .ofJson f.toDict).getD .none),
      ("model_error", (a.modelError.map fun e ↦ .str (.ofString e)).getD .none)]
  else []

/-- What `evaluate_context` makes of the stored state. -/
def Guardian.decision (g : Guardian) (r : Request) (s : SessionState) (a : Assessment) :
    Except Exn GuardianDecision :=
  if a.modelFailure = true then
    g.refusal r (a.modelError.getD "") fun f ↦ { f with requireHumanApproval := true }
  else do
    let reduction ← g.reductionFor s a
    let stateDigest ← s.toDict.digest
    let requestDigest ← r.requestDigest
    let reason :=
      if s.quarantined = true then "boundary-probing threshold exceeded"
      else if reduction.isSome = true then "behavioral authority reduction required"
      else "no boundary-probing pattern detected"
    return ⟨g.name, !s.quarantined, reason, .ofNamed (g.evidence s a reduction stateDigest),
      requestDigest⟩

/-! ## Calls -/

/-- The states of a store: a row for each tenant and session. -/
abbrev States (ρ : Type) := Table (PyStr × PyStr) ρ

variable {ρ : Type} (store : Store ρ)

/-- `update` on the row of a session: the state that is returned, what the transition leaves
besides, and the row that is kept. -/
def updateRow {δ : Type} (tenant sessionId : PyStr) (row : Option ρ)
    (transition : SessionState → Except Exn (SessionState × δ)) :
    Except Exn ((SessionState × δ) × ρ) := do
  let current ← store.load tenant sessionId row
  let (updated, note) ← transition current
  raiseIf (updated.tenant ≠ tenant ∨ updated.sessionId ≠ sessionId)
    (⟨.behavioralStateError, "behavioral transition changed state ownership"⟩ : Exn)
  let row ← store.save updated
  return ((updated, note), row)

/-- `update`. -/
def update {δ : Type} (t : States ρ) (tenant sessionId : PyStr)
    (transition : SessionState → Except Exn (SessionState × δ)) :
    Except Exn (SessionState × δ) × States ρ :=
  match updateRow store tenant sessionId (t.get? (tenant, sessionId)) transition with
  | .error e => (.error e, t)
  | .ok (r, row) => (.ok r, t.put (tenant, sessionId) row)

/-- A transition that leaves nothing besides the state. -/
def alone (x : Except Exn SessionState) : Except Exn (SessionState × Unit) := x.map fun s ↦ (s, ())

variable (g : Guardian)

/-- `evaluate_context`. -/
def evaluateContext (t : States ρ) (r : Request) (nowMs : ℤ) (workerId : PyStr) :
    Except Exn GuardianDecision × States ρ :=
  let u := update store t g.tenant r.session (g.transition r nowMs workerId)
  match u.1 with
  | .error _ =>
    (g.refusal r "behavioral guardian state unavailable" fun f ↦
      { f with revoke := true, requireHumanApproval := true }, u.2)
  | .ok (s, a) => (g.decision r s a, u.2)

/-- The transition of `record_outcome`. -/
def outcomeTransition (outcome : Outcome) (nowMs : ℤ) (s : SessionState) :
    Except Exn SessionState :=
  fromDict { s.toStateFields with
    lastOutcome := outcome
    lastSeenMs := max s.lastSeenMs nowMs
    denialCount := if outcome = Outcome.denied then s.denialCount + 1 else s.denialCount }.toDict

/-- `record_outcome`. -/
def recordOutcome (t : States ρ) (r : Request) (outcome : PyStr) (nowMs : ℤ) :
    Except Exn SessionState × States ρ :=
  match Outcome.ofText? outcome with
  | none | some .none => (.error ⟨.valueError, "behavioral outcome is invalid"⟩, t)
  | some outcome =>
    let u := update store t g.tenant r.session fun s ↦ alone (outcomeTransition outcome nowMs s)
    (u.1.map Prod.fst, u.2)

/-- The score after a security signal. -/
def signalScore (signal : PyStr) (s : StateFields) : ℤ :=
  min 1000 (s.riskScore + if signal = .ofString "canary-interaction" then 100 else 40)

/-- The transition of `record_security_signal`. -/
def Guardian.signalTransition (signal : PyStr) (nowMs : ℤ) (s : SessionState) :
    Except Exn SessionState :=
  fromDict { s.toStateFields with
    signals := PyStr.sortedWith s.signals signal
    riskScore := signalScore signal s.toStateFields
    quarantined := decide (g.quarantineThreshold ≤ signalScore signal s.toStateFields)
    lastSeenMs := max s.lastSeenMs nowMs }.toDict

/-- `record_security_signal`. -/
def recordSecuritySignal (t : States ρ) (sessionId signal : PyStr) (nowMs : ℤ) :
    Except Exn SessionState × States ρ :=
  if signal ∉ securitySignalTexts then
    (.error ⟨.valueError, "behavioral security signal is invalid"⟩, t)
  else
    let u := update store t g.tenant sessionId fun s ↦ alone (g.signalTransition signal nowMs s)
    (u.1.map Prod.fst, u.2)

/-- The transition of `recover`. -/
def recoverTransition (s : SessionState) : Except Exn SessionState :=
  construct {
    tenant := s.tenant
    sessionId := s.sessionId
    firstSeenMs := s.firstSeenMs
    lastSeenMs := s.lastSeenMs }

/-- `recover`. -/
def recover (t : States ρ) (sessionId : PyStr) (trustedReattestation humanApproved : Bool) :
    Except Exn SessionState × States ρ :=
  if trustedReattestation = false ∧ humanApproved = false then
    (.error ⟨.permissionError, "behavioral recovery requires a new trusted authorization event"⟩, t)
  else
    let u := update store t g.tenant sessionId fun s ↦ alone (recoverTransition s)
    (u.1.map Prod.fst, u.2)

/-- A call on the guardian. -/
inductive Call
  | evaluateContext (r : Request) (nowMs : ℤ) (workerId : PyStr)
  | recordOutcome (r : Request) (outcome : PyStr) (nowMs : ℤ)
  | recordSecuritySignal (sessionId signal : PyStr) (nowMs : ℤ)
  | recover (sessionId : PyStr) (trustedReattestation humanApproved : Bool)

/-- What a call returns or raises. -/
inductive Answer
  | decision (x : Except Exn GuardianDecision)
  | state (x : Except Exn SessionState)

/-- The session that a call is about. -/
def Call.sessionId : Call → PyStr
  | .evaluateContext r _ _ => r.session
  | .recordOutcome r _ _ => r.session
  | .recordSecuritySignal sessionId _ _ => sessionId
  | .recover sessionId _ _ => sessionId

/-- One call. -/
def step (t : States ρ) : Call → Answer × States ρ
  | .evaluateContext r nowMs workerId =>
    let u := evaluateContext store g t r nowMs workerId
    (.decision u.1, u.2)
  | .recordOutcome r outcome nowMs =>
    let u := recordOutcome store g t r outcome nowMs
    (.state u.1, u.2)
  | .recordSecuritySignal sessionId signal nowMs =>
    let u := recordSecuritySignal store g t sessionId signal nowMs
    (.state u.1, u.2)
  | .recover sessionId trustedReattestation humanApproved =>
    let u := recover store g t sessionId trustedReattestation humanApproved
    (.state u.1, u.2)

/-- The states after a list of calls on a new store. -/
def after (calls : List Call) : States ρ := Transducer.after (step store g) [] calls

/-- The state of a session, as `load` gives it. -/
def current (t : States ρ) (sessionId : PyStr) : Except Exn SessionState :=
  store.load g.tenant sessionId (t.get? (g.tenant, sessionId))

end Guardian

end EventHorizon.Behavior
