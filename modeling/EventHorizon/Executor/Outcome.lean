import EventHorizon.Broker.OneUse
import EventHorizon.Canonical.Objects
import EventHorizon.Library.Effects

/-!
# What the executor reports

`SacrificialExecutor.execute` of `executor.py`. One block validates, performs the effect, encodes
its output, records the evidence and answers; an `Exception` that it raises goes to one handler,
which records and answers instead. What the handler says depends on how far the block came, which
the block keeps in two variables, the state of the effect and whether the evidence is recorded.

The handler tells of the exception, and its text is made by the exception itself. `str(exc)` may
raise, and when the answer is made nothing catches that. `execute_reports_iff` says of each call
when its answer is true: whenever there is one, and there is one unless the handler is not entered
or cannot tell.

The boundaries that the executor calls are parameters: the verifier, the canary verifier, the fault
injector, the objects and compute profiles, the encoding and the recorder. Each of them may raise
anything at any call. A recorder that raises has appended nothing. The events are those that the
executor appends.
-/

namespace EventHorizon.Executor

open Policy (ActionRequest)
open Broker (IssuedCapability CapabilityClaims Context)

/-- What is raised, as a handler sees it: `type(exc).__name__`, whether it is an `Exception` at all,
and what `str(exc)` and `format(exc)` return or raise. -/
inductive Raised
  | mk (typeName : String) (isException : Bool) (str format : Except Raised PyStr)

namespace Raised

def typeName : Raised → String
  | mk typeName _ _ _ => typeName

def isException : Raised → Bool
  | mk _ isException _ _ => isException

def str : Raised → Except Raised PyStr
  | mk _ _ str _ => str

def format : Raised → Except Raised PyStr
  | mk _ _ _ format => format

/-- An exception of the executor's own, with the text it was made with. -/
def plain (typeName text : String) : Raised :=
  mk typeName true (.ok (.ofString text)) (.ok (.ofString text))

/-- An `Exception` whose text can be made. -/
structure Tells (exc : Raised) : Prop where
  isException : exc.isException = true
  str : ∃ text, exc.str = .ok text
  format : ∃ text, exc.format = .ok text

theorem tells_plain (typeName text : String) : (plain typeName text).Tells :=
    ⟨rfl, ⟨_, rfl⟩, ⟨_, rfl⟩⟩

end Raised

/-! ## Outcomes -/

inductive EffectState
  | notStarted
  | possiblyCommitted
  | completed
  deriving DecidableEq, Repr

def EffectState.text : EffectState → String
  | .notStarted => "not-started"
  | .possiblyCommitted => "possibly-committed"
  | .completed => "completed"

/-- The arguments of the constructor of a result, with its defaults. -/
structure ResultFields (Ω : Type) where
  success : Bool
  operation : String
  resourceId : String
  output : Option Ω := none
  outputBytes : ℕ := 0
  error : Option PyStr := none
  effectState : EffectState := .possiblyCommitted

/-- `ExecutionResult`: a success is completed. -/
structure ExecutionResult (Ω : Type) extends ResultFields Ω where
  completed : success = true → effectState = .completed

variable {Ω κ : Type}

/-- `ExecutionResult.__post_init__`. -/
def ExecutionResult.construct (r : ResultFields Ω) : Except Raised (ExecutionResult Ω) :=
  if h : r.success = true → r.effectState = .completed then .ok ⟨r, h⟩
  else .error (.plain "ValidationError" "successful execution must be completed")

/-! ## The executor -/

/-- What the recorder is given. -/
structure Event where
  eventType : String
  payload : PyValue

/-- A use of an object or of a compute profile. -/
inductive Effect
  | read (resourceId : String)
  | ran (resourceId : String) (arguments : List (String × Json))

/-- How far a call of `execute` has come: its two variables, the effects it has begun and the events
it has appended. -/
structure Progress where
  effectState : EffectState := .notStarted
  evidenceRecorded : Bool := false
  effects : List Effect := []
  events : List Event := []

section Execution

variable [Platform]

/-- `SacrificialExecutor`. A canary is a value of `κ`. The verifier returns the claims of the
capability that it was given. -/
structure SacrificialExecutor (Ω κ : Type) where
  deviceId : String
  measurement : String
  verifierPolicyDigest : String
  policyDigest : String
  tenant : String := "default"
  environment : String := "synthetic"
  /-- `broker.verify_and_consume`. -/
  verifyAndConsume : IssuedCapability ⊕ κ → ActionRequest → Context → Except Raised CapabilityClaims
  verified : ∀ capability request k claims,
    verifyAndConsume (.inl capability) request k = .ok claims → claims = capability.claims
  /-- Whether `recorder.append` raises for an event, after those appended before. -/
  recorder : List Event → Event → Option Raised
  /-- Whether `canary_verifier.redeem` raises. -/
  canaryVerifier : Option (κ → ActionRequest → Option Raised) := none
  /-- Whether `fault_injector.hit` raises at a point. -/
  faultInjector : Option (String → Option Raised) := none
  objects : Table String Ω := []
  computeProfiles : Table String (List (String × Json) → Except Raised Ω) := []
  /-- `json.dumps(output, sort_keys=True, default=str).encode("utf-8")`. -/
  dumps : Ω → Except Raised (List ℕ)

namespace SacrificialExecutor

variable (e : SacrificialExecutor Ω κ)

/-- A call that raises or returns nothing. -/
def raising : Option Raised → Except Raised Unit
  | some exc => .error exc
  | none => .ok ()

/-- `if self.fault_injector is not None: self.fault_injector.hit(point)`. -/
def hit (point : String) (s : Progress) : Except Raised Unit × Progress :=
  (raising (e.faultInjector.bind fun f ↦ f point), s)

/-- `recorder.append`. -/
def append (event : Event) (s : Progress) : Except Raised Unit × Progress :=
  match e.recorder s.events event with
  | some exc => (.error exc, s)
  | none => (.ok (), { s with events := s.events ++ [event] })

/-- The redemption of a canary. -/
def redeemCanary (capability : IssuedCapability ⊕ κ) (request : ActionRequest) :
    Except Raised Unit :=
  match capability with
  | .inl _ => .ok ()
  | .inr canary =>
    match e.canaryVerifier with
    | none => .error (.plain "CanaryError" "canary verification boundary is unavailable")
    | some redeem => raising (redeem canary request)

/-- The arguments of `verify_and_consume`. -/
def context (attestation : List (String × Json)) : Context where
  executorMeasurement := e.measurement
  deviceId := e.deviceId
  attestation := attestation
  verifierPolicyDigest := e.verifierPolicyDigest
  policyDigest := e.policyDigest
  tenant := e.tenant
  environment := e.environment

/-- The effect of the operation. -/
def effect (request : ActionRequest) (s : Progress) : Except Raised Ω × Progress :=
  if request.operation = "object.read" then
    match e.objects.get? request.resourceId with
    | none => (.error (.plain "KeyError" "'object not found'"), s)
    | some output => (.ok output, { s with
        effectState := .possiblyCommitted, effects := s.effects ++ [.read request.resourceId] })
  else if request.operation = "compute.run" then
    match e.computeProfiles.get? request.resourceId with
    | none => (.error (.plain "KeyError" "'compute profile not found'"), s)
    | some fn => (fn request.arguments, { s with
        effectState := .possiblyCommitted
        effects := s.effects ++ [.ran request.resourceId request.arguments] })
  else (.error (.plain "PermissionError" "executor has no implementation for operation"), s)

/-- The evidence of an execution that is complete. -/
def completedEvent (request : ActionRequest) (claims : CapabilityClaims)
    (outputBytes : ℕ) : Event :=
  ⟨"execution.completed", .ofNamed [
    ("request_id", .str (.ofString request.requestId)),
    ("capability_id", .str (.ofString claims.capabilityId)), ("success", .bool true),
    ("output_bytes", .int outputBytes), ("effect_state", .str (.ofString "completed"))]⟩

/-- The block of `execute`. -/
def attempt (request : ActionRequest) (capability : IssuedCapability ⊕ κ)
    (attestation : List (String × Json)) : Except Raised (ExecutionResult Ω) × Progress :=
  andThen (e.hit "executor.before-validation" {}) fun _ s ↦
  andThen (e.redeemCanary capability request, s) fun _ s ↦
  andThen (e.verifyAndConsume capability request (e.context attestation), s) fun claims s ↦
  andThen (e.hit "executor.after-validation" s) fun _ s ↦
  andThen (e.hit "executor.before-effect" s) fun _ s ↦
  andThen (e.effect request s) fun output s ↦
  andThen (e.dumps output, s) fun encoded s ↦
  if claims.maxOutputBytes < encoded.length then
    (.error (.plain "PermissionError" "result exceeds capability output envelope"), s)
  else
    andThen (e.hit "executor.after-effect" s) fun _ s ↦
    andThen (e.hit "executor.before-evidence-record" s) fun _ s ↦
    andThen (e.append (completedEvent request claims encoded.length) s) fun _ s ↦
    let s := { s with evidenceRecorded := true, effectState := .completed }
    andThen (e.hit "executor.after-evidence-record" s) fun _ s ↦
    andThen (e.hit "executor.before-response" s) fun _ s ↦
    (ExecutionResult.construct {
      success := true
      operation := request.operation
      resourceId := request.resourceId
      output := some output
      outputBytes := encoded.length
      effectState := s.effectState }, s)

/-- The evidence of an execution that failed. -/
def failedEvent (request : ActionRequest) (typeName : String) (text : PyStr)
    (effectState : EffectState) : Event :=
  ⟨if effectState = .notStarted then "execution.denied" else "execution.indeterminate", .ofNamed [
    ("request_id", .str (.ofString request.requestId)),
    ("error_type", .str (.ofString typeName)), ("error", .str text),
    ("effect_state", .str (.ofString effectState.text))]⟩

/-- The recording of a failure, before anything is caught. The payload has the text of the
exception. -/
def appendFailure (request : ActionRequest) (exc : Raised) (s : Progress) :
    Except Raised Unit × Progress :=
  andThen (exc.str, s) fun text s ↦ e.append (failedEvent request exc.typeName text s.effectState) s

/-- `except Exception: pass`. -/
def passing (r : Except Raised Unit × Progress) : Except Raised Unit × Progress :=
  match r.1 with
  | .ok () => r
  | .error exc => if exc.isException = true then (.ok (), r.2) else r

/-- The text of the answer. -/
def errorText (exc : Raised) (effectState : EffectState) : Except Raised PyStr :=
  if effectState ≠ .notStarted then
    exc.format.map fun text ↦ .ofString "indeterminate effect state: " ++ text
  else exc.str

/-- What the handler of `execute` does for an exception. What is no `Exception` passes by it. -/
def handle (request : ActionRequest) (exc : Raised) (s : Progress) :
    Except Raised (ExecutionResult Ω) × Progress :=
  if exc.isException = false then (.error exc, s)
  else
    andThen (if s.evidenceRecorded = true then (.ok (), s)
      else passing (e.appendFailure request exc s)) fun _ s ↦
    andThen (errorText exc s.effectState, s) fun text s ↦
    (ExecutionResult.construct {
      success := false
      operation := request.operation
      resourceId := request.resourceId
      error := some text
      effectState := s.effectState }, s)

/-- `execute`. -/
def execute (request : ActionRequest) (capability : IssuedCapability ⊕ κ)
    (attestation : List (String × Json)) : Except Raised (ExecutionResult Ω) × Progress :=
  match e.attempt request capability attestation with
  | (.ok result, s) => (.ok result, s)
  | (.error exc, s) => e.handle request exc s

/-! ## How far the block comes -/

/-- No evidence is recorded, and no effect has begun unless the variable says so. -/
structure Pending (s : Progress) : Prop where
  events : s.events = []
  unrecorded : s.evidenceRecorded = false
  effects : s.effectState = .notStarted ∧ s.effects = [] ∨ s.effectState = .possiblyCommitted

variable {request : ActionRequest} {capability : IssuedCapability ⊕ κ}
  {attestation : List (String × Json)} {s : Progress}

/-- The evidence of the completed execution is recorded, and nothing else is. -/
structure Recorded (request : ActionRequest) (capability : IssuedCapability ⊕ κ)
    (attestation : List (String × Json)) (claims : CapabilityClaims) (outputBytes : ℕ)
    (s : Progress) : Prop where
  verified : e.verifyAndConsume capability request (e.context attestation) = .ok claims
  events : s.events = [completedEvent request claims outputBytes]
  recorded : s.evidenceRecorded = true
  completed : s.effectState = .completed

/-- How the block can end. -/
structure Ended (request : ActionRequest) (capability : IssuedCapability ⊕ κ)
    (attestation : List (String × Json)) (r : Except Raised (ExecutionResult Ω) × Progress) :
    Prop where
  failed : ∀ exc, r.1 = .error exc →
    Pending r.2 ∨ ∃ claims n, e.Recorded request capability attestation claims n r.2
  done : ∀ result, r.1 = .ok result → result.effectState = .completed ∧
    ∃ claims n, e.Recorded request capability attestation claims n r.2

variable {e}

theorem ended_of_pending {exc : Raised} (h : Pending s) :
    e.Ended request capability attestation (.error exc, s) :=
  ⟨fun _ _ ↦ .inl h, fun _ h ↦ (nomatch h)⟩

theorem ended_of_recorded {exc : Raised} {claims : CapabilityClaims} {n : ℕ}
    (h : e.Recorded request capability attestation claims n s) :
    e.Ended request capability attestation (.error exc, s) :=
  ⟨fun _ _ ↦ .inr ⟨claims, n, h⟩, fun _ h ↦ (nomatch h)⟩

theorem append_of_error {event : Event} {exc : Raised} (h : (e.append event s).1 = .error exc) :
    (e.append event s).2 = s := by
  rw [append] at h ⊢
  split
  · rfl
  case h_2 hnone =>
    rw [hnone] at h
    cases h

theorem append_of_ok {event : Event} (h : (e.append event s).1 = .ok ()) :
    (e.append event s).2 = { s with events := s.events ++ [event] } := by
  rw [append] at h ⊢
  split
  case h_1 exc hsome =>
    rw [hsome] at h
    cases h
  · rfl

theorem Pending.effect (h : Pending s) (request : ActionRequest) :
    Pending (e.effect request s).2 := by
  rw [SacrificialExecutor.effect]
  split
  · split
    · exact h
    · exact ⟨h.events, h.unrecorded, .inr rfl⟩
  · split
    · split
      · exact h
      · exact ⟨h.events, h.unrecorded, .inr rfl⟩
    · exact h

/-- The block ends in one of three ways: it raises before the evidence is recorded, or after, or it
returns a result. -/
theorem ended_attempt (request : ActionRequest) (capability : IssuedCapability ⊕ κ)
    (attestation : List (String × Json)) :
    e.Ended request capability attestation (e.attempt request capability attestation) := by
  have hpending : Pending {} := ⟨rfl, rfl, .inl ⟨rfl, rfl⟩⟩
  let P := e.Ended request capability attestation
  rw [attempt]
  refine andThen_of (P := P) (fun _ _ ↦ ended_of_pending hpending) fun _ _ ↦ ?_
  refine andThen_of (P := P) (fun _ _ ↦ ended_of_pending hpending) fun _ _ ↦ ?_
  refine andThen_of (P := P) (fun _ _ ↦ ended_of_pending hpending) fun claims hclaims ↦ ?_
  refine andThen_of (P := P) (fun _ _ ↦ ended_of_pending hpending) fun _ _ ↦ ?_
  refine andThen_of (P := P) (fun _ _ ↦ ended_of_pending hpending) fun _ _ ↦ ?_
  have heffect := hpending.effect (e := e) request
  refine andThen_of (P := P) (fun _ _ ↦ ended_of_pending heffect) fun output _ ↦ ?_
  refine andThen_of (P := P) (fun _ _ ↦ ended_of_pending heffect) fun encoded _ ↦ ?_
  dsimp only
  split
  · exact ended_of_pending heffect
  refine andThen_of (P := P) (fun _ _ ↦ ended_of_pending heffect) fun _ _ ↦ ?_
  refine andThen_of (P := P) (fun _ _ ↦ ended_of_pending heffect) fun _ _ ↦ ?_
  refine andThen_of (P := P) (fun exc hraised ↦ ?_) fun _ happended ↦ ?_
  · rw [append_of_error hraised]
    exact ended_of_pending heffect
  rw [append_of_ok happended]
  have hrecorded : e.Recorded request capability attestation claims encoded.length
      { (e.effect request {}).2 with
        events := (e.effect request {}).2.events ++ [completedEvent request claims encoded.length]
        evidenceRecorded := true
        effectState := .completed } :=
    ⟨hclaims, by rw [heffect.events]; rfl, rfl, rfl⟩
  refine andThen_of (P := P) (fun _ _ ↦ ended_of_recorded hrecorded) fun _ _ ↦ ?_
  refine andThen_of (P := P) (fun _ _ ↦ ended_of_recorded hrecorded) fun _ _ ↦ ?_
  refine ⟨fun _ h ↦ (nomatch h), fun result h ↦ ⟨?_, claims, encoded.length, hrecorded⟩⟩
  cases h
  rfl

/-! ## What a call reports -/

end SacrificialExecutor

/-- The type of the event that goes with a state of the effect. -/
def EffectState.eventType : EffectState → String
  | .notStarted => "execution.denied"
  | .possiblyCommitted => "execution.indeterminate"
  | .completed => "execution.completed"

namespace SacrificialExecutor

variable {e : SacrificialExecutor Ω κ} {request : ActionRequest} {capability : IssuedCapability ⊕ κ}
  {attestation : List (String × Json)} {s : Progress}

/-- What is meant to hold of a call that answers with a result: an effect that is said not to have
started has not, a success has its evidence, and there is no other event than the one that goes with
the state of the effect. -/
structure Reports (e : SacrificialExecutor Ω κ) (request : ActionRequest)
    (capability : IssuedCapability ⊕ κ) (attestation : List (String × Json))
    (result : ExecutionResult Ω) (s : Progress) : Prop where
  notStarted : result.effectState = .notStarted → s.effects = []
  succeeded : result.success = true → ∃ claims n, s.events = [completedEvent request claims n] ∧
    e.verifyAndConsume capability request (e.context attestation) = .ok claims ∧
    ∀ issued, capability = .inl issued → claims = issued.claims
  events : s.events.length ≤ 1 ∧ ∀ event ∈ s.events, event.eventType = result.effectState.eventType

theorem eventType_failedEvent (request : ActionRequest) (typeName : String) (text : PyStr)
    {state : EffectState} (h : state ≠ .completed) :
    (failedEvent request typeName text state).eventType = state.eventType := by
  cases state with
  | notStarted => rfl
  | possiblyCommitted => rfl
  | completed => exact absurd rfl h

/-! ### The handler -/

/-- The handler can tell of what is raised in a state of the effect: it is an `Exception`, the text
for the answer can be made, and what keeps the failure from being recorded is an `Exception` too. -/
structure Answerable (e : SacrificialExecutor Ω κ) (request : ActionRequest)
    (effectState : EffectState) (exc : Raised) : Prop where
  isException : exc.isException = true
  recording : effectState ≠ .completed →
    ∀ x, (e.appendFailure request exc { effectState }).1 = .error x → x.isException = true
  text : ∃ text, errorText exc effectState = .ok text

/-- Where the handler is entered: no event has been appended, or the one of the completed
execution. -/
structure Entered (s : Progress) : Prop where
  events : s.effectState ≠ .completed → s.events = []
  recorded : s.evidenceRecorded = true ↔ s.effectState = .completed

omit [Platform] in
theorem Pending.entered (h : Pending s) : Entered s := by
  have hstate : s.effectState ≠ .completed := by
    rcases h.effects with ⟨hnot, -⟩ | hpossibly
    · simp [hnot]
    · simp [hpossibly]
  exact ⟨fun _ ↦ h.events, by simp [h.unrecorded, hstate]⟩

theorem Recorded.entered {claims : CapabilityClaims} {n : ℕ}
    (h : e.Recorded request capability attestation claims n s) : Entered s :=
  ⟨fun hne ↦ absurd h.completed hne, iff_of_true h.recorded h.completed⟩

theorem Ended.entered {r : Except Raised (ExecutionResult Ω) × Progress} {exc : Raised}
    (h : e.Ended request capability attestation r) (hexc : r.1 = .error exc) : Entered r.2 := by
  rcases h.failed exc hexc with hpending | ⟨claims, n, hrecorded⟩
  · exact hpending.entered
  · exact hrecorded.entered

/-- A recorder that has appended nothing for the call is asked the same, however far it has come. -/
theorem appendFailure_fst (request : ActionRequest) (exc : Raised) (hevents : s.events = []) :
    (e.appendFailure request exc s).1 =
      (e.appendFailure request exc { effectState := s.effectState }).1 := by
  rw [appendFailure, appendFailure]
  cases exc.str with
  | error x => rfl
  | ok text =>
    rw [andThen_ok, andThen_ok, append, append, hevents]
    cases e.recorder [] (failedEvent request exc.typeName text s.effectState) with
    | none => rfl
    | some x => rfl

omit [Platform] in
theorem passing_snd (r : Except Raised Unit × Progress) : (passing r).2 = r.2 := by
  rw [passing]
  split
  · rfl
  · split <;> rfl

omit [Platform] in
theorem passing_fst_eq_ok {r : Except Raised Unit × Progress} {u : Unit} :
    (passing r).1 = .ok u ↔ ∀ x, r.1 = .error x → x.isException = true := by
  rw [passing]
  split
  case h_1 hok =>
    rw [hok]
    exact ⟨fun _ x hx ↦ (by cases hx), fun _ ↦ rfl⟩
  case h_2 exc hexc =>
    rw [hexc]
    split
    case isTrue htrue =>
      refine iff_of_true rfl ?_
      rintro x ⟨⟩
      exact htrue
    case isFalse hfalse =>
      rw [hexc]
      exact iff_of_false (fun h ↦ (by cases h)) fun h ↦ hfalse (h exc rfl)

theorem appendFailure_snd (request : ActionRequest) (exc : Raised) (s : Progress) :
    (e.appendFailure request exc s).2 = s ∨ ∃ text, (e.appendFailure request exc s).2 =
      { s with events := s.events ++ [failedEvent request exc.typeName text s.effectState] } := by
  rw [appendFailure]
  cases exc.str with
  | error x => exact .inl rfl
  | ok text =>
    rw [andThen_ok]
    cases happend : (e.append (failedEvent request exc.typeName text s.effectState) s).1 with
    | error x => exact .inl (append_of_error happend)
    | ok _ => exact .inr ⟨text, append_of_ok happend⟩

theorem recording_effectState (request : ActionRequest) (exc : Raised) (s : Progress) :
    (if s.evidenceRecorded = true then ((.ok (), s) : Except Raised Unit × Progress)
      else passing (e.appendFailure request exc s)).2.effectState = s.effectState := by
  split
  · rfl
  · rw [passing_snd]
    rcases e.appendFailure_snd request exc s with hsame | ⟨text, happended⟩
    · rw [hsame]
    · rw [happended]

theorem handle_snd (request : ActionRequest) (exc : Raised) (s : Progress) :
    (e.handle request exc s).2 = s ∨ s.evidenceRecorded = false ∧
      ∃ text, (e.handle request exc s).2 =
        { s with events := s.events ++ [failedEvent request exc.typeName text s.effectState] } := by
  rw [handle]
  split
  · exact .inl rfl
  have hlast (t : Progress) (x : Except Raised PyStr) (f : PyStr → ResultFields Ω) :
      (andThen (x, t) fun text s ↦ (ExecutionResult.construct (f text), s)).2 = t := by
    cases x <;> rfl
  split
  case isTrue =>
    rw [andThen_ok]
    exact .inl (hlast ..)
  case isFalse hrecorded =>
    have hleft : (andThen (passing (e.appendFailure request exc s)) fun _ s ↦
        andThen (errorText exc s.effectState, s) fun text s ↦ (ExecutionResult.construct (Ω := Ω) {
          success := false
          operation := request.operation
          resourceId := request.resourceId
          error := some text
          effectState := s.effectState }, s)).2 = (e.appendFailure request exc s).2 := by
      rw [← passing_snd]
      exact andThen_snd (P := fun t ↦ t = (passing (e.appendFailure request exc s)).2)
        (fun _ _ ↦ rfl) fun _ _ ↦ hlast ..
    rw [hleft]
    rcases e.appendFailure_snd request exc s with hsame | happended
    · exact .inl hsame
    · exact .inr ⟨Bool.not_eq_true _ ▸ hrecorded, happended⟩

/-- The handler answers with a failure in the state that the block has left, if it answers. -/
theorem handle_fst {exc : Raised} {result : ExecutionResult Ω} (hs : Entered s)
    (h : (e.handle request exc s).1 = .ok result) :
    e.Answerable request s.effectState exc ∧ result.success = false ∧
      result.effectState = s.effectState := by
  rw [handle] at h
  split at h
  · cases h
  case isFalse hexception =>
  obtain ⟨u, hrecord, h⟩ := andThen_fst_eq_ok.mp h
  obtain ⟨text, htext, h⟩ := andThen_fst_eq_ok.mp h
  rw [recording_effectState] at htext h
  cases h
  refine ⟨⟨Bool.not_eq_false _ ▸ hexception, fun hstate ↦ ?_, text, htext⟩, rfl, rfl⟩
  rw [if_neg (mt hs.recorded.mp hstate)] at hrecord
  rw [← appendFailure_fst request exc (hs.events hstate)]
  exact passing_fst_eq_ok.mp hrecord

theorem Answerable.exists_handle {exc : Raised} (hs : Entered s)
    (h : e.Answerable request s.effectState exc) :
    ∃ result, (e.handle request exc s).1 = .ok result := by
  obtain ⟨text, htext⟩ := h.text
  rw [handle, if_neg (by rw [h.isException]; decide)]
  have hrecord :
      ∃ u, (if s.evidenceRecorded = true then ((.ok (), s) : Except Raised Unit × Progress)
      else passing (e.appendFailure request exc s)).1 = .ok u := by
    split
    · exact ⟨(), rfl⟩
    case isFalse hrecorded =>
      have hstate := mt hs.recorded.mpr hrecorded
      refine ⟨(), passing_fst_eq_ok.mpr ?_⟩
      rw [appendFailure_fst request exc (hs.events hstate)]
      exact h.recording hstate
  obtain ⟨u, hrecord⟩ := hrecord
  let fields : ResultFields Ω := {
    success := false
    operation := request.operation
    resourceId := request.resourceId
    error := some text
    effectState := s.effectState }
  refine ⟨⟨fields, fun h ↦ absurd h Bool.false_ne_true⟩, andThen_fst_eq_ok.mpr ⟨u, hrecord, ?_⟩⟩
  refine andThen_fst_eq_ok.mpr ⟨text, ?_, ?_⟩
  · rw [recording_effectState]
    exact htext
  · rw [recording_effectState]
    rfl

theorem Recorded.reports {claims : CapabilityClaims} {n : ℕ} {result : ExecutionResult Ω}
    (h : e.Recorded request capability attestation claims n s)
    (hresult : result.effectState = .completed) :
    e.Reports request capability attestation result s := by
  refine ⟨fun hnot ↦ absurd (hresult.symm.trans hnot) (by decide), fun _ ↦ ?_, ?_⟩
  · refine ⟨claims, n, h.events, h.verified, ?_⟩
    rintro issued rfl
    exact e.verified issued request _ claims h.verified
  · rw [h.events, hresult]
    exact ⟨le_rfl, fun event hevent ↦ by rw [List.mem_singleton.mp hevent]; rfl⟩

theorem Pending.reports {result : ExecutionResult Ω} (h : Pending s) (exc : Raised)
    (hsuccess : result.success = false) (hresult : result.effectState = s.effectState) :
    e.Reports request capability attestation result (e.handle request exc s).2 := by
  have hstate : s.effectState ≠ .completed := by
    rcases h.effects with ⟨hnot, -⟩ | hpossibly
    · simp [hnot]
    · simp [hpossibly]
  have hnone : result.effectState = .notStarted → s.effects = [] := by
    intro hnot
    rcases h.effects with ⟨-, hnone⟩ | hpossibly
    · exact hnone
    · rw [hresult, hpossibly] at hnot
      cases hnot
  have hfailed : result.success = true → ∃ claims n,
      (e.handle request exc s).2.events = [completedEvent request claims n] ∧
        e.verifyAndConsume capability request (e.context attestation) = .ok claims ∧
        ∀ issued, capability = .inl issued → claims = issued.claims := fun htrue ↦
    absurd (hsuccess.symm.trans htrue) Bool.false_ne_true
  rcases e.handle_snd request exc s with hsame | ⟨-, text, happended⟩
  · refine ⟨?_, hfailed, ?_⟩
    · rw [hsame]
      exact hnone
    · rw [hsame, h.events]
      simp
  · refine ⟨?_, hfailed, ?_⟩
    · rw [happended]
      exact hnone
    · rw [happended, h.events, hresult]
      refine ⟨le_rfl, fun event hevent ↦ ?_⟩
      rw [List.mem_singleton.mp hevent, eventType_failedEvent request exc.typeName text hstate]

/-- Whatever the boundaries raise, and wherever, an answer is true to the effects and to the
events. -/
theorem reports_of_execute {result : ExecutionResult Ω}
    (h : e.execute request capability attestation = (.ok result, s)) :
    e.Reports request capability attestation result s := by
  have hended := ended_attempt (e := e) request capability attestation
  rw [execute] at h
  rcases hattempt : e.attempt request capability attestation with ⟨exc | result', t⟩
  · rw [hattempt] at hended h
    obtain rfl : (e.handle request exc t).2 = s := congrArg Prod.snd h
    obtain ⟨-, hsuccess, hresult⟩ := handle_fst (hended.entered rfl) (congrArg Prod.fst h)
    rcases hended.failed exc rfl with hpending | ⟨claims, n, hrecorded⟩
    · exact hpending.reports exc hsuccess hresult
    · have hsame : (e.handle request exc t).2 = t := by
        refine (e.handle_snd request exc t).resolve_right fun hfalse ↦ ?_
        exact Bool.false_ne_true (hfalse.1.symm.trans hrecorded.recorded)
      rw [hsame]
      exact hrecorded.reports (hresult.trans hrecorded.completed)
  · rw [hattempt] at hended h
    cases h
    obtain ⟨hresult, claims, n, hrecorded⟩ := hended.done result rfl
    exact hrecorded.reports hresult

/-! ## What fails first -/

/-- What a boundary raises, if it does. -/
def failing {α : Type} : Except Raised α → Option Raised
  | .error exc => some exc
  | .ok _ => none

/-- What the fault injector raises at a point, if it does. -/
def fault (e : SacrificialExecutor Ω κ) (point : String) : Option Raised :=
  e.faultInjector.bind fun f ↦ f point

/-- What can fail in a call, in the order in which a call comes to it, each with the state of the
effect there. Only the first failure counts: what would come after it may not be called at all. -/
def faults (e : SacrificialExecutor Ω κ) (request : ActionRequest)
    (capability : IssuedCapability ⊕ κ) (attestation : List (String × Json)) :
    List (EffectState × Option Raised) :=
  let claims := e.verifyAndConsume capability request (e.context attestation)
  let output := e.effect request {}
  let encoded := output.1.bind e.dumps
  -- What is said of the output is said when there are claims and there is an output.
  let ofOutput (f : CapabilityClaims → ℕ → Option Raised) : Option Raised :=
    claims.toOption.bind fun claims ↦ encoded.toOption.bind fun encoded ↦ f claims encoded.length
  [(.notStarted, e.fault "executor.before-validation"),
    (.notStarted, failing (e.redeemCanary capability request)),
    (.notStarted, failing claims),
    (.notStarted, e.fault "executor.after-validation"),
    (.notStarted, e.fault "executor.before-effect"),
    (output.2.effectState, failing output.1),
    (.possiblyCommitted, failing encoded),
    (.possiblyCommitted, ofOutput fun claims n ↦
      if claims.maxOutputBytes < n then
        some (.plain "PermissionError" "result exceeds capability output envelope")
      else none),
    (.possiblyCommitted, e.fault "executor.after-effect"),
    (.possiblyCommitted, e.fault "executor.before-evidence-record"),
    (.possiblyCommitted, ofOutput fun claims n ↦ e.recorder [] (completedEvent request claims n)),
    (.completed, e.fault "executor.after-evidence-record"),
    (.completed, e.fault "executor.before-response")]

/-- The first failure, with the state of the effect. -/
def first : List (EffectState × Option Raised) → Option (EffectState × Raised) :=
  List.findSome? fun f ↦ f.2.map (f.1, ·)

/-- How a step fails. -/
def failure {α : Type} (r : Except Raised α × Progress) : Option (EffectState × Raised) :=
  (failing r.1).map (r.2.effectState, ·)

omit [Platform] in
theorem failure_eq_some {α : Type} {r : Except Raised α × Progress} {state : EffectState}
    {exc : Raised} :
    failure r = some (state, exc) ↔ r.1 = .error exc ∧ r.2.effectState = state := by
  rw [failure]
  cases r.1 with
  | error exc' => simp [failing, and_comm]
  | ok a => simp [failing]

section First

variable {state : EffectState} {rest : List (EffectState × Option Raised)} {α β : Type}

omit [Platform] in
theorem first_none : first ((state, none) :: rest) = first rest := rfl

omit [Platform] in
theorem first_andThen {r : Except Raised α × Progress}
    {f : α → Progress → Except Raised β × Progress} (hstate : r.2.effectState = state)
    (h : ∀ a, r.1 = .ok a → first rest = failure (f a r.2)) :
    first ((state, failing r.1) :: rest) = failure (andThen r f) := by
  rw [andThen]
  cases hr : r.1 with
  | error exc => simp [first, failure, failing, hstate]
  | ok a => exact h a hr

theorem first_hit {point : String} {f : Unit → Progress → Except Raised β × Progress}
    (hstate : s.effectState = state) (h : first rest = failure (f () s)) :
    first ((state, e.fault point) :: rest) = failure (andThen (e.hit point s) f) := by
  rw [hit, fault]
  cases e.faultInjector.bind fun f ↦ f point with
  | none => exact h
  | some exc => simp [raising, first, failure, failing, hstate]

theorem first_append {event : Event} {f : Unit → Progress → Except Raised β × Progress}
    (hstate : s.effectState = state) (hevents : s.events = [])
    (h : first rest = failure (f () { s with events := [event] })) :
    first ((state, e.recorder [] event) :: rest) = failure (andThen (e.append event s) f) := by
  rw [append, hevents]
  cases e.recorder [] event with
  | none => exact h
  | some exc => simp [first, failure, failing, hstate]

end First

theorem effectState_of_effect {output : Ω} (h : (e.effect request s).1 = .ok output) :
    (e.effect request s).2.effectState = .possiblyCommitted := by
  rw [effect] at h ⊢
  split at h
  · split at h
    · cases h
    · simp [*]
  · split at h
    · split at h
      · cases h
      · simp [*]
    · cases h

/-- The block raises what fails first, and in the state of the effect there. -/
theorem first_faults (request : ActionRequest) (capability : IssuedCapability ⊕ κ)
    (attestation : List (String × Json)) :
    first (e.faults request capability attestation) =
      failure (e.attempt request capability attestation) := by
  rw [faults, attempt]
  refine first_hit rfl ?_
  refine first_andThen (r := (_, {})) rfl fun _ _ ↦ ?_
  refine first_andThen (r := (_, {})) rfl fun claims
    (hclaims : e.verifyAndConsume capability request (e.context attestation) = .ok claims) ↦ ?_
  refine first_hit rfl (first_hit rfl ?_)
  refine first_andThen rfl fun output houtput ↦ ?_
  have hstate := effectState_of_effect houtput
  have hpending : Pending (e.effect request {}).2 := Pending.effect ⟨rfl, rfl, .inl ⟨rfl, rfl⟩⟩ _
  rw [hclaims, houtput]
  refine first_andThen (r := (_, (e.effect request {}).2)) hstate fun encoded
    (hencoded : e.dumps output = .ok encoded) ↦ ?_
  simp only [Except.bind, hencoded, Except.toOption, Option.bind_some]
  split
  · simp [first, failure, failing, hstate]
  refine first_none.trans (first_hit hstate (first_hit hstate ?_))
  refine first_append hstate hpending.events ?_
  exact first_hit rfl (first_hit rfl rfl)

/-- The handler can tell of what fails first in the call, if anything does. -/
def Answers (e : SacrificialExecutor Ω κ) (request : ActionRequest)
    (capability : IssuedCapability ⊕ κ) (attestation : List (String × Json)) : Prop :=
  ∀ state exc, first (e.faults request capability attestation) = some (state, exc) →
    e.Answerable request state exc

/-- A call answers, and its answer is true to the effects and to the events, exactly when the
handler can tell of what fails first. -/
theorem execute_reports_iff (e : SacrificialExecutor Ω κ) (request : ActionRequest)
    (capability : IssuedCapability ⊕ κ) (attestation : List (String × Json)) :
    (∃ result s, e.execute request capability attestation = (.ok result, s) ∧
      e.Reports request capability attestation result s) ↔
    e.Answers request capability attestation := by
  have hended := ended_attempt (e := e) request capability attestation
  rw [Answers, first_faults]
  constructor
  · rintro ⟨result, s, h, -⟩ state exc hfailure
    obtain ⟨hexc, rfl⟩ := failure_eq_some.mp hfailure
    have hattempt : e.attempt request capability attestation = (.error exc, _) := Prod.ext hexc rfl
    rw [execute, hattempt] at h
    exact (handle_fst (hended.entered hexc) (congrArg Prod.fst h)).1
  · intro h
    suffices hexecute : ∃ result s, e.execute request capability attestation = (.ok result, s) by
      obtain ⟨result, s, hexecute⟩ := hexecute
      exact ⟨result, s, hexecute, reports_of_execute hexecute⟩
    rw [execute]
    rcases hattempt : e.attempt request capability attestation with ⟨exc | result, s⟩
    · rw [hattempt] at h hended
      obtain ⟨result, hresult⟩ := (h s.effectState exc rfl).exists_handle (hended.entered rfl)
      exact ⟨result, (e.handle request exc s).2, Prod.ext hresult rfl⟩
    · exact ⟨result, s, rfl⟩

/-! ## Boundaries that raise exceptions with a text -/

/-- Whatever a boundary raises is an `Exception` whose text can be made. -/
structure BoundariesTell (e : SacrificialExecutor Ω κ) : Prop where
  verifyAndConsume : ∀ capability request k exc,
    e.verifyAndConsume capability request k = .error exc → exc.Tells
  recorder : ∀ events event, ∀ exc ∈ e.recorder events event, exc.Tells
  canaryVerifier : ∀ redeem ∈ e.canaryVerifier, ∀ canary request,
    ∀ exc ∈ redeem canary request, exc.Tells
  faultInjector : ∀ hit ∈ e.faultInjector, ∀ point, ∀ exc ∈ hit point, exc.Tells
  computeProfiles : ∀ resourceId fn, e.computeProfiles.get? resourceId = some fn →
    ∀ arguments exc, fn arguments = .error exc → exc.Tells
  dumps : ∀ output exc, e.dumps output = .error exc → exc.Tells

namespace BoundariesTell

variable {exc : Raised}

omit [Platform] in
theorem raising {x : Option Raised} (h : ∀ exc ∈ x, exc.Tells)
    (hexc : SacrificialExecutor.raising x = .error exc) : exc.Tells := by
  cases x with
  | none => cases hexc
  | some exc' =>
    cases hexc
    exact h exc rfl

theorem hit (h : e.BoundariesTell) {point : String} (hexc : (e.hit point s).1 = .error exc) :
    exc.Tells := by
  refine raising (fun exc hmem ↦ ?_) hexc
  obtain ⟨hit, hhit, hpoint⟩ := Option.bind_eq_some_iff.mp hmem
  exact h.faultInjector hit hhit point exc hpoint

theorem append (h : e.BoundariesTell) {event : Event} (hexc : (e.append event s).1 = .error exc) :
    exc.Tells := by
  rw [SacrificialExecutor.append] at hexc
  split at hexc
  case h_1 exc' hsome =>
    cases hexc
    exact h.recorder s.events event exc hsome
  case h_2 => cases hexc

theorem redeemCanary (h : e.BoundariesTell)
    (hexc : e.redeemCanary capability request = .error exc) :
    exc.Tells := by
  cases capability with
  | inl issued => cases hexc
  | inr canary =>
    rw [SacrificialExecutor.redeemCanary] at hexc
    split at hexc
    · cases hexc
      exact Raised.tells_plain _ _
    case h_2 redeem hredeem => exact raising (h.canaryVerifier redeem hredeem canary request) hexc

theorem effect (h : e.BoundariesTell) (hexc : (e.effect request s).1 = .error exc) : exc.Tells := by
  rw [SacrificialExecutor.effect] at hexc
  split at hexc
  · split at hexc
    · cases hexc
      exact Raised.tells_plain _ _
    · cases hexc
  split at hexc
  · split at hexc
    · cases hexc
      exact Raised.tells_plain _ _
    case h_2 fn hfn => exact h.computeProfiles _ fn hfn _ exc hexc
  · cases hexc
    exact Raised.tells_plain _ _

/-- What the block raises is what a boundary has raised, or an exception of the executor's own. -/
theorem attempt (h : e.BoundariesTell)
    (hexc : (e.attempt request capability attestation).1 = .error exc) : exc.Tells := by
  revert hexc
  let P := fun r : Except Raised (ExecutionResult Ω) × Progress ↦ r.1 = .error exc → exc.Tells
  have hraised {α : Type} {x : Except Raised α} {t : Progress}
      (hx : ∀ exc, x = .error exc → exc.Tells) : ∀ exc', x = .error exc' → P (.error exc', t) := by
    intro exc' hexc' heq
    cases heq
    exact hx exc hexc'
  rw [SacrificialExecutor.attempt]
  refine andThen_of (P := P) (hraised fun _ ↦ h.hit) fun _ _ ↦ ?_
  refine andThen_of (P := P) (hraised fun _ ↦ h.redeemCanary) fun _ _ ↦ ?_
  refine andThen_of (P := P) (hraised (h.verifyAndConsume _ _ _)) fun claims _ ↦ ?_
  refine andThen_of (P := P) (hraised fun _ ↦ h.hit) fun _ _ ↦ ?_
  refine andThen_of (P := P) (hraised fun _ ↦ h.hit) fun _ _ ↦ ?_
  refine andThen_of (P := P) (hraised fun _ ↦ h.effect) fun output _ ↦ ?_
  refine andThen_of (P := P) (hraised (h.dumps _)) fun encoded _ ↦ ?_
  dsimp only
  split
  · rintro ⟨⟩
    exact Raised.tells_plain _ _
  refine andThen_of (P := P) (hraised fun _ ↦ h.hit) fun _ _ ↦ ?_
  refine andThen_of (P := P) (hraised fun _ ↦ h.hit) fun _ _ ↦ ?_
  refine andThen_of (P := P) (hraised fun _ ↦ h.append) fun _ _ ↦ ?_
  refine andThen_of (P := P) (hraised fun _ ↦ h.hit) fun _ _ ↦ ?_
  refine andThen_of (P := P) (hraised fun _ ↦ h.hit) fun _ _ ↦ ?_
  rintro ⟨⟩

theorem answers (h : e.BoundariesTell) (request : ActionRequest) (capability : IssuedCapability ⊕ κ)
    (attestation : List (String × Json)) : e.Answers request capability attestation := by
  intro state exc hfirst
  rw [first_faults] at hfirst
  have htells := h.attempt (failure_eq_some.mp hfirst).1
  refine ⟨htells.isException, fun _ x hx ↦ ?_, ?_⟩
  · obtain ⟨text, htext⟩ := htells.str
    rw [appendFailure, htext, andThen_ok] at hx
    exact (h.append hx).isException
  · rw [errorText]
    split
    · obtain ⟨text, htext⟩ := htells.format
      exact ⟨_, map_eq_ok.mpr ⟨text, htext, rfl⟩⟩
    · exact htells.str

end BoundariesTell

/-! ## The verifier of the repository -/

section Verifier

variable [Interpreter] [Broker.Ed25519] {ι σ : Type}

theorem claims_of_verifyAndConsume {v : Broker.CapabilityVerifier ι σ}
    {t : Broker.VerifierState ι σ}
    {issued : IssuedCapability} {k : Context} {nowMs : ℤ} {claims : CapabilityClaims}
    (h : (v.verifyAndConsume t issued request k nowMs).2 = .ok claims) :
      claims = issued.claims := by
  rw [Broker.CapabilityVerifier.verifyAndConsume_eq] at h
  rcases Broker.inTurn_cases (Broker.verifiedClaims v.publicKey
    (Broker.capabilityKeyId v.publicKey) issued request k nowMs) with ⟨e, he⟩ |
    ⟨verified, consumption, hverified, -, -, hclaims⟩
  · rw [he] at h
    cases h
  · obtain ⟨-, rfl, -⟩ := Broker.verifiedClaims_eq_ok.mp hverified
    exact hclaims claims h

/-- The executor with the verifier of `broker.py`, in a state of its stores and at a time. A canary
has no claims that it could verify: `canary` is what it raises for one. -/
def withVerifier (e : SacrificialExecutor Ω κ) (v : Broker.CapabilityVerifier ι σ)
    (t : Broker.VerifierState ι σ) (nowMs : ℤ) (raised : Exn → Raised) (canary : Raised) :
    SacrificialExecutor Ω κ :=
  { e with
    verifyAndConsume := fun capability request k ↦
      match capability with
      | .inl issued => (v.verifyAndConsume t issued request k nowMs).2.mapError raised
      | .inr _ => .error canary
    verified := fun _ _ _ _ h ↦ claims_of_verifyAndConsume (mapError_eq_ok.mp h) }

end Verifier

end SacrificialExecutor

end Execution

/-! ## An exception without a text -/

namespace SacrificialExecutor

namespace Sample

attribute [local instance] pythonPlatform Broker.Sample.interpreter Broker.Sample.keyedHash

/-- `KeyError(10**5000)`: its text would be the digits of the number. -/
def keyError : Raised :=
  .mk "KeyError" true (.error (.plain "ValueError" message)) (.error (.plain "ValueError" message))
where
  message := "Exceeds the limit (4300 digits) for integer string conversion"

def computeRequest : ActionRequest where
  requestId := "request-1"
  sessionId := "session-1"
  agentId := "agent-1"
  operation := "compute.run"
  resourceId := "profile"
  executorId := "executor-1"
  arguments := []
  purpose := "compute"
  valid := by decide +kernel
  distinct := List.nodup_nil

/-- An executor with a compute profile that looks up a key of 5001 digits. Its verifier has accepted
the capability. -/
def executor : SacrificialExecutor String Unit where
  deviceId := "device-1"
  measurement := Broker.Sample.measurement
  verifierPolicyDigest := Broker.Sample.measurement
  policyDigest := Broker.Sample.policyDigest
  verifyAndConsume capability _ _ :=
    match capability with
    | .inl issued => .ok issued.claims
    | .inr _ => .error (.plain "CapabilityError" "capability is not an issued capability")
  verified := by
    rintro capability request k claims ⟨⟩
    rfl
  recorder _ _ := none
  computeProfiles := [("profile", fun _ ↦ .error keyError)]
  dumps _ := .ok []

end Sample

/-- The compute profile raises, and so does `execute`; an event is not recorded. -/
theorem execute_raises_keyError :
    let _ := pythonPlatform
    let _ := Broker.Sample.keyedHash
    let _ := Broker.Sample.interpreter
    ∃ capability : IssuedCapability, ¬∃ result s,
      Sample.executor.execute Sample.computeRequest (.inl capability) [] = (.ok result, s) ∧
        Sample.executor.Reports Sample.computeRequest (.inl capability) [] result s := by
  intro _ _ _
  obtain ⟨-, capability, -, -⟩ := Broker.Sample.exists_issuedOnCeiling
  refine ⟨capability, ?_⟩
  rintro ⟨result, s, h, -⟩
  cases h

end SacrificialExecutor

end EventHorizon.Executor
