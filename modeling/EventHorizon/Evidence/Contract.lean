import EventHorizon.Canonical.Objects

/-!
# The contract for the evidence of a gateway

`scripts/gateway_evidence_contract.py`: the supervisor signs an event that its gateway submits only
after a `GatewayEventContract` has accepted it. The contract is pinned to one request and one
capability. It knows which capability the exchange in progress carries, and it has three flags:
whether an authorization has been accepted, whether the effect has been dispatched, and whether the
story that was opened by the last authorization has been closed.

Two families of events share the flags. An event of the family `execution` tells of one attempt; an
event of the family `fenced` is there only for a recipient that was pinned, and tells of attempts
that recover one effect.
-/

namespace EventHorizon.Evidence

open PyValue (item hasExactKeys)

/-- `^[0-9a-f]{64}$`, matched against the whole string. -/
def isHex (s : PyStr) : Bool := (s.text?.map isDigest).getD false

/-- `value == other` for a string that may be `None`. -/
def isOptional (other : Option PyStr) (v : PyValue) : Bool :=
  match other with
  | none => v.isNone
  | some s => v.isText s

theorem isOptional_some {s : PyStr} {v : PyValue} : isOptional (some s) v = true ↔ v = .str s :=
  PyValue.isText_iff

/-! ## Events -/

/-- The types of events on the allowlist. -/
inductive EventKind
  | denied
  | fencedAuthorized
  | fencedIndeterminate
  | fencedConfirmed
  | authorized
  | dispatch
  | completed
  | indeterminate
  deriving DecidableEq, Repr

namespace EventKind

/-- The text of an event type. -/
def name : EventKind → String
  | .denied => "execution.denied"
  | .fencedAuthorized => "fenced.authorized"
  | .fencedIndeterminate => "fenced.indeterminate"
  | .fencedConfirmed => "fenced.recipient-confirmed"
  | .authorized => "execution.authorized"
  | .dispatch => "execution.dispatch"
  | .completed => "execution.completed"
  | .indeterminate => "execution.indeterminate"

/-- The event types in the order in which they are compared. -/
def all : List EventKind :=
  [.denied, .fencedAuthorized, .fencedIndeterminate, .fencedConfirmed, .authorized, .dispatch,
    .completed, .indeterminate]

/-- The events that need a pinned recipient. -/
def isFenced : EventKind → Bool
  | .fencedAuthorized | .fencedIndeterminate | .fencedConfirmed => true
  | _ => false

/-- The events that open a story. -/
def isAuthorization : EventKind → Bool
  | .authorized | .fencedAuthorized => true
  | _ => false

/-- The events that close the story of a dispatch. -/
def isCompletion : EventKind → Bool
  | .completed | .indeterminate => true
  | _ => false

/-- The events that close a fenced story. -/
def isClosing : EventKind → Bool
  | .fencedIndeterminate | .fencedConfirmed => true
  | _ => false

/-- The fields of a payload. There are two kinds of denial. -/
def fields : EventKind → List String
  | .denied => ["request_id", "error_class", "effect_state"]
  | .fencedAuthorized | .authorized => ["request_id", "request_digest", "capability_id"]
  | .fencedIndeterminate => ["request_id", "request_digest", "capability_id", "effect_state"]
  | .fencedConfirmed =>
    ["request_id", "request_digest", "capability_id", "original_capability_id", "receipt_digest",
      "recipient_id", "commit_sequence", "recovery", "new_effect_commit"]
  | .dispatch => ["request_digest", "dispatch_count", "gateway_pid"]
  | .completed => ["request_id", "capability_id", "success", "output_bytes", "effect_state"]
  | .indeterminate => ["request_id", "effect_state"]

end EventKind

/-- The type that `kind` names, if it is on the allowlist. -/
def kindOf (kind : PyValue) : Option EventKind :=
  EventKind.all.find? fun k ↦ kind.isText (.ofString k.name)

/-- The event type and the payload of a well-formed envelope. -/
def envelope : PyValue → Option (PyValue × List (PyKey × PyValue))
  | .dict event =>
    if hasExactKeys event ["event_type", "payload", "source_id"] &&
        (item event "source_id").isText (.ofString "host-effect-service") then
      match item event "payload" with
      | .dict payload => some (item event "event_type", payload)
      | _ => none
    else none
  | _ => none

/-- The type and the payload of an event of the allowlist. -/
def eventOf (event : PyValue) : Option (EventKind × List (PyKey × PyValue)) := do
  let (kind, payload) ← envelope event
  let k ← kindOf kind
  return (k, payload)

/-! ## The contract -/

/-- A `GatewayEventContract`. -/
structure GatewayEventContract where
  fencedRecipientId : Option PyStr
  originalCapabilityId : Option PyStr
  pid : ℤ
  digest : PyStr
  requestId : PyStr
  capabilityId : PyStr
  authorized : Bool
  dispatched : Bool
  finished : Bool
  currentCapability : Option PyStr
  deriving DecidableEq, Repr

/-- A non-empty string. -/
def someText : PyValue → Option PyStr
  | .str s => if s = [] then none else some s
  | _ => none

/-- `GatewayEventContract(...)`. -/
def GatewayEventContract.create (gatewayPid requestDigest requestId capabilityId fencedRecipientId
    fencedOriginalCapabilityId : PyValue) : Except Exn GatewayEventContract :=
  match gatewayPid with
  | .int pid =>
    if pid ≤ 1 then .error ⟨.valueError, "gateway child identity not pinned"⟩
    else match requestDigest with
    | .str digest =>
      if isHex digest = false then .error ⟨.valueError, "invalid pinned request digest"⟩
      else match someText requestId with
      | none => .error ⟨.valueError, "missing pinned request ID"⟩
      | some requestId =>
      match someText capabilityId with
      | none => .error ⟨.valueError, "missing pinned capability ID"⟩
      | some capabilityId =>
      if fencedRecipientId.isNone = false ∧
          ((someText fencedRecipientId).all fun s ↦ 128 < s.length) then
        .error ⟨.valueError, "invalid pinned fenced recipient ID"⟩
      else if fencedOriginalCapabilityId.isNone = false ∧
          (fencedRecipientId.isNone ∨ someText fencedOriginalCapabilityId = none) then
        .error ⟨.valueError, "recovery source must have a pinned fenced original capability"⟩
      else
        .ok ⟨someText fencedRecipientId, someText fencedOriginalCapabilityId, pid, digest,
          requestId, capabilityId, false, false, false, none⟩
    | _ => .error ⟨.valueError, "invalid pinned request digest"⟩
  | _ => .error ⟨.valueError, "gateway child identity not pinned"⟩

/-- The capability that a message claims to carry. -/
def claimOf : PyValue → Option PyStr
  | .dict message =>
    match item message "capability" with
    | .dict token =>
      match item token "claims" with
      | .dict claims =>
        match item claims "capability_id" with
        | .str s => some s
        | _ => none
      | _ => none
    | _ => none
  | _ => none

namespace GatewayEventContract

variable (c : GatewayEventContract) (payload : List (PyKey × PyValue))

/-- `begin_request`. -/
def beginRequest (message : PyValue) : Except Exn Unit × GatewayEventContract :=
  if c.currentCapability ≠ none then
    (.error ⟨.gatewayEvidenceContractError, "concurrent gateway exchange"⟩, c)
  else (.ok (), { c with currentCapability := claimOf message })

/-- `end_request`. -/
def endRequest : GatewayEventContract := { c with currentCapability := none }

/-- The denial of an effect boundary. -/
def boundaryDenial : Bool :=
  hasExactKeys payload ["source", "effect_state"] &&
    (item payload "source").isText (.ofString "effect-boundary") &&
    (item payload "effect_state").isText (.ofString "not-started")

/-- The reasons of a denial. -/
def errorClasses : List String :=
  ["authority-denied", "unsupported-operation", "pre-dispatch-denied", "effect-journal-unavailable"]

/-- The payload of a denial of the gateway, as far as its error class, which is looked up in a
set. -/
def asksErrorClass : Bool :=
  hasExactKeys payload EventKind.denied.fields && (item payload "request_id").isText c.requestId

/-- The denial of the gateway. -/
def gatewayDenial : Bool :=
  c.asksErrorClass payload &&
    errorClasses.any (fun name ↦ (item payload "error_class").isText (.ofString name)) &&
    (item payload "effect_state").isText (.ofString "not-started")

/-- The payload of an authorization, of either family. -/
def authorizationFits : Bool :=
  hasExactKeys payload EventKind.authorized.fields && !(c.authorized && !c.finished) &&
    (item payload "request_id").isText c.requestId &&
    (item payload "request_digest").isText c.digest &&
    isOptional c.currentCapability (item payload "capability_id") &&
    (c.authorized || (item payload "capability_id").isText c.capabilityId)

/-- The payload of a fenced event while a story is open. -/
def fencedFits : Bool :=
  c.authorized && !c.finished &&
    (item payload "request_id").isText c.requestId &&
    (item payload "request_digest").isText c.digest &&
    isOptional c.currentCapability (item payload "capability_id")

/-- `type(value) is int` and a bound. -/
def isIntFrom (low : ℤ) : PyValue → Bool
  | .int n => low ≤ n
  | _ => false

/-- `type(value) is int and value == n`. -/
def isExactly (n : ℤ) : PyValue → Bool
  | .int m => m = n
  | _ => false

/-- `0 <= value <= 512` for an integer. -/
def isOutputSize : PyValue → Bool
  | .int n => 0 ≤ n ∧ n ≤ 512
  | _ => false

/-- The payload of a confirmation, its provenance apart. -/
def confirmationFits : Bool :=
  hasExactKeys payload EventKind.fencedConfirmed.fields && c.fencedFits payload &&
    isOptional c.fencedRecipientId (item payload "recipient_id") &&
    (match item payload "receipt_digest" with
    | .str s => isHex s
    | _ => false) &&
    isIntFrom 1 (item payload "commit_sequence") &&
    (match item payload "recovery", item payload "new_effect_commit" with
    | .bool _, .bool _ => true
    | _, _ => false)

/-- The provenance of a confirmation. -/
def provenanceFits : Bool :=
  match c.originalCapabilityId with
  | none =>
    (item payload "original_capability_id").isText c.capabilityId &&
      !(item payload "recovery").truthy && (item payload "new_effect_commit").truthy
  | some original =>
    (item payload "original_capability_id").isText original &&
      (item payload "recovery").truthy = !(item payload "capability_id").isText original

/-- Whether `_check` passes a payload of the type. -/
def fits : EventKind → Bool
  | .denied => boundaryDenial payload || c.gatewayDenial payload
  | .fencedAuthorized | .authorized => c.authorizationFits payload
  | .fencedIndeterminate =>
    hasExactKeys payload EventKind.fencedIndeterminate.fields && c.fencedFits payload &&
      (item payload "effect_state").isText (.ofString "possibly-committed")
  | .fencedConfirmed => c.confirmationFits payload && c.provenanceFits payload
  | .dispatch =>
    hasExactKeys payload EventKind.dispatch.fields && c.authorized && !c.dispatched &&
      !c.finished && (item payload "request_digest").isText c.digest &&
      isExactly 1 (item payload "dispatch_count") && isExactly c.pid (item payload "gateway_pid")
  | .completed =>
    hasExactKeys payload EventKind.completed.fields && c.dispatched && !c.finished &&
      (item payload "request_id").isText c.requestId &&
      (item payload "capability_id").isText c.capabilityId &&
      (match item payload "success" with
      | .bool b => b
      | _ => false) &&
      (item payload "effect_state").isText (.ofString "completed") &&
      isOutputSize (item payload "output_bytes")
  | .indeterminate =>
    hasExactKeys payload EventKind.indeterminate.fields && c.dispatched && !c.finished &&
      (item payload "request_id").isText c.requestId &&
      (item payload "effect_state").isText (.ofString "possibly-committed")

/-- What `_check` assigns when it passes an event of the type. -/
def next : EventKind → GatewayEventContract
  | .denied => c
  | .fencedAuthorized => { c with authorized := true, finished := false }
  | .authorized => { c with authorized := true }
  | .dispatch => { c with dispatched := true }
  | .fencedConfirmed =>
    { c with
      originalCapabilityId := some (c.originalCapabilityId.getD c.capabilityId)
      finished := true }
  | .fencedIndeterminate | .completed | .indeterminate => { c with finished := true }

/-- A denial whose error class has no hash. -/
def Unhashable (k : EventKind) : Prop :=
  k = .denied ∧ c.asksErrorClass payload = true ∧ (item payload "error_class").hashable = false

instance (k : EventKind) : Decidable (c.Unhashable payload k) :=
  inferInstanceAs (Decidable (_ ∧ _ ∧ _))

/-- The message for a payload that does not pass. -/
def rejection : EventKind → String
  | .denied => "unrecognized denial evidence"
  | .fencedAuthorized => "invalid fenced authorization"
  | .fencedIndeterminate => "unverifiable indeterminate recipient event"
  | .fencedConfirmed =>
    if c.confirmationFits payload = false then "unverified fenced completion envelope"
    else if c.originalCapabilityId = none then "original fenced commit provenance mismatch"
    else "fenced recovery rewrote original authority"
  | .authorized => "forged or repeated authorization evidence"
  | .dispatch => "forged or out-of-order gateway dispatch"
  | .completed => "forged or out-of-order completion"
  | .indeterminate => "invalid ambiguous-effect evidence"

/-- `check`. Looking up the error class of a denial in a set needs its hash. -/
def check (event : PyValue) : Except Exn Unit × GatewayEventContract :=
  match envelope event with
  | none => (.error ⟨.gatewayEvidenceContractError, "gateway evidence envelope invalid"⟩, c)
  | some (kind, payload) =>
    match kindOf kind with
    | none => (.error ⟨.gatewayEvidenceContractError, "gateway event type not on allowlist"⟩, c)
    | some k =>
      if k.isFenced ∧ c.fencedRecipientId = none then
        (.error ⟨.gatewayEvidenceContractError, "gateway event type not on allowlist"⟩, c)
      else if c.Unhashable payload k then (.error ⟨.typeError, "unhashable type"⟩, c)
      else if c.fits payload k then (.ok (), c.next k)
      else (.error ⟨.gatewayEvidenceContractError, c.rejection payload k⟩, c)

end GatewayEventContract

end EventHorizon.Evidence
