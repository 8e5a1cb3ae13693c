import EventHorizon.Canonical.Loads
import EventHorizon.Evidence.Contract

/-!
# The gateway that recovers an effect

`FencedEffectRecoveryGateway.execute` of `fenced_effect_recovery.py`, with the journal of
`effect_outcome_journal.py` that it reserves effects in. The recorder of the gateway is the contract
of its supervisor: an event that the contract refuses makes `append` raise.

The verifier, the rule before the dispatch, the factory of the output and the recipient are outside
of the gateway, and any of them may fail in any call; so may each transaction of the journal, before
it is committed or after. An `Attempt` is a call together with what these do in it.
-/

namespace EventHorizon.Evidence

open PyValue (item hasExactKeys)

/-! ## The journal -/

/-- A row of `effects`, for the tenant and the environment of the gateway. -/
structure Effect where
  effectKey : PyStr
  capabilityId : PyStr
  requestDigest : PyStr
  claimsDigest : PyStr
  confirmed : Bool
  receiptDigest : Option PyStr
  fencedProtocol : Option PyStr
  fencedRecipientId : Option PyStr
  fencedOutputDigest : Option PyStr
  deriving DecidableEq, Repr

/-- Where a transaction fails, if it does: before its effect is durable, or after. -/
inductive Fault
  | never
  | before
  | after
  deriving DecidableEq, Repr

namespace Journal

/-- The texts that name a tenant, an environment or a capability. -/
def isIdentity (s : PyStr) : Bool := s ≠ [] && s.length ≤ 256

/-- `_validate`. -/
def validate (tenant environment effectKey capabilityId requestDigest claimsDigest : PyStr) :
    Except Exn Unit :=
  if [tenant, environment, capabilityId].all isIdentity = false then
    .error ⟨.valueError, "effect journal identity invalid"⟩
  else if [effectKey, requestDigest, claimsDigest].all isHex = false then
    .error ⟨.valueError, "effect journal digest invalid"⟩
  else .ok ()

/-- The columns that are compared with the expected binding. -/
def sameBinding (a b : Effect) : Bool :=
  a.effectKey = b.effectKey && a.capabilityId = b.capabilityId &&
    a.requestDigest = b.requestDigest && a.claimsDigest = b.claimsDigest &&
    a.fencedProtocol = b.fencedProtocol && a.fencedRecipientId = b.fencedRecipientId &&
    a.fencedOutputDigest = b.fencedOutputDigest

/-- A transaction that computes a result and new rows, with its fault and the text of the error. -/
def transact {α : Type} (unavailable : String) (fault : Fault) (rows : List Effect)
    (body : Except Exn (α × List Effect)) : Except Exn α × List Effect :=
  match fault, body with
  | .before, _ => (.error ⟨.effectJournalError, unavailable⟩, rows)
  | _, .error e => (.error e, rows)
  | .never, .ok (a, rows') => (.ok a, rows')
  | .after, .ok (_, rows') => (.error ⟨.effectJournalError, unavailable⟩, rows')

/-- What `reserve_fenced` is called with, apart from the tenant and the environment. -/
structure Reservation where
  effectKey : PyStr
  capabilityId : PyStr
  requestDigest : PyStr
  claimsDigest : PyStr
  recipientId : PyStr
  outputDigest : PyStr

/-- The row that a reservation inserts. -/
def Reservation.row (r : Reservation) : Effect :=
  ⟨r.effectKey, r.capabilityId, r.requestDigest, r.claimsDigest, false, none,
    some (.ofString "atomic-sqlite-v1"), some r.recipientId, some r.outputDigest⟩

/-- The checks of `reserve_fenced`. -/
def Reservation.check (r : Reservation) (tenant environment : PyStr) : Except Exn Unit := do
  validate tenant environment r.effectKey r.capabilityId r.requestDigest r.claimsDigest
  if r.recipientId = [] ∨ 128 < r.recipientId.length ∨ isHex r.outputDigest = false then
    .error ⟨.valueError, "invalid fenced recipient binding"⟩

/-- `reserve_fenced`. -/
def reserveFenced (tenant environment : PyStr) (fault : Fault) (r : Reservation)
    (rows : List Effect) : Except Exn Bool × List Effect :=
  match r.check tenant environment with
  | .error e => (.error e, rows)
  | .ok () => transact "fenced reservation unavailable" fault rows
    (match rows.find? fun row ↦ row.effectKey = r.effectKey ||
        row.capabilityId = r.capabilityId with
    | some existing =>
      if sameBinding existing r.row then .ok (false, rows)
      else .error ⟨.effectAlreadyReserved,
        "effect previously reserved under incompatible protocol or authority"⟩
    | none => .ok (true, rows ++ [r.row]))

/-- `observe_effect`. -/
def observeEffect (tenant environment : PyStr) (fault : Fault) (effectKey : PyStr)
    (rows : List Effect) : Except Exn (Option Effect) :=
  if isIdentity tenant = false ∨ isIdentity environment = false ∨ isHex effectKey = false then
    .error ⟨.valueError, "invalid trusted effect observation identity"⟩
  else if fault = .never then .ok (rows.find? fun row ↦ row.effectKey = effectKey)
  else .error ⟨.effectJournalError, "effect-key journal observation unavailable"⟩

/-- The checks of `confirm_from_trusted_recipient`. -/
def checkConfirmation (tenant environment : PyStr) (binding : Effect) (receiptDigest : PyStr) :
    Except Exn Unit := do
  validate tenant environment binding.effectKey binding.capabilityId binding.requestDigest
    binding.claimsDigest
  if isHex receiptDigest = false then
    .error ⟨.valueError, "trusted recipient receipt digest invalid"⟩

/-- `confirm_from_trusted_recipient`. -/
def confirm (tenant environment : PyStr) (fault : Fault) (binding : Effect)
    (receiptDigest : PyStr) (rows : List Effect) : Except Exn Unit × List Effect :=
  match checkConfirmation tenant environment binding receiptDigest with
  | .error e => (.error e, rows)
  | .ok () => transact "recipient confirmation unavailable" fault rows
    (match rows.find? fun row ↦ row.capabilityId = binding.capabilityId with
    | none => .error ⟨.effectJournalError, "recipient receipt is not bound to a reservation"⟩
    | some row =>
      if row.effectKey ≠ binding.effectKey ∨ row.requestDigest ≠ binding.requestDigest ∨
          row.claimsDigest ≠ binding.claimsDigest then
        .error ⟨.effectJournalError, "recipient receipt is not bound to a reservation"⟩
      else if row.confirmed = true ∧ row.receiptDigest ≠ some receiptDigest then
        .error ⟨.effectJournalError, "conflicting recipient confirmation"⟩
      else .ok ((), rows.map fun row ↦
        if row.capabilityId = binding.capabilityId then
          { row with confirmed := true, receiptDigest := some receiptDigest }
        else row))

end Journal

/-! ## The gateway -/

/-- A receipt of the recipient. Both recipients check the form of its digest and its sequence. -/
structure FencedReceipt where
  recipientId : PyStr
  outputDigest : PyStr
  receiptDigest : PyStr
  sequence : ℤ
  newlyCommitted : Bool
  hex : isHex receiptDigest = true
  positive : 1 ≤ sequence

/-- What `verify_and_consume` returns, as far as the gateway reads it. -/
structure Claims where
  capabilityId : PyStr
  maxOutputBytes : PyValue
  /-- `digest(claims.to_dict())`. -/
  digest : PyStr
  hex : isHex digest = true

/-- A call of `execute`, with the message that carried its capability and what happens in it. -/
structure Attempt where
  message : PyValue
  claims : Except Exn Claims
  /-- Whether the rule, if there is one, returned `True`. -/
  rule : Option (Except Exn Bool)
  /-- `output_factory(request)`. -/
  output : Except Exn PyValue
  reserveFault : Fault
  observeFault : Fault
  /-- `recipient.apply`. -/
  applied : Except Exn FencedReceipt
  /-- `recipient.observe`. -/
  observed : Except Exn (Option FencedReceipt)
  confirmFault : Fault

/-- The gateway, and the request that is pinned. -/
structure FencedEffectRecoveryGateway where
  tenant : PyStr
  environment : PyStr
  recipientId : PyStr
  requestId : PyStr
  requestDigest : PyStr
  /-- `digest({"session_id": ..., "request_id": ...})`. -/
  effectKey : PyStr

/-- A `GatewayDecision`, its output apart. -/
structure GatewayDecision where
  success : Bool
  effectState : String
  error : String
  deriving DecidableEq, Repr

/-- The contract of the supervisor, the journal, and the events that the gateway has appended, each
with whether it was accepted. -/
structure World where
  contract : GatewayEventContract
  journal : List Effect
  appended : List (PyValue × Bool)

/-- `recorder.append(kind, payload)`. -/
def World.append (w : World) (kind : EventKind) (payload : List (String × PyValue)) :
    Except Exn Unit × World :=
  let event : PyValue := .ofNamed [("event_type", .str (.ofString kind.name)),
    ("payload", .ofNamed payload), ("source_id", .str (.ofString "host-effect-service"))]
  let checked := w.contract.check event
  (checked.1, ⟨checked.2, w.journal, w.appended ++ [(event, checked.1.isOk)]⟩)

section Execute

variable [Platform]

/-- The rule, the output and its encoding: the digest of an output that may be dispatched. -/
def Attempt.prepare (a : Attempt) (claims : Claims) : Option PyStr := do
  guard ((a.rule.all fun r ↦ r.toOption = some true) = true)
  let result ← a.output.toOption
  let encoded ← result.canonicalBytes.toOption
  let _ ← (strictJsonLoads encoded true).toOption
  match claims.maxOutputBytes with
  | .int ceiling => guard ((encoded.length : ℤ) ≤ ceiling)
  | _ => none
  let outputDigest ← result.digest.toOption
  return .ofString outputDigest

namespace FencedEffectRecoveryGateway

variable (g : FencedEffectRecoveryGateway)

/-- The reservation that the gateway asks for. -/
def expected (claims : Claims) (outputDigest : PyStr) : Journal.Reservation :=
  ⟨g.effectKey, claims.capabilityId, g.requestDigest, claims.digest, g.recipientId, outputDigest⟩

/-- The binding that a dispatch relies on. -/
def bindingFits (claims : Claims) (outputDigest : PyStr) (recovered : Bool) (binding : Effect) :
    Bool :=
  binding.requestDigest = g.requestDigest &&
    binding.fencedProtocol = some (.ofString "atomic-sqlite-v1") &&
    binding.fencedRecipientId = some g.recipientId &&
    binding.fencedOutputDigest = some outputDigest &&
    (recovered || binding.capabilityId = claims.capabilityId &&
      binding.claimsDigest = claims.digest)

/-- The reservation of the effect: the binding and whether it was there before, or the error. -/
def reserve (a : Attempt) (claims : Claims) (outputDigest : PyStr) (rows : List Effect) :
    Except GatewayDecision (Effect × Bool) × List Effect :=
  let reserved := Journal.reserveFenced g.tenant g.environment a.reserveFault
    (g.expected claims outputDigest) rows
  let unavailable : GatewayDecision := ⟨false, "not-started", "effect-journal-unavailable"⟩
  let recovered : Option Bool :=
    match reserved.1 with
    | .ok first => some !first
    | .error e => if e.cls = .effectAlreadyReserved then some true else none
  match recovered with
  | none => (.error unavailable, reserved.2)
  | some recovered =>
    match Journal.observeEffect g.tenant g.environment a.observeFault g.effectKey reserved.2 with
    | .error _ => (.error unavailable, reserved.2)
    | .ok none =>
      (.error ⟨false, "possibly-committed", "effect-binding-conflict"⟩, reserved.2)
    | .ok (some binding) =>
      if g.bindingFits claims outputDigest recovered binding then
        (.ok (binding, recovered), reserved.2)
      else (.error ⟨false, "possibly-committed", "effect-binding-conflict"⟩, reserved.2)

/-- The receipt of the recipient and its observation, when the one corroborates the other. -/
def corroborated (a : Attempt) (outputDigest : PyStr) : Option (FencedReceipt × FencedReceipt) :=
  match a.applied, a.observed with
  | .ok receipt, .ok (some observed) =>
    if observed.receiptDigest = receipt.receiptDigest ∧ observed.outputDigest = outputDigest ∧
        observed.sequence = receipt.sequence ∧ observed.recipientId = g.recipientId then
      some (receipt, observed)
    else none
  | _, _ => none

/-- The payload that every event starts with. -/
def named (claims : Claims) : List (String × PyValue) :=
  [("request_id", .str g.requestId), ("request_digest", .str g.requestDigest),
    ("capability_id", .str claims.capabilityId)]

def indeterminatePayload (claims : Claims) : List (String × PyValue) :=
  g.named claims ++ [("effect_state", .str (.ofString "possibly-committed"))]

def confirmedPayload (claims : Claims) (binding : Effect) (recovered : Bool)
    (receipt observed : FencedReceipt) : List (String × PyValue) :=
  g.named claims ++ [("original_capability_id", .str binding.capabilityId),
    ("receipt_digest", .str observed.receiptDigest), ("recipient_id", .str observed.recipientId),
    ("commit_sequence", .int observed.sequence), ("recovery", .bool recovered),
    ("new_effect_commit", .bool receipt.newlyCommitted)]

/-- `execute` from the recipient on. -/
def dispatch (a : Attempt) (claims : Claims) (outputDigest : PyStr) (binding : Effect)
    (recovered : Bool) (w : World) : GatewayDecision × World :=
  match g.corroborated a outputDigest with
  | none =>
    let appended := w.append .fencedIndeterminate (g.indeterminatePayload claims)
    match appended.1 with
    | .error _ => (⟨false, "possibly-committed", "evidence-indeterminate"⟩, appended.2)
    | .ok _ => (⟨false, "possibly-committed", "recipient-indeterminate"⟩, appended.2)
  | some (receipt, observed) =>
    let confirmed := Journal.confirm g.tenant g.environment a.confirmFault binding
      observed.receiptDigest w.journal
    let w := { w with journal := confirmed.2 }
    match confirmed.1 with
    | .error _ => (⟨false, "possibly-committed", "journal-confirmation-indeterminate"⟩, w)
    | .ok _ =>
      let appended := w.append .fencedConfirmed
        (g.confirmedPayload claims binding recovered receipt observed)
      match appended.1 with
      | .error _ => (⟨false, "possibly-committed", "evidence-indeterminate"⟩, appended.2)
      | .ok _ => (⟨true, "completed", ""⟩, appended.2)

/-- `execute`. -/
def execute (a : Attempt) (w : World) : GatewayDecision × World :=
  match a.claims with
  | .error _ => (⟨false, "not-started", "authority-denied"⟩, w)
  | .ok claims =>
    let appended := w.append .fencedAuthorized (g.named claims)
    match appended.1 with
    | .error _ => (⟨false, "not-started", "evidence-unavailable"⟩, appended.2)
    | .ok _ =>
      match a.prepare claims with
      | none => (⟨false, "not-started", "pre-dispatch-denied"⟩, appended.2)
      | some outputDigest =>
        let reserved := g.reserve a claims outputDigest appended.2.journal
        let w := { appended.2 with journal := reserved.2 }
        match reserved.1 with
        | .error decision => (decision, w)
        | .ok (binding, recovered) => g.dispatch a claims outputDigest binding recovered w

/-- A call between `begin_request` and `end_request`. -/
def attempt (w : World) (a : Attempt) : World :=
  let begun := { w with contract := (w.contract.beginRequest a.message).2 }
  let after := (g.execute a begun).2
  { after with contract := after.contract.endRequest }

/-- The world after a sequence of calls. -/
def run (w : World) (attempts : List Attempt) : World := attempts.foldl g.attempt w

end FencedEffectRecoveryGateway

end Execute

end EventHorizon.Evidence
