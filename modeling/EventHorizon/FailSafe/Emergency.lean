import EventHorizon.FailSafe.Envelope
import EventHorizon.Canonical.Objects
import EventHorizon.Library.Transducer

/-!
# The emergency stop

`EmergencyStopController` of `emergency_stop.py`: it begins tripped, is armed by a signed re-arm
message that a trusted operator hands in, is tripped by a signed kill, and keeps the sets of the
authorities and effects that were revoked. A message that fails a check trips it, wherever the check
stands.

Every change is recorded. The recorder is `EventLog`, of which nothing is assumed here: it may raise
at any time, and what that does to a call is part of the model.
-/

namespace EventHorizon.FailSafe.Emergency

open Broker (Ed25519 capabilityKeyId)

/-! ## Messages -/

/-- The protocol of `emergency_stop.py`. -/
def protocol : Protocol where
  cls := .emergencyStopError
  challengeLabel := "emergency stop challenge"
  messageLabel := "emergency action"
  claimFields := [
    "schema", "component_id", "challenge_id", "challenge_nonce", "sequence", "issued_at_ms",
    "expires_at_ms", "action", "action_payload", "key_id"]

/-- `EmergencyStopError`. -/
def refuse (message : String) : Exn := protocol.refuse message

/-- `ACTIONS`. -/
inductive Action
  | kill
  | rearm
  | rotateKey
  | revokeAuthority
  | revokeExternalEffects
  deriving DecidableEq, Repr

/-- The text of an action in the claims. -/
def Action.text : Action → String
  | .kill => "kill"
  | .rearm => "rearm"
  | .rotateKey => "rotate-key"
  | .revokeAuthority => "revoke-authority"
  | .revokeExternalEffects => "revoke-external-effects"

def actions : List Action := [.kill, .rearm, .rotateKey, .revokeAuthority, .revokeExternalEffects]

/-- `claims["action"] in ACTIONS`: an object without a hash cannot be looked up. -/
def actionOf (v : PyValue) : Except Exn Action :=
  if v.hashable = false then .error ⟨.typeError, "unhashable type"⟩
  else
    match actions.find? fun a ↦ v.isText (.ofString a.text) with
    | some a => .ok a
    | none => .error (refuse "invalid action")

theorem actionOf_eq_ok {v : PyValue} {a : Action} :
    actionOf v = .ok a ↔ v = .str (.ofString a.text) := by
  rw [actionOf]
  constructor
  · intro h
    split at h
    · cases h
    split at h
    case h_1 b hb =>
      have htext := List.find?_some hb
      rw [← Except.ok.inj h]
      exact PyValue.isText_iff.mp htext
    case h_2 => cases h
  · rintro rfl
    have hfind :
        actions.find? (fun b ↦ (PyValue.str (.ofString a.text)).isText (.ofString b.text)) =
        some a := by
      cases a <;> decide
    rw [PyValue.hashable, if_neg Bool.noConfusion, hfind]

/-- The name of an exception's class. -/
def className : ExnClass → String
  | .emergencyStopError => "EmergencyStopError"
  | .valueError => "ValueError"
  | .typeError => "TypeError"
  | .keyError => "KeyError"
  | .overflowError => "OverflowError"
  | .attributeError => "AttributeError"
  | .canonicalizationError => "CanonicalizationError"
  | .unicodeEncodeError => "UnicodeEncodeError"
  | .recorderIntegrityError => "RecorderIntegrityError"
  | .osError => "OSError"
  | .permissionError => "PermissionError"
  | _ => "Exception"

/-! ## The controller -/

/-- `ExternalRecorder.append`, whatever it does. -/
class EventLog (ρ : Type) where
  append : ρ → String → PyValue → Except Exn Unit × ρ

inductive Phase
  | tripped
  | armed
  deriving DecidableEq, Repr

/-- The `component_id` of the controller, as its constructor has checked it. -/
structure Config where
  componentId : PyStr
  componentId_ne : componentId ≠ []

section Controller

variable [Platform] [Ed25519] [FloatArithmetic] {ρ : Type}

/-- The attributes of the controller that change. A set is the list of its elements in the order in
which they came. -/
structure Controller (ρ : Type) where
  phase : Phase
  tripReason : PyValue
  sequence : PyNumber
  challengeCounter : ℕ
  pending : Option Challenge
  authorizedKeys : Table PyStr Ed25519.PublicKey
  trustedRearmKeys : List PyStr
  revokedAuthorities : List PyValue
  revokedExternalEffects : List PyValue
  recorder : ρ

/-- A controller that has just been constructed. -/
def Controller.restarted (recorder : ρ) : Controller ρ :=
  ⟨.tripped, .str (.ofString "controller-restart"), .int 0, 0, none, [], [], [], [], recorder⟩

/-- The claims that were checked. -/
structure Command where
  envelope : Envelope
  keyId : PyStr
  publicKey : Ed25519.PublicKey
  sequence : PyNumber
  action : Action

variable (cfg : Config)

/-- `self._authorized_keys[key_id]`. -/
def authorizedKey (keys : Table PyStr Ed25519.PublicKey) (keyId : PyValue) :
    Except Exn (PyStr × Ed25519.PublicKey) :=
  if keyId.hashable = false then .error ⟨.typeError, "unhashable type"⟩
  else
    match keyId with
    | .str p =>
      match keys.get? p with
      | some key => .ok (p, key)
      | none => .error (refuse "action key not authorized")
    | _ => .error (refuse "action key not authorized")

/-- The checks of `receive_action`, in their order. -/
def validate (s : Controller ρ) (message : Message) (nowMs : ℤ) : Except Exn Command := do
  let parsed ← protocol.parse message
  let claims := parsed.claims
  match s.pending with
  | none => throw (refuse "no outstanding challenge")
  | some challenge => do
    PyValue.requireText claims "schema" (.ofString "event-horizon.emergency-stop.v1")
      (refuse "component or schema mismatch")
    PyValue.requireText claims "component_id" cfg.componentId
      (refuse "component or schema mismatch")
    let (keyId, publicKey) ← (PyValue.read claims "key_id" >>= authorizedKey s.authorizedKeys)
    let challengeId ← PyValue.read claims "challenge_id"
    raiseIf (challengeId.isInt challenge.challengeId = false) (refuse "challenge mismatch")
    PyValue.requireText claims "challenge_nonce" challenge.nonce (refuse "challenge mismatch")
    raiseIf (challenge.expiresAtMs ≤ nowMs) (refuse "challenge expired")
    let sequence ← (PyValue.read claims "sequence" >>= PyValue.number)
    raiseIf (sequence.le s.sequence = true) (refuse "stale or replayed sequence")
    let issuedAtMs ← (PyValue.read claims "issued_at_ms" >>= PyValue.number)
    raiseIf (PyNumber.lt (.int nowMs) (issuedAtMs.sub 1000) = true)
      (refuse "freshness check failed")
    let expiresAtMs ← (PyValue.read claims "expires_at_ms" >>= PyValue.number)
    raiseIf (expiresAtMs.le (.int nowMs) = true) (refuse "freshness check failed")
    let action ← (PyValue.read claims "action" >>= actionOf)
    raiseIf (parsed.verified publicKey = false) (refuse "invalid signature")
    return ⟨parsed, keyId, publicKey, sequence, action⟩

variable [EventLog ρ] [PyValue.SetOrder]

/-- `self.recorder.append`. -/
def Controller.record (s : Controller ρ) (eventType : String) (payload : List (String × PyValue)) :
    Except Exn Unit × Controller ρ :=
  let r := EventLog.append s.recorder eventType (.ofNamed payload)
  (r.1, { s with recorder := r.2 })

/-- The payload of the event that a trip is recorded as. -/
def tripPayload (s : Controller ρ) : List (String × PyValue) := [
  ("component_id", .str cfg.componentId), ("reason", s.tripReason),
  ("revoked_authorities", .list (PyValue.SetOrder.order s.revokedAuthorities)),
  ("revoked_external_effects", .list (PyValue.SetOrder.order s.revokedExternalEffects))]

/-- `_trip`. -/
def trip (s : Controller ρ) (reason : PyValue) : Except Exn Unit × Controller ρ :=
  let s₁ := { s with phase := .tripped }
  match reason.sliceTo 256 with
  | .error e => (.error e, s₁)
  | .ok reason =>
    let s₂ := { s₁ with tripReason := reason }
    s₂.record "emergency_stop.tripped" (tripPayload cfg s₂)

/-- A branch of `receive_action` that adds what the payload has under a name to a set, and records
it. -/
def revoke (s : Controller ρ) (action name eventType : String) (revoked : List PyValue)
    (update : List PyValue → Controller ρ) (payload : List (PyKey × PyValue)) (revokedAtMs : ℤ) :
    Except Exn Unit × Controller ρ :=
  let id := (PyValue.at? payload name).getD .none
  if id.truthy = false then (.error (refuse (action ++ " requires " ++ name)), s)
  else
    match PyValue.addTo revoked id with
    | .error e => (.error e, s)
    | .ok revoked =>
      (update revoked).record eventType [
        ("component_id", .str cfg.componentId), (name, id), ("revoked_at_ms", .int revokedAtMs)]

/-- The branch of `revoke-authority`. -/
def revokeAuthority (s : Controller ρ) (payload : List (PyKey × PyValue)) (revokedAtMs : ℤ) :
    Except Exn Unit × Controller ρ :=
  revoke cfg s "revoke-authority" "authority_id" "emergency_stop.authority_revoked"
    s.revokedAuthorities (fun xs ↦ { s with revokedAuthorities := xs }) payload revokedAtMs

/-- The branch of `revoke-external-effects`. -/
def revokeExternalEffects (s : Controller ρ) (payload : List (PyKey × PyValue)) (revokedAtMs : ℤ) :
    Except Exn Unit × Controller ρ :=
  revoke cfg s "revoke-external-effects" "effect_id" "emergency_stop.external_effect_revoked"
    s.revokedExternalEffects (fun xs ↦ { s with revokedExternalEffects := xs }) payload revokedAtMs

/-- What `receive_action` does with claims that passed the checks; `wallMs` is
`int(time.time() * 1000)`. -/
def perform (s : Controller ρ) (a : Command) (trustedOperator : Bool) (wallMs : ℤ) :
    Except Exn Unit × Controller ρ :=
  match PyValue.read a.envelope.claims "action_payload" >>= PyValue.dictOf with
  | .error e => (.error e, s)
  | .ok payload =>
    match a.action with
    | .kill => trip cfg s ((PyValue.at? payload "reason").getD (.str (.ofString "explicit-kill")))
    | .rearm =>
      if trustedOperator = false then (.error (refuse "rearm requires trusted operator"), s)
      else (.ok (), { s with phase := .armed, tripReason := .str [] })
    | .rotateKey => (.ok (), s)
    | .revokeAuthority => revokeAuthority cfg s payload wallMs
    | .revokeExternalEffects => revokeExternalEffects cfg s payload wallMs

/-- The handler of `receive_action` for an exception raised inside. -/
def failClosed (s : Controller ρ) (e : Exn) : Except Exn Phase × Controller ρ :=
  let r := trip cfg { s with pending := none } (.str (.ofString (className e.cls)))
  match r.1 with
  | .error e' => (.error e', r.2)
  | .ok () =>
    (.error (if e.cls = .emergencyStopError then e else refuse "validation failed closed"), r.2)

/-- `receive_action`: the answer, and the controller after it. -/
def receiveAction (s : Controller ρ) (message : Message) (nowMs : ℤ) (trustedOperator : Bool)
    (wallMs : ℤ) : Except Exn Phase × Controller ρ :=
  match validate cfg s message nowMs with
  | .error e => failClosed cfg s e
  | .ok a =>
    let r := perform cfg { s with pending := none, sequence := a.sequence } a trustedOperator wallMs
    match r.1 with
    | .error e => failClosed cfg r.2 e
    | .ok () => (.ok r.2.phase, r.2)

/-- `issue_challenge`, with what the nonce factory returns. -/
def issueChallenge (s : Controller ρ) (nonce : PyStr) (nowMs lifetimeMs : ℤ) :
    Except Exn Challenge × Controller ρ :=
  let s₁ := { s with challengeCounter := s.challengeCounter + 1 }
  match protocol.challenge cfg.componentId s₁.challengeCounter nonce nowMs lifetimeMs with
  | .error e => (.error e, s₁)
  | .ok c => (.ok c, { s₁ with pending := some c })

variable [PemKeys]

/-- The key that the text holds, if it is one of the given name. -/
def loadKey (keyId pem : PyStr) : Except Exn Ed25519.PublicKey := do
  let text ← match pem.text? with
    | some t => if isAscii t = true then pure t else throw pem.encodeAsciiError
    | none => throw pem.encodeAsciiError
  match ← PemKeys.load text with
  | some key => do
    raiseIf (PyStr.ofString (capabilityKeyId key) ≠ keyId)
      (refuse "key_id does not match public key")
    return key
  | none => throw (refuse "public key must be Ed25519")

/-- The checks of `enroll_key`, in their order. -/
def enrolment (s : Controller ρ) (keyId pem : PyStr) : Except Exn Ed25519.PublicKey := do
  raiseIf ((keyId.text?.map isKeyId).getD false = false) (refuse "key_id format is invalid")
  let key ← (loadKey keyId pem).mapError fun e ↦ refuse ("invalid public key: " ++ e.message)
  raiseIf ((s.authorizedKeys.get? keyId).isSome = true)
    (refuse ("key " ++ keyId.shown ++ " already enrolled"))
  return key

/-- `enroll_key`. -/
def enrollKey (s : Controller ρ) (keyId pem : PyStr) (trustedForRearm : Bool) (actor : PyStr) :
    Except Exn Unit × Controller ρ :=
  match enrolment s keyId pem with
  | .error e => (.error e, s)
  | .ok key =>
    { s with
      authorizedKeys := s.authorizedKeys.put keyId key
      trustedRearmKeys :=
        if trustedForRearm =
          true then s.trustedRearmKeys ++ [keyId] else s.trustedRearmKeys }.record
      "emergency_stop.key_enrolled" [
        ("key_id", .str keyId), ("component_id", .str cfg.componentId),
        ("trusted_for_rearm", .bool trustedForRearm), ("actor", .str actor)]

/-- `revoke_key`. -/
def revokeKey (s : Controller ρ) (keyId actor : PyStr) : Except Exn Unit × Controller ρ :=
  if (s.authorizedKeys.get? keyId).isSome = false then
    (.error (refuse ("key " ++ keyId.shown ++ " not enrolled")), s)
  else
    { s with
      authorizedKeys := s.authorizedKeys.filter fun r ↦ r.1 ≠ keyId
      trustedRearmKeys := s.trustedRearmKeys.filter fun k ↦ k ≠ keyId }.record
      "emergency_stop.key_revoked" [
        ("key_id", .str keyId), ("component_id", .str cfg.componentId), ("actor", .str actor)]

/-- A call on the controller. -/
inductive Call
  | enrollKey (keyId pem : PyStr) (trustedForRearm : Bool) (actor : PyStr)
  | revokeKey (keyId actor : PyStr)
  | issueChallenge (nonce : PyStr) (nowMs lifetimeMs : ℤ)
  | receiveAction (message : Message) (nowMs : ℤ) (trustedOperator : Bool) (wallMs : ℤ)

/-- What a call returns or raises. -/
inductive Answer
  | done (r : Except Exn Unit)
  | challenge (r : Except Exn Challenge)
  | phase (r : Except Exn Phase)

/-- One call. -/
def step (s : Controller ρ) : Call → Answer × Controller ρ
  | .enrollKey keyId pem trustedForRearm actor =>
    let r := enrollKey cfg s keyId pem trustedForRearm actor
    (.done r.1, r.2)
  | .revokeKey keyId actor =>
    let r := revokeKey cfg s keyId actor
    (.done r.1, r.2)
  | .issueChallenge nonce nowMs lifetimeMs =>
    let r := issueChallenge cfg s nonce nowMs lifetimeMs
    (.challenge r.1, r.2)
  | .receiveAction message nowMs trustedOperator wallMs =>
    let r := receiveAction cfg s message nowMs trustedOperator wallMs
    (.phase r.1, r.2)

/-- The controller after a list of calls. -/
def after (s : Controller ρ) (calls : List Call) : Controller ρ :=
    Transducer.after (step cfg) s calls

theorem after_concat (s : Controller ρ) (calls : List Call) (c : Call) :
    after cfg s (calls ++ [c]) = (step cfg (after cfg s calls) c).2 := Transducer.after_concat

/-! ## What the checks establish -/

variable {cfg} {s : Controller ρ} {message : Message} {nowMs wallMs : ℤ} {trustedOperator : Bool}
  {a : Command}

omit [Platform] [FloatArithmetic] [PyValue.SetOrder] [PemKeys] in
theorem authorizedKey_eq_ok {keys : Table PyStr Ed25519.PublicKey} {v : PyValue} {p : PyStr}
    {key : Ed25519.PublicKey} :
    authorizedKey keys v = .ok (p, key) ↔ v = .str p ∧ keys.get? p = some key := by
  constructor
  · intro h
    unfold authorizedKey at h
    split at h
    · cases h
    split at h
    · split at h
      case h_1 key' hkey =>
        cases h
        exact ⟨rfl, hkey⟩
      case h_2 => cases h
    · cases h
  · rintro ⟨rfl, hkey⟩
    rw [authorizedKey, PyValue.hashable, if_neg Bool.noConfusion, hkey]

/-- What `receive_action` knows of claims that passed its checks. -/
structure Validated (cfg : Config) (s : Controller ρ) (message : Message) (nowMs : ℤ)
    (a : Command) :
    Prop where
  parsed : protocol.parse message = .ok a.envelope
  challenge : ∃ c, s.pending = some c ∧ nowMs < c.expiresAtMs ∧
    (∃ v, PyValue.at? a.envelope.claims "challenge_id" = some v ∧ v.isInt c.challengeId = true) ∧
    PyValue.at? a.envelope.claims "challenge_nonce" = some (.str c.nonce)
  schema : PyValue.at? a.envelope.claims "schema" =
    some (.str (.ofString "event-horizon.emergency-stop.v1"))
  componentId : PyValue.at? a.envelope.claims "component_id" = some (.str cfg.componentId)
  keyId : PyValue.at? a.envelope.claims "key_id" = some (.str a.keyId)
  publicKey : s.authorizedKeys.get? a.keyId = some a.publicKey
  sequence : ∃ v, PyValue.at? a.envelope.claims "sequence" = some v ∧ v.number = .ok a.sequence
  fresh : ¬a.sequence.le s.sequence = true
  issued : ∃ v n, PyValue.at? a.envelope.claims "issued_at_ms" = some v ∧ v.number = .ok n ∧
    ¬PyNumber.lt (.int nowMs) (n.sub 1000) = true
  expires : ∃ v n, PyValue.at? a.envelope.claims "expires_at_ms" = some v ∧ v.number = .ok n ∧
    ¬n.le (.int nowMs) = true
  action : PyValue.at? a.envelope.claims "action" = some (.str (.ofString a.action.text))
  signed : a.envelope.verified a.publicKey = true

omit [EventLog ρ] [PyValue.SetOrder] [PemKeys] in
theorem validate_eq_ok : validate cfg s message nowMs = .ok a ↔
    Validated cfg s message nowMs a := by
  constructor
  · intro h
    obtain ⟨e, hparsed, h⟩ := bind_eq_ok.mp h
    cases hpending : s.pending with
    | none =>
      rw [hpending] at h
      cases h
    | some c =>
      rw [hpending] at h
      obtain ⟨hschema, h⟩ := PyValue.requireText_bind_eq_ok.mp h
      obtain ⟨hcomponent, h⟩ := PyValue.requireText_bind_eq_ok.mp h
      obtain ⟨kv, ⟨keyId, publicKey⟩, hkv, hkey, h⟩ := PyValue.read_claim_eq_ok.mp h
      obtain ⟨rfl, hget⟩ := authorizedKey_eq_ok.mp hkey
      obtain ⟨id, hid, h⟩ := PyValue.read_bind_eq_ok.mp h
      obtain ⟨hidInt, h⟩ := raiseIf_bind_eq_ok.mp h
      obtain ⟨hnonce, h⟩ := PyValue.requireText_bind_eq_ok.mp h
      obtain ⟨hexpired, h⟩ := raiseIf_bind_eq_ok.mp h
      obtain ⟨sv, sequence, hsv, hsequence, h⟩ := PyValue.read_claim_eq_ok.mp h
      obtain ⟨hfresh, h⟩ := raiseIf_bind_eq_ok.mp h
      obtain ⟨iv, issued, hiv, hissued, h⟩ := PyValue.read_claim_eq_ok.mp h
      obtain ⟨hearly, h⟩ := raiseIf_bind_eq_ok.mp h
      obtain ⟨ev, expires, hev, hexpires, h⟩ := PyValue.read_claim_eq_ok.mp h
      obtain ⟨hlate, h⟩ := raiseIf_bind_eq_ok.mp h
      obtain ⟨av, action, hav, haction, h⟩ := PyValue.read_claim_eq_ok.mp h
      rw [actionOf_eq_ok.mp haction] at hav
      obtain ⟨hverified, h⟩ := raiseIf_bind_eq_ok.mp h
      cases h
      exact ⟨hparsed, ⟨c, hpending, not_le.mp hexpired, ⟨id, hid, Bool.not_eq_false _ ▸ hidInt⟩,
        hnonce⟩, hschema, hcomponent, hkv, hget, ⟨sv, hsv, hsequence⟩, hfresh,
        ⟨iv, issued, hiv, hissued, hearly⟩, ⟨ev, expires, hev, hexpires, hlate⟩, hav,
        Bool.not_eq_false _ ▸ hverified⟩
  · rintro ⟨hparsed, ⟨c, hpending, hexpired, ⟨id, hid, hidInt⟩, hnonce⟩, hschema, hcomponent, hkv,
      hkey, ⟨sv, hsv, hsequence⟩, hfresh, ⟨iv, issued, hiv, hissued, hearly⟩,
      ⟨ev, expires, hev, hexpires, hlate⟩, haction, hverified⟩
    refine bind_eq_ok.mpr ⟨_, hparsed, ?_⟩
    rw [hpending]
    refine PyValue.requireText_bind_eq_ok.mpr ⟨hschema, ?_⟩
    refine PyValue.requireText_bind_eq_ok.mpr ⟨hcomponent, ?_⟩
    refine PyValue.read_claim_eq_ok.mpr ⟨_, _, hkv, authorizedKey_eq_ok.mpr ⟨rfl, hkey⟩, ?_⟩
    refine PyValue.read_bind_eq_ok.mpr ⟨id, hid, ?_⟩
    refine raiseIf_bind_eq_ok.mpr ⟨by rw [hidInt]; exact Bool.noConfusion, ?_⟩
    refine PyValue.requireText_bind_eq_ok.mpr ⟨hnonce, ?_⟩
    refine raiseIf_bind_eq_ok.mpr ⟨not_le.mpr hexpired, ?_⟩
    refine PyValue.read_claim_eq_ok.mpr ⟨sv, _, hsv, hsequence, ?_⟩
    refine raiseIf_bind_eq_ok.mpr ⟨hfresh, ?_⟩
    refine PyValue.read_claim_eq_ok.mpr ⟨iv, _, hiv, hissued, ?_⟩
    refine raiseIf_bind_eq_ok.mpr ⟨hearly, ?_⟩
    refine PyValue.read_claim_eq_ok.mpr ⟨ev, _, hev, hexpires, ?_⟩
    refine raiseIf_bind_eq_ok.mpr ⟨hlate, ?_⟩
    refine PyValue.read_claim_eq_ok.mpr ⟨_, _, haction, actionOf_eq_ok.mpr rfl, ?_⟩
    exact raiseIf_bind_eq_ok.mpr ⟨by rw [hverified]; exact Bool.noConfusion, rfl⟩

/-! ## What one call can do -/

/-- What a message does not change, apart from the sets of what was revoked, which only grow. -/
structure Kept (s s' : Controller ρ) : Prop where
  challengeCounter : s'.challengeCounter = s.challengeCounter
  pending : s'.pending = s.pending
  authorizedKeys : s'.authorizedKeys = s.authorizedKeys
  trustedRearmKeys : s'.trustedRearmKeys = s.trustedRearmKeys
  revokedAuthorities : s.revokedAuthorities <+: s'.revokedAuthorities
  revokedExternalEffects : s.revokedExternalEffects <+: s'.revokedExternalEffects

variable {s₁ s₂ s₃ : Controller ρ}

omit [Platform] [FloatArithmetic] [EventLog ρ] [PyValue.SetOrder] [PemKeys] in
theorem Kept.refl (s : Controller ρ) : Kept s s :=
  ⟨rfl, rfl, rfl, rfl, List.prefix_rfl, List.prefix_rfl⟩

omit [Platform] [FloatArithmetic] [EventLog ρ] [PyValue.SetOrder] [PemKeys] in
theorem Kept.trans (h : Kept s₁ s₂) (h' : Kept s₂ s₃) : Kept s₁ s₃ :=
  ⟨h'.challengeCounter.trans h.challengeCounter, h'.pending.trans h.pending,
    h'.authorizedKeys.trans h.authorizedKeys, h'.trustedRearmKeys.trans h.trustedRearmKeys,
    h.revokedAuthorities.trans h'.revokedAuthorities,
    h.revokedExternalEffects.trans h'.revokedExternalEffects⟩

omit [Platform] [FloatArithmetic] [PemKeys] in
/-- A trip trips, whether or not it is recorded. -/
theorem trip_snd (cfg : Config) (s : Controller ρ) (reason : PyValue) :
    (trip cfg s reason).2.phase = .tripped ∧ Kept s (trip cfg s reason).2 := by
  rw [trip]
  split
  · exact ⟨rfl, rfl, rfl, rfl, rfl, List.prefix_rfl, List.prefix_rfl⟩
  · exact ⟨rfl, rfl, rfl, rfl, rfl, List.prefix_rfl, List.prefix_rfl⟩

omit [Platform] [FloatArithmetic] [PyValue.SetOrder] [PemKeys] in
/-- A revocation is refused, or the set has grown and nothing else has changed, whether or not that
is recorded. -/
theorem revoke_cases (cfg : Config) (s : Controller ρ) (action name eventType : String)
    (revoked : List PyValue)
    (update : List PyValue → Controller ρ) (payload : List (PyKey × PyValue)) (revokedAtMs : ℤ) :
    (∃ e, revoke cfg s action name eventType revoked update payload revokedAtMs = (.error e, s)) ∨
    ∃ ys recorder, revoked <+: ys ∧
      (revoke cfg s action name eventType revoked update payload revokedAtMs).2 =
        { update ys with recorder := recorder } := by
  rw [revoke]
  dsimp only
  split
  · exact .inl ⟨_, rfl⟩
  split
  · exact .inl ⟨_, rfl⟩
  case h_2 ys hys => exact .inr ⟨ys, _, PyValue.addTo_extends hys, rfl⟩

omit [Platform] [FloatArithmetic] [PyValue.SetOrder] [PemKeys] in
theorem revokeAuthority_snd (payload : List (PyKey × PyValue)) (revokedAtMs : ℤ) :
    (revokeAuthority cfg s payload revokedAtMs).2.phase = s.phase ∧
      Kept s (revokeAuthority cfg s payload revokedAtMs).2 := by
  rw [revokeAuthority]
  rcases revoke_cases cfg s "revoke-authority" "authority_id"
    "emergency_stop.authority_revoked" s.revokedAuthorities
    (fun xs ↦ { s with revokedAuthorities := xs }) payload revokedAtMs with
    ⟨e, h⟩ | ⟨ys, recorder, hys, h⟩
  · rw [h]
    exact ⟨rfl, Kept.refl s⟩
  · rw [h]
    exact ⟨rfl, rfl, rfl, rfl, rfl, hys, List.prefix_rfl⟩

omit [Platform] [FloatArithmetic] [PyValue.SetOrder] [PemKeys] in
theorem revokeExternalEffects_snd (payload : List (PyKey × PyValue)) (revokedAtMs : ℤ) :
    (revokeExternalEffects cfg s payload revokedAtMs).2.phase = s.phase ∧
      Kept s (revokeExternalEffects cfg s payload revokedAtMs).2 := by
  rw [revokeExternalEffects]
  rcases revoke_cases cfg s "revoke-external-effects" "effect_id"
    "emergency_stop.external_effect_revoked" s.revokedExternalEffects
    (fun xs ↦ { s with revokedExternalEffects := xs }) payload revokedAtMs with
    ⟨e, h⟩ | ⟨ys, recorder, hys, h⟩
  · rw [h]
    exact ⟨rfl, Kept.refl s⟩
  · rw [h]
    exact ⟨rfl, rfl, rfl, rfl, rfl, List.prefix_rfl, hys⟩

/-- The phase that a command leaves when nothing is raised. -/
def Action.phaseAfter (phase : Phase) : Action → Phase
  | .kill => .tripped
  | .rearm => .armed
  | .rotateKey | .revokeAuthority | .revokeExternalEffects => phase

omit [Platform] [FloatArithmetic] [PemKeys] in
/-- A command that raises nothing leaves the phase of its action, and a trusted operator has handed
in a re-arm. -/
theorem perform_snd (cfg : Config) (s : Controller ρ) (a : Command) (trustedOperator : Bool)
    (wallMs : ℤ) :
    Kept s (perform cfg s a trustedOperator wallMs).2 ∧
      ((perform cfg s a trustedOperator wallMs).1 = .ok () →
        (perform cfg s a trustedOperator wallMs).2.phase = a.action.phaseAfter s.phase ∧
        (a.action = .rearm → trustedOperator = true)) := by
  rw [perform]
  split
  · exact ⟨Kept.refl s, fun h ↦ nomatch h⟩
  cases a.action with
  | kill => exact ⟨(trip_snd cfg s _).2, fun _ ↦ ⟨(trip_snd cfg s _).1, fun h ↦ nomatch h⟩⟩
  | rearm =>
    dsimp only
    split
    · exact ⟨Kept.refl s, fun h ↦ nomatch h⟩
    case isFalse htrusted =>
      exact ⟨⟨rfl, rfl, rfl, rfl, List.prefix_rfl, List.prefix_rfl⟩,
        fun _ ↦ ⟨rfl, fun _ ↦ Bool.not_eq_false _ ▸ htrusted⟩⟩
  | rotateKey => exact ⟨Kept.refl s, fun _ ↦ ⟨rfl, fun h ↦ nomatch h⟩⟩
  | revokeAuthority =>
    exact ⟨(revokeAuthority_snd _ _).2, fun _ ↦ ⟨(revokeAuthority_snd _ _).1, fun h ↦ nomatch h⟩⟩
  | revokeExternalEffects =>
    exact ⟨(revokeExternalEffects_snd _ _).2,
      fun _ ↦ ⟨(revokeExternalEffects_snd _ _).1, fun h ↦ nomatch h⟩⟩

omit [Platform] [FloatArithmetic] [PemKeys] in
/-- A call that fails raises and trips. -/
theorem failClosed_snd (cfg : Config) (s : Controller ρ) (e : Exn) :
    (∃ e', (failClosed cfg s e).1 = .error e') ∧ (failClosed cfg s e).2.phase = .tripped ∧
      Kept { s with pending := none } (failClosed cfg s e).2 := by
  have htrip := trip_snd cfg { s with pending := none }
    (.str (.ofString (className e.cls)))
  rw [failClosed]
  split
  · exact ⟨⟨_, rfl⟩, htrip⟩
  · exact ⟨⟨_, rfl⟩, htrip⟩

/-- The claims that a call of `receive_action` accepts. -/
def Accepts (cfg : Config) (s : Controller ρ) (message : Message) (nowMs : ℤ)
    (trustedOperator : Bool)
    (wallMs : ℤ) (a : Command) : Prop :=
  Validated cfg s message nowMs a ∧
    (perform cfg { s with pending := none, sequence := a.sequence } a trustedOperator wallMs).1 =
      .ok ()

omit [PemKeys] in
/-- A call of `receive_action` raises and trips the controller, or it accepts the message. -/
theorem receiveAction_cases (cfg : Config) (s : Controller ρ) (message : Message) (nowMs : ℤ)
    (trustedOperator : Bool) (wallMs : ℤ) :
    Kept { s with pending := none } (receiveAction cfg s message nowMs trustedOperator wallMs).2 ∧
    ((∃ e, (receiveAction cfg s message nowMs trustedOperator wallMs).1 = .error e) ∧
      (receiveAction cfg s message nowMs trustedOperator wallMs).2.phase = .tripped ∧
      (∀ a, ¬Accepts cfg s message nowMs trustedOperator wallMs a) ∨
    ∃ a, Accepts cfg s message nowMs trustedOperator wallMs a ∧
      (receiveAction cfg s message nowMs trustedOperator wallMs).1 =
        .ok (a.action.phaseAfter s.phase) ∧
      (receiveAction cfg s message nowMs trustedOperator wallMs).2.phase =
        a.action.phaseAfter s.phase ∧
      (a.action = .rearm → trustedOperator = true)) := by
  rw [receiveAction]
  cases hvalidate : validate cfg s message nowMs with
  | error e =>
    obtain ⟨hraises, htrips, hkept⟩ := failClosed_snd cfg s e
    refine ⟨hkept, .inl ⟨hraises, htrips, fun a haccepts ↦ ?_⟩⟩
    rw [validate_eq_ok.mpr haccepts.1] at hvalidate
    cases hvalidate
  | ok a =>
    obtain ⟨hkept, hperform⟩ := perform_snd cfg
      { s with pending := none, sequence := a.sequence } a trustedOperator wallMs
    dsimp only
    split
    case h_1 e he =>
      obtain ⟨hraises, htrips, hkept'⟩ := failClosed_snd cfg
        (perform cfg { s with pending := none, sequence := a.sequence } a trustedOperator
          wallMs).2 e
      have hpending := hkept.pending
      refine ⟨⟨hkept'.challengeCounter.trans hkept.challengeCounter, hkept'.pending,
        hkept'.authorizedKeys.trans hkept.authorizedKeys,
        hkept'.trustedRearmKeys.trans hkept.trustedRearmKeys,
        hkept.revokedAuthorities.trans hkept'.revokedAuthorities,
        hkept.revokedExternalEffects.trans hkept'.revokedExternalEffects⟩,
        .inl ⟨hraises, htrips, fun a' haccepts ↦ ?_⟩⟩
      cases hvalidate.symm.trans (validate_eq_ok.mpr haccepts.1)
      cases he.symm.trans haccepts.2
    case h_2 hok =>
      obtain ⟨hphase, htrusted⟩ := hperform hok
      exact ⟨⟨hkept.challengeCounter, hkept.pending, hkept.authorizedKeys, hkept.trustedRearmKeys,
        hkept.revokedAuthorities, hkept.revokedExternalEffects⟩,
        .inr ⟨a, ⟨validate_eq_ok.mp hvalidate, hok⟩, congrArg Except.ok hphase, hphase, htrusted⟩⟩

end Controller

end EventHorizon.FailSafe.Emergency
