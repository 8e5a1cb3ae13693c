import EventHorizon.Broker.Issue
import EventHorizon.Canonical.Objects
import EventHorizon.FailSafe.Envelope
import EventHorizon.Library.Effects
import EventHorizon.Replay.Consumption

/-!
# The authenticated replay client

`AuthenticatedReplayClient` of `remote_replay.py`. The client has pinned an epoch and a key of the
replay service, and the last checkpoint that it has seen. Every request says so, and a response is
taken only when the pinned key has signed it for this request and its checkpoint continues the
pinned one.

The transport is a function from the request to what comes back, an answer or an exception. The
clock and the random identifier of a request are arguments.
-/

namespace EventHorizon.Replay

open Broker (Ed25519 spellSignature)
open FailSafe (PemKeys)

/-! ## Checks -/

/-- A `ReplayProtocolError`. -/
def violation (message : String) : Exn := ⟨.replayProtocolError, message⟩

/-- `_require_scope`. -/
def requireScope (value : PyValue) (label : String) : Except Exn String :=
  match textOf value with
  | some t => if isScope t = true then .ok t else .error (violation (label ++ " is invalid"))
  | none => .error (violation (label ++ " is invalid"))

/-- `_require_digest`. -/
def requireDigest (value : PyValue) (label : String) :
    Except Exn {t : String // isDigest t = true} :=
  match textOf value with
  | some t =>
    if h : isDigest t = true then .ok ⟨t, h⟩ else .error (violation (label ++ " is invalid"))
  | none => .error (violation (label ++ " is invalid"))

/-- `_require_integer`. -/
def requireInteger (value : PyValue) (label : String) (minimum : ℤ) :
    Except Exn {n : ℤ // minimum ≤ n} :=
  match value with
  | .int n => if h : minimum ≤ n then .ok ⟨n, h⟩ else .error (violation (label ++ " is invalid"))
  | _ => .error (violation (label ++ " is invalid"))

theorem requireScope_eq_ok {value : PyValue} {label t : String}
    (h : requireScope value label = .ok t) :
    value = .str (.ofString t) ∧ isScope t = true := by
  rw [requireScope] at h
  split at h
  case h_2 => cases h
  case h_1 t' ht =>
  split at h
  case isFalse => cases h
  case isTrue hscope =>
  cases h
  exact ⟨textOf_eq_some ht, hscope⟩

theorem requireDigest_eq_ok {value : PyValue} {label : String}
    {t : {t : String // isDigest t = true}}
    (h : requireDigest value label = .ok t) : value = .str (.ofString t) := by
  rw [requireDigest] at h
  split at h
  case h_2 => cases h
  case h_1 t' ht =>
  split at h
  case isFalse => cases h
  case isTrue hdigest =>
  cases h
  exact textOf_eq_some ht

theorem requireInteger_eq_ok {value : PyValue} {label : String} {minimum : ℤ}
    {n : {n : ℤ // minimum ≤ n}} :
    requireInteger value label minimum = .ok n ↔ value = .int n := by
  cases value with
  | int m =>
    rw [requireInteger]
    split
    case isTrue hle => rw [Except.ok.injEq, PyValue.int.injEq, Subtype.ext_iff]
    case isFalse hlt =>
      refine iff_of_false (fun h ↦ nomatch h) fun h ↦ hlt ?_
      rw [PyValue.int.inj h]
      exact n.2
  | _ => exact iff_of_false (fun h ↦ nomatch h) fun h ↦ nomatch h

/-! ## Checkpoints -/

/-- A checkpoint with its digest. -/
@[ext]
structure Pin where
  checkpoint : ℤ
  digest : String
  nonneg : 0 ≤ checkpoint
  isDigest_digest : isDigest digest = true
  deriving DecidableEq

/-- A pin is behind another one, or it is the same. -/
def Pin.le (p q : Pin) : Prop := p.checkpoint < q.checkpoint ∨ p = q

theorem Pin.le_refl (p : Pin) : p.le p := .inr rfl

theorem Pin.le_trans {p q r : Pin} (h : p.le q) (h' : q.le r) : p.le r := by
  obtain hlt | rfl := h
  · obtain hlt' | rfl := h'
    · exact .inl (hlt.trans hlt')
    · exact .inl hlt
  · exact h'

section Client

variable [Platform]

/-- `genesis_checkpoint_digest`. -/
def genesisCheckpointDigest (serviceId : PyValue) (epoch : PyValue) : Except Exn String := do
  let serviceId ← requireScope serviceId "service ID"
  let epoch ← requireInteger epoch "epoch" 1
  (PyValue.ofNamed [
    ("schema", .str (.ofString "event-horizon.replay-genesis.v1")),
    ("service_id", .str (.ofString serviceId)),
    ("epoch", .int epoch)]).digest

/-- The pin of an epoch that has no checkpoints yet. -/
def IsGenesis (serviceId : PyValue) (epoch : PyValue) (p : Pin) : Prop :=
  p.checkpoint = 0 ∧ genesisCheckpointDigest serviceId epoch = .ok p.digest

/-- `_normalize_checkpoint_state`. -/
def normalizeCheckpointState (serviceId epoch checkpoint checkpointDigest : PyValue)
    (label : String) : Except Exn Pin := do
  let normalized ← requireInteger checkpoint (label ++ " checkpoint") 0
  let expected ← genesisCheckpointDigest serviceId epoch
  if normalized.1 = 0 then
    if checkpointDigest.isNone = true then
      let expected ← requireDigest (.str (.ofString expected)) (label ++ " checkpoint digest")
      return ⟨0, expected, le_rfl, expected.2⟩
    let supplied ← requireDigest checkpointDigest (label ++ " checkpoint digest")
    raiseIf (supplied.1 ≠ expected)
      (violation (label ++ " checkpoint zero must use the epoch genesis digest"))
    return ⟨0, supplied, le_rfl, supplied.2⟩
  raiseIf (checkpointDigest.isNone = true)
    (violation (label ++ " restored checkpoint requires an explicit digest"))
  let supplied ← requireDigest checkpointDigest (label ++ " checkpoint digest")
  return ⟨normalized, supplied, normalized.2, supplied.2⟩

variable [Ed25519]

/-- `replay_key_id`: the key in its `SubjectPublicKeyInfo`, hashed. -/
def replayKeyId (key : Ed25519.PublicKey) : String :=
  "ed25519:" ++ String.ofList ((Platform.sha256
    ([0x30, 0x2a, 0x30, 0x05, 0x06, 0x03, 0x2b, 0x65, 0x70, 0x03, 0x21, 0x00] ++
      Ed25519.publicBytes key)).toList.take 32)

/-- `_load_public_key`, of a value that is no key. -/
def loadPublicKey [PemKeys] (value : PyValue) : Except Exn Ed25519.PublicKey :=
  match value with
  | .str s =>
    match s.text? with
    | some pem =>
      if isAscii pem = true then
        match PemKeys.load pem with
        | .ok (some key) => .ok key
        | .ok none => .error ⟨.valueError, "replay verification key must be Ed25519"⟩
        | .error e =>
          if e.cls.isTypeOrValueError = true then
            .error ⟨.valueError, "replay verification key is malformed"⟩
          else .error e
      else .error ⟨.valueError, "replay verification key is malformed"⟩
    | none => .error ⟨.valueError, "replay verification key is malformed"⟩
  | _ => .error ⟨.valueError, "replay verification key must be Ed25519"⟩

/-! ## The client -/

/-- The client; its signer is made of the service and the signing key. -/
structure AuthenticatedReplayClient where
  serviceId : String
  signingKey : Ed25519.PrivateKey
  lifetimeMs : ℤ
  serverPublicKey : Ed25519.PublicKey
  epoch : ℤ
  pin : Pin

namespace AuthenticatedReplayClient

variable (c : AuthenticatedReplayClient)

/-- `_OPERATIONS`. -/
def operations : List String := ["authorization-consume", "capability-consume", "nonce-consume",
  "nonce-create", "nonce-inspect", "raft-vote", "raft-append"]

/-- What comes into a request from outside: the arguments of a call, the clock and the random octets
of its identifier. -/
structure Call where
  operation : PyValue
  partition : PyValue
  payload : PyValue
  nowMs : ℤ
  token : List ℕ

def unsignedRequest (a : Call) : List (String × PyValue) := [
  ("schema", .str (.ofString "event-horizon.replay-request.v1")),
  ("algorithm", .str (.ofString "Ed25519")),
  ("service_id", .str (.ofString c.serviceId)),
  ("client_key_id", .str (.ofString (replayKeyId (Ed25519.publicKey c.signingKey)))),
  ("request_id", .str (.ofString (spellSignature a.token))),
  ("issued_at", .int a.nowMs),
  ("expires_at", .int (a.nowMs + c.lifetimeMs)),
  ("expected_epoch", .int c.epoch),
  ("minimum_checkpoint", .int c.pin.checkpoint),
  ("minimum_checkpoint_digest", .str (.ofString c.pin.digest)),
  ("operation", a.operation),
  ("partition", a.partition),
  ("payload", a.payload)]

/-- `ReplayRequestSigner.sign`, for the epoch and the checkpoint of the client. -/
def sign (a : Call) : Except Exn (List (String × PyValue)) := do
  raiseIf (a.operation.hashable = false) ⟨.typeError, "unhashable type"⟩
  raiseIf (∀ t ∈ operations, a.operation.isText (.ofString t) = false)
    (violation "replay operation is unsupported")
  let _ ← requireScope a.partition "replay partition"
  let _ ← requireInteger (.int c.epoch) "expected epoch" 1
  let _ ← requireInteger (.int c.pin.checkpoint) "minimum checkpoint" 0
  let _ ← requireDigest (.str (.ofString c.pin.digest)) "minimum checkpoint digest"
  raiseIf (a.payload.isDict = false) (violation "replay payload must be an object")
  let data ← (PyValue.ofNamed (c.unsignedRequest a)).canonicalBytes
  return c.unsignedRequest a ++
    [("signature", .str (.ofString (spellSignature (Ed25519.sign c.signingKey data))))]

/-- `_RESPONSE_FIELDS`. -/
def responseFields : List String := ["accepted", "algorithm", "checkpoint", "checkpoint_digest",
  "epoch", "request_digest", "request_id", "responded_at", "result", "schema", "server_key_id",
  "service_id", "signature", "status"]

/-- The items of a response without its signature. -/
def unsignedItems (items : List (PyKey × PyValue)) : List (PyKey × PyValue) :=
  items.filter fun f ↦ f.1 ≠ .str (.ofString "signature")

/-- The exceptions of `canonical_bytes` that are a `ValueError`. -/
def isValueError : ExnClass → Bool
  | .valueError | .canonicalizationError | .unicodeEncodeError => true
  | _ => false

/-- The end of `_verify_response`: the signature is one of the other items, under the key of the
server. -/
def verifySignature (items : List (PyKey × PyValue)) : Except Exn Unit :=
  let malformed := violation "replay response signature is malformed"
  let invalid := violation "replay response signature is invalid"
  match textOf (PyValue.item items "signature") with
  | none => .error malformed
  | some t => do
    raiseIf (isSignature t = false) malformed
    match Base64.decode base64UrlAlphabet t.toList with
    | none => throw (violation "base64url value is malformed")
    | some raw => do
      raiseIf (spellSignature raw ≠ t) (violation "base64url value is not canonical")
      match (PyValue.dict (unsignedItems items)).canonicalBytes with
      | .ok data => raiseIf (Ed25519.verify c.serverPublicKey raw data = false) invalid
      | .error e => throw (if isValueError e.cls = true then invalid else e)

/-- `value == request["request_id"]`. -/
def answers (request : List (String × PyValue)) (value : PyValue) : Bool :=
  match request.lookup "request_id" with
  | some (.str id) => value.isText id
  | _ => false

/-- A response that was verified, with its checkpoint. -/
structure Verified where
  items : List (PyKey × PyValue)
  pin : Pin

/-- `_verify_response`. -/
def verifyResponse (request : List (String × PyValue)) (response : PyValue) :
    Except Exn Verified :=
  match response with
  | .dict items => do
    let value := PyValue.item items
    let unbound := violation "replay response is not bound to the exact request"
    raiseIf (PyValue.hasExactKeys items responseFields = false)
      (violation "replay response fields are invalid")
    raiseIf ((value "schema").isText (.ofString "event-horizon.replay-response.v1") = false ∨
        (value "algorithm").isText (.ofString "Ed25519") = false)
      (violation "replay response schema or algorithm is invalid")
    raiseIf ((value "service_id").isText (.ofString c.serviceId) = false)
      (violation "replay response service ID is invalid")
    raiseIf ((value "server_key_id").isText (.ofString (replayKeyId c.serverPublicKey)) = false)
      (violation "replay response server key is not pinned")
    raiseIf (answers request (value "request_id") = false) unbound
    let digest ← (PyValue.ofNamed request).digest
    raiseIf ((value "request_digest").isText (.ofString digest) = false) unbound
    raiseIf ((value "epoch").isInt c.epoch = false)
      (violation "replay response came from an unpinned or stale epoch")
    let checkpoint ← requireInteger (value "checkpoint") "response checkpoint" 0
    let checkpointDigest ← requireDigest (value "checkpoint_digest") "response checkpoint digest"
    raiseIf (checkpoint.1 < c.pin.checkpoint) (violation "replay service checkpoint regressed")
    raiseIf (checkpoint.1 = c.pin.checkpoint ∧ checkpointDigest.1 ≠ c.pin.digest)
      (violation "replay service checkpoint forked known history")
    match value "accepted", value "status" with
    | .bool _, .str _ => do
      raiseIf ((value "result").isDict = false) (violation "replay response result is malformed")
      let _ ← requireInteger (value "responded_at") "response time" 0
      c.verifySignature items
      return ⟨items, checkpoint, checkpointDigest, checkpoint.2, checkpointDigest.2⟩
    | _, _ => throw (violation "replay response decision is malformed")
  | _ => .error (violation "replay response fields are invalid")

/-- The transport: a response, or an exception. -/
abbrev Transport := List (String × PyValue) → Except Exn PyValue

/-- A request that is signed and answered, and its answer verified. -/
def exchange (a : Call) (transport : Transport) : Except Exn Verified := do
  let request ← c.sign a
  match transport request with
  | .ok response => c.verifyResponse request response
  | .error e =>
    throw (if e.cls = .replayProtocolError then e
      else ⟨.replayUnavailableError, "replay service request failed closed"⟩)

/-- The pin after a response. -/
def advance (v : Verified) : AuthenticatedReplayClient :=
  if c.pin.checkpoint < v.pin.checkpoint then { c with pin := v.pin } else c

/-- `call`. -/
def call (a : Call) (transport : Transport) : Except Exn Verified × AuthenticatedReplayClient :=
  andThen (c.exchange a transport, c) fun v c ↦
    if (PyValue.item v.items "status").isText (.ofString "checkpoint-mismatch") = true then
      (.error (violation "replay service cannot prove checkpoint continuity"), c)
    else (.ok v, c.advance v)

/-! ## What is verified -/

/-- A response of a service, an epoch and a key: the key has signed it, with the checkpoint. -/
structure Attests (serviceId : String) (epoch : ℤ) (key : Ed25519.PublicKey) (v : Verified) :
    Prop where
  service : PyValue.item v.items "service_id" = .str (.ofString serviceId)
  epoch : (PyValue.item v.items "epoch").isInt epoch = true
  keyId : PyValue.item v.items "server_key_id" = .str (.ofString (replayKeyId key))
  checkpoint : PyValue.item v.items "checkpoint" = .int v.pin.checkpoint
  digest : PyValue.item v.items "checkpoint_digest" = .str (.ofString v.pin.digest)
  signed : ∃ text raw data, PyValue.item v.items "signature" = .str (.ofString text) ∧
    Base64.decode base64UrlAlphabet text.toList = some raw ∧
    (PyValue.dict (unsignedItems v.items)).canonicalBytes = .ok data ∧
    Ed25519.verify key raw data = true

variable {c} {a : Call} {transport : Transport} {v : Verified}

theorem verifySignature_eq_ok {items : List (PyKey × PyValue)} {u : Unit}
    (h : c.verifySignature items = .ok u) :
    ∃ text raw data, PyValue.item items "signature" = .str (.ofString text) ∧
      Base64.decode base64UrlAlphabet text.toList = some raw ∧
      (PyValue.dict (unsignedItems items)).canonicalBytes = .ok data ∧
      Ed25519.verify c.serverPublicKey raw data = true := by
  rw [verifySignature] at h
  split at h
  case h_1 => cases h
  case h_2 text htext =>
  obtain ⟨-, h⟩ := raiseIf_bind_eq_ok.mp h
  split at h
  case h_1 => cases h
  case h_2 raw hraw =>
  obtain ⟨-, h⟩ := raiseIf_bind_eq_ok.mp h
  split at h
  case h_2 => cases h
  case h_1 data hdata =>
  rw [raiseIf_eq_ok, Bool.not_eq_false] at h
  exact ⟨text, raw, data, textOf_eq_some htext, hraw, hdata, h⟩

/-- A response that is verified is attested, and its checkpoint continues the pinned one. -/
theorem verifyResponse_eq_ok {request : List (String × PyValue)} {response : PyValue}
    (h : c.verifyResponse request response = .ok v) :
    Attests c.serviceId c.epoch c.serverPublicKey v ∧ c.pin.le v.pin := by
  cases response with
  | dict items =>
    rw [verifyResponse] at h
    obtain ⟨-, h⟩ := raiseIf_bind_eq_ok.mp h
    obtain ⟨-, h⟩ := raiseIf_bind_eq_ok.mp h
    obtain ⟨hservice, h⟩ := raiseIf_bind_eq_ok.mp h
    obtain ⟨hkey, h⟩ := raiseIf_bind_eq_ok.mp h
    obtain ⟨-, h⟩ := raiseIf_bind_eq_ok.mp h
    obtain ⟨digest, -, h⟩ := bind_eq_ok.mp h
    obtain ⟨-, h⟩ := raiseIf_bind_eq_ok.mp h
    obtain ⟨hepoch, h⟩ := raiseIf_bind_eq_ok.mp h
    obtain ⟨checkpoint, hcheckpoint, h⟩ := bind_eq_ok.mp h
    obtain ⟨checkpointDigest, hdigest, h⟩ := bind_eq_ok.mp h
    obtain ⟨hle, h⟩ := raiseIf_bind_eq_ok.mp h
    obtain ⟨hfork, h⟩ := raiseIf_bind_eq_ok.mp h
    split at h
    case h_2 => cases h
    case h_1 =>
    obtain ⟨-, h⟩ := raiseIf_bind_eq_ok.mp h
    obtain ⟨-, -, h⟩ := bind_eq_ok.mp h
    obtain ⟨_, hsigned, h⟩ := bind_eq_ok.mp h
    cases h
    rw [Bool.not_eq_false] at hepoch
    rw [Bool.not_eq_false, PyValue.isText_iff] at hservice hkey
    refine ⟨⟨hservice, hepoch, hkey, requireInteger_eq_ok.mp hcheckpoint,
      requireDigest_eq_ok hdigest, verifySignature_eq_ok hsigned⟩, ?_⟩
    obtain hlt | heq := lt_or_eq_of_le (not_lt.mp hle)
    · exact .inl hlt
    · refine .inr (Pin.ext heq ?_)
      by_contra hne
      exact hfork ⟨heq.symm, fun hdigest ↦ hne hdigest.symm⟩
  | _ => cases h

omit [Platform] in
theorem advance_pin (h : c.pin.le v.pin) : c.advance v = { c with pin := v.pin } := by
  rw [advance]
  split
  · rfl
  case isFalse hlt =>
  obtain hlt' | heq := h
  · exact absurd hlt' hlt
  · rw [← heq]

/-- A call raises and changes nothing, or takes the pin of a response that it has verified. -/
theorem call_cases (c : AuthenticatedReplayClient) (a : Call) (transport : Transport) :
    (∃ e, c.call a transport = (.error e, c)) ∨
      ∃ v, c.exchange a transport = .ok v ∧ Attests c.serviceId c.epoch c.serverPublicKey v ∧
        c.pin.le v.pin ∧ c.call a transport = (.ok v, { c with pin := v.pin }) := by
  rw [call]
  cases hexchange : c.exchange a transport with
  | error e => exact .inl ⟨e, rfl⟩
  | ok v =>
    rw [andThen_ok]
    split
    · exact .inl ⟨_, rfl⟩
    · obtain ⟨request, -, h⟩ := bind_eq_ok.mp hexchange
      split at h
      case h_2 => cases h
      case h_1 response _ =>
      obtain ⟨hattests, hle⟩ := verifyResponse_eq_ok h
      exact .inr ⟨v, rfl, hattests, hle, by rw [advance_pin hle]⟩

end AuthenticatedReplayClient

end Client

end EventHorizon.Replay
