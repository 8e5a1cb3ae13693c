import EventHorizon.FailSafe.Envelope
import EventHorizon.Library.Transducer

/-!
# The hardware fail-safe switch

`HardwareFailSafeSimulator` of `hardware_failsafe.py`: a switch that is tripped at the start, is
armed by a signed re-arm message with an explicit trusted input, and is kept armed by signed
heartbeats. Every message answers the outstanding challenge, which is used up by it. A message that
fails a check trips the switch, wherever the check stands.

Where the kill circuit behind the switch is triggered, what the backend does has no effect on the
state; neither has the text of the reason, which nothing reads. Both are left out.
-/

namespace EventHorizon.FailSafe.Hardware

open Broker (Ed25519 capabilityKeyId)

/-! ## Messages -/

/-- The protocol of `hardware_failsafe.py`. -/
def protocol : Protocol where
  cls := .hardwareFailSafeError
  challengeLabel := "heartbeat challenge"
  messageLabel := "heartbeat"
  claimFields := [
    "schema", "device_id", "challenge_id", "challenge_nonce", "sequence", "issued_at_ms",
    "expires_at_ms", "policy_version", "evidence_chain_digest", "action",
    "action_payload", "key_id"]

/-- `HardwareFailSafeError`. -/
def refuse (message : String) : Exn := protocol.refuse message

/-- `ACTIONS`. -/
inductive Action
  | heartbeat
  | kill
  | rearm
  | rotateKey
  deriving DecidableEq, Repr

/-- The text of an action in the claims. -/
def Action.text : Action → String
  | .heartbeat => "heartbeat"
  | .kill => "kill"
  | .rearm => "rearm"
  | .rotateKey => "rotate-key"

def actions : List Action := [.heartbeat, .kill, .rearm, .rotateKey]

theorem Action.text_injective : Function.Injective Action.text := by
  intro a b h
  cases a <;> cases b <;> first | rfl | exact absurd h (by decide)

/-- `claims["action"] in ACTIONS`: an object without a hash cannot be looked up. -/
def actionOf : PyValue → Except Exn Action
  | .str s =>
    match actions.find? fun a ↦ PyStr.ofString a.text = s with
    | some a => .ok a
    | none => .error (refuse "heartbeat action is malformed")
  | .list _ | .dict _ => .error ⟨.typeError, "unhashable type"⟩
  | _ => .error (refuse "heartbeat action is malformed")

theorem actionOf_eq_ok {v : PyValue} {a : Action} :
    actionOf v = .ok a ↔ v = .str (.ofString a.text) := by
  constructor
  · intro h
    unfold actionOf at h
    split at h
    · split at h
      case h_1 b hb =>
        cases h
        have htext := List.find?_some hb
        rw [decide_eq_true_eq] at htext
        rw [htext]
      case h_2 => cases h
    all_goals cases h
  · rintro rfl
    have hfind :
        actions.find? (fun b ↦ PyStr.ofString b.text = PyStr.ofString a.text) = some a := by
      cases a <;> decide
    rw [actionOf, hfind]

/-- A claim whose type is `int`. -/
def counter (v : PyValue) : Except Exn ℤ :=
  match v with
  | .int n => .ok n
  | _ => .error (refuse "heartbeat counters are malformed")

theorem counter_eq_ok {v : PyValue} {n : ℤ} : counter v = .ok n ↔ v = .int n := by
  unfold counter
  split
  · rw [Except.ok.injEq, PyValue.int.injEq]
  case h_2 hne => exact iff_of_false (fun h ↦ nomatch h) fun h ↦ hne n h

/-- `isinstance(claims["action_payload"], Mapping)`. -/
def mapping : PyValue → Except Exn (List (PyKey × PyValue))
  | .dict items => .ok items
  | _ => .error (refuse "heartbeat action is malformed")

theorem mapping_eq_ok {v : PyValue} {items : List (PyKey × PyValue)} :
    mapping v = .ok items ↔ v = .dict items := by
  unfold mapping
  split
  · rw [Except.ok.injEq, PyValue.dict.injEq]
  case h_2 hne => exact iff_of_false (fun h ↦ nomatch h) fun h ↦ hne items h

/-- A claim that is read and checked. -/
theorem read_claim_eq_ok {α β : Type} {items : List (PyKey × PyValue)} {key : String}
    {g : PyValue → Except Exn α} {v : α → PyValue}
    (hg : ∀ {x : PyValue} {a : α}, g x = .ok a ↔ x = v a) {f : α → Except Exn β} {b : β} :
    ((PyValue.read items key >>= g) >>= f) = .ok b ↔
      ∃ a, PyValue.at? items key = some (v a) ∧ f a = .ok b := by
  rw [PyValue.read_claim_eq_ok]
  constructor
  · rintro ⟨x, a, hx, h, hf⟩
    exact ⟨a, hg.mp h ▸ hx, hf⟩
  · rintro ⟨a, hx, hf⟩
    exact ⟨v a, a, hx, hg.mpr rfl, hf⟩

/-! ## The switch -/

/-- What the switch is enrolled with, as its constructor has checked it. -/
structure Config where
  deviceId : PyStr
  expectedPolicyVersion : PyStr
  expectedEvidenceDigest : String
  heartbeatTimeoutMs : ℤ
  deviceId_ne : deviceId ≠ []
  policyVersion_ne : expectedPolicyVersion ≠ []
  isDigest_evidence : isDigest expectedEvidenceDigest = true
  timeout_ge : 100 ≤ heartbeatTimeoutMs
  timeout_le : heartbeatTimeoutMs ≤ 60000

inductive Phase
  | tripped
  | armed
  deriving DecidableEq, Repr

section Simulator

variable [Platform] [Ed25519]

/-- The attributes of the simulator that change. -/
structure Simulator where
  phase : Phase
  lastSequence : ℤ
  lastValidHeartbeatMs : Option ℤ
  challengeCounter : ℕ
  pending : Option Challenge
  publicKey : Ed25519.PublicKey
  activeKeyId : String

/-- A switch that has been enrolled with a key: a restart always begins tripped. -/
def Simulator.enrolled (key : Ed25519.PublicKey) : Simulator :=
  ⟨.tripped, 0, none, 0, none, key, capabilityKeyId key⟩

/-- `_trip`. -/
def Simulator.trip (s : Simulator) : Simulator := { s with phase := .tripped }

omit [Platform] in
@[simp] theorem Simulator.trip_phase (s : Simulator) : s.trip.phase = .tripped := rfl
omit [Platform] in
@[simp] theorem Simulator.trip_lastSequence
    (s : Simulator) : s.trip.lastSequence = s.lastSequence := rfl
omit [Platform] in
@[simp] theorem Simulator.trip_publicKey (s : Simulator) : s.trip.publicKey = s.publicKey := rfl
omit [Platform] in
@[simp] theorem Simulator.trip_activeKeyId
    (s : Simulator) : s.trip.activeKeyId = s.activeKeyId := rfl

/-- The claims that were checked. -/
structure Beat where
  envelope : Envelope
  sequence : ℤ
  action : Action
  payload : List (PyKey × PyValue)

variable (cfg : Config)

/-- The checks of `receive`, in their order. -/
def validate (s : Simulator) (message : Message) (nowMs : ℤ) : Except Exn Beat := do
  let parsed ← protocol.parse message
  let claims := parsed.claims
  match s.pending with
  | none => throw (refuse "no outstanding heartbeat challenge")
  | some challenge => do
    PyValue.requireText claims "schema" (.ofString "event-horizon.hardware-failsafe.v1")
      (refuse "heartbeat device or schema mismatch")
    PyValue.requireText claims "device_id" cfg.deviceId
      (refuse "heartbeat device or schema mismatch")
    PyValue.requireText claims "key_id" (.ofString s.activeKeyId)
      (refuse "heartbeat key identity mismatch")
    raiseIf (isKeyId s.activeKeyId = false) (refuse "heartbeat key identity mismatch")
    let challengeId ← PyValue.read claims "challenge_id"
    raiseIf (challengeId.isInt challenge.challengeId = false)
      (refuse "heartbeat challenge mismatch")
    PyValue.requireText claims "challenge_nonce" challenge.nonce
      (refuse "heartbeat challenge mismatch")
    raiseIf (challenge.expiresAtMs ≤ nowMs) (refuse "heartbeat challenge expired")
    let sequence ← (PyValue.read claims "sequence" >>= counter)
    let issuedAtMs ← (PyValue.read claims "issued_at_ms" >>= counter)
    let expiresAtMs ← (PyValue.read claims "expires_at_ms" >>= counter)
    raiseIf (sequence ≤ s.lastSequence) (refuse "heartbeat sequence is stale or replayed")
    raiseIf (nowMs < issuedAtMs - 1000 ∨ expiresAtMs ≤ nowMs)
      (refuse "heartbeat freshness check failed")
    PyValue.requireText claims "policy_version" cfg.expectedPolicyVersion
      (refuse "heartbeat policy mismatch")
    PyValue.requireText claims "evidence_chain_digest" (.ofString cfg.expectedEvidenceDigest)
      (refuse "heartbeat evidence digest mismatch")
    let action ← (PyValue.read claims "action" >>= actionOf)
    let payload ← (PyValue.read claims "action_payload" >>= mapping)
    raiseIf (parsed.verified s.publicKey = false) (refuse "heartbeat signature is invalid")
    return ⟨parsed, sequence, action, payload⟩

variable [PemKeys]

/-- `load_pem_public_key` on a claim, with the exceptions that `_rotate` turns into its own. -/
def loadKey (pem : PyValue) : Except Exn Ed25519.PublicKey := do
  let text ← match pem with
    | .str s =>
      match s.text? with
      | some t =>
        if isAscii t = true then pure t else throw (refuse "rotated public key is invalid")
      | none => throw (refuse "rotated public key is invalid")
    | _ => throw (refuse "rotated public key is invalid")
  let loaded ← match PemKeys.load text with
    | .ok key => pure key
    | .error e =>
      throw (if e.cls.isTypeOrValueError then refuse "rotated public key is invalid" else e)
  match loaded with
  | some key => return key
  | none => throw (refuse "rotated public key identity mismatch")

/-- `_rotate`. -/
def rotate (s : Simulator) (payload : List (PyKey × PyValue)) : Except Exn Simulator := do
  raiseIf (PyValue.hasExactKeys payload ["new_key_id", "new_public_key_pem"] = false)
    (refuse "key rotation payload is malformed")
  let pem ← PyValue.read payload "new_public_key_pem"
  let key ← loadKey pem
  let newKeyId ← PyValue.read payload "new_key_id"
  raiseIf (newKeyId.isText (.ofString (capabilityKeyId key)) = false)
    (refuse "rotated public key identity mismatch")
  return { s with publicKey := key, activeKeyId := capabilityKeyId key }

/-- What `receive` does with claims that passed the checks. -/
def perform (s : Simulator) (b : Beat) (nowMs : ℤ) (trustedRearm : Bool) : Except Exn Simulator :=
  match b.action with
  | .kill => .ok s.trip
  | .rearm => do
    raiseIf (trustedRearm = false) (refuse "re-arm requires an explicit trusted procedure")
    return { s with phase := .armed, lastValidHeartbeatMs := some nowMs }
  | .rotateKey => rotate s b.payload
  | .heartbeat => .ok
      (if s.phase = .armed then { s with lastValidHeartbeatMs := some nowMs } else s)

/-- The exception that `receive` raises for one that was raised inside. -/
def failClosed (e : Exn) : Exn :=
  if e.cls = .hardwareFailSafeError then e else refuse "heartbeat validation failed closed"

/-- `receive`: the answer, and the switch after it. -/
def receive (s : Simulator) (message : Message) (nowMs : ℤ) (trustedRearm : Bool) :
    Except Exn Phase × Simulator :=
  match validate cfg s message nowMs with
  | .error e => (.error (failClosed e), { s with pending := none }.trip)
  | .ok b =>
    let s₁ := { s with pending := none, lastSequence := b.sequence }
    match perform s₁ b nowMs trustedRearm with
    | .error e => (.error (failClosed e), s₁.trip)
    | .ok s₂ => (.ok s₂.phase, s₂)

/-- `issue_challenge`, with what the nonce factory returns. -/
def issueChallenge (s : Simulator) (nonce : PyStr) (nowMs lifetimeMs : ℤ) :
    Except Exn Challenge × Simulator :=
  let s₁ := { s with challengeCounter := s.challengeCounter + 1 }
  match protocol.challenge cfg.deviceId s₁.challengeCounter nonce nowMs lifetimeMs with
  | .error e => (.error e, s₁)
  | .ok c => (.ok c, { s₁ with pending := some c })

/-- The timeout of an armed switch has run out. -/
def Overdue (s : Simulator) (nowMs : ℤ) : Prop :=
  s.phase = .armed ∧ ∀ t, s.lastValidHeartbeatMs = some t → cfg.heartbeatTimeoutMs ≤ nowMs - t

instance (s : Simulator) (nowMs : ℤ) : Decidable (Overdue cfg s nowMs) :=
  match h : s.lastValidHeartbeatMs with
  | none => decidable_of_iff (s.phase = .armed) (by simp [Overdue, h])
  | some t => decidable_of_iff (s.phase = .armed ∧ cfg.heartbeatTimeoutMs ≤ nowMs - t)
      (by simp [Overdue, h])

/-- `tick`. -/
def tick (s : Simulator) (nowMs : ℤ) : Phase × Simulator :=
  if Overdue cfg s nowMs then (.tripped, s.trip) else (s.phase, s)

/-- A call on the simulator. -/
inductive Call
  | issueChallenge (nonce : PyStr) (nowMs lifetimeMs : ℤ)
  | receive (message : Message) (nowMs : ℤ) (trustedRearm : Bool)
  | tick (nowMs : ℤ)

/-- What a call returns or raises. -/
inductive Answer
  | challenge (r : Except Exn Challenge)
  | phase (r : Except Exn Phase)

/-- One call. -/
def step (s : Simulator) : Call → Answer × Simulator
  | .issueChallenge nonce nowMs lifetimeMs =>
    let r := issueChallenge cfg s nonce nowMs lifetimeMs
    (.challenge r.1, r.2)
  | .receive message nowMs trustedRearm =>
    let r := receive cfg s message nowMs trustedRearm
    (.phase r.1, r.2)
  | .tick nowMs =>
    let r := tick cfg s nowMs
    (.phase (.ok r.1), r.2)

/-- The simulator after a list of calls. -/
def after (s : Simulator) (calls : List Call) : Simulator := Transducer.after (step cfg) s calls

theorem after_concat (s : Simulator) (calls : List Call) (c : Call) :
    after cfg s (calls ++ [c]) = (step cfg (after cfg s calls) c).2 := Transducer.after_concat

/-! ## What the checks establish -/

variable {cfg} {s : Simulator} {message : Message} {nowMs : ℤ} {trustedRearm : Bool} {b : Beat}

/-- The envelope answers the outstanding challenge in time and is signed by the active key. -/
structure Answers (s : Simulator) (nowMs : ℤ) (e : Envelope) : Prop where
  challenge : ∃ c, s.pending = some c ∧ nowMs < c.expiresAtMs ∧
    (∃ v, PyValue.at? e.claims "challenge_id" = some v ∧ v.isInt c.challengeId = true) ∧
    PyValue.at? e.claims "challenge_nonce" = some (.str c.nonce)
  keyId : PyValue.at? e.claims "key_id" = some (.str (.ofString s.activeKeyId))
  signed : e.verified s.publicKey = true

/-- What `receive` knows of claims that passed its checks. -/
structure Validated (cfg : Config) (s : Simulator) (message : Message) (nowMs : ℤ) (b : Beat) :
    Prop where
  parsed : protocol.parse message = .ok b.envelope
  answers : Answers s nowMs b.envelope
  schema : PyValue.at? b.envelope.claims "schema" =
    some (.str (.ofString "event-horizon.hardware-failsafe.v1"))
  deviceId : PyValue.at? b.envelope.claims "device_id" = some (.str cfg.deviceId)
  isKeyId : isKeyId s.activeKeyId = true
  sequence : PyValue.at? b.envelope.claims "sequence" = some (.int b.sequence)
  fresh : s.lastSequence < b.sequence
  lifetime : ∃ issuedAtMs expiresAtMs,
    PyValue.at? b.envelope.claims "issued_at_ms" = some (.int issuedAtMs) ∧
    PyValue.at? b.envelope.claims "expires_at_ms" = some (.int expiresAtMs) ∧
    issuedAtMs - 1000 ≤ nowMs ∧ nowMs < expiresAtMs
  policyVersion : PyValue.at? b.envelope.claims "policy_version" =
    some (.str cfg.expectedPolicyVersion)
  evidence : PyValue.at? b.envelope.claims "evidence_chain_digest" =
    some (.str (.ofString cfg.expectedEvidenceDigest))
  action : PyValue.at? b.envelope.claims "action" = some (.str (.ofString b.action.text))
  payload : PyValue.at? b.envelope.claims "action_payload" = some (.dict b.payload)

omit [PemKeys] in
theorem validate_eq_ok : validate cfg s message nowMs = .ok b ↔
    Validated cfg s message nowMs b := by
  constructor
  · intro h
    obtain ⟨e, hparsed, h⟩ := bind_eq_ok.mp h
    cases hpending : s.pending with
    | none =>
      rw [hpending] at h
      cases h
    | some c =>
      rw [hpending] at h
      obtain ⟨hschema, h⟩ := PyValue.requireText_bind_eq_ok.mp h
      obtain ⟨hdevice, h⟩ := PyValue.requireText_bind_eq_ok.mp h
      obtain ⟨hkey, h⟩ := PyValue.requireText_bind_eq_ok.mp h
      obtain ⟨hkeyId, h⟩ := raiseIf_bind_eq_ok.mp h
      obtain ⟨id, hid, h⟩ := PyValue.read_bind_eq_ok.mp h
      obtain ⟨hidInt, h⟩ := raiseIf_bind_eq_ok.mp h
      obtain ⟨hnonce, h⟩ := PyValue.requireText_bind_eq_ok.mp h
      obtain ⟨hexpired, h⟩ := raiseIf_bind_eq_ok.mp h
      obtain ⟨sequence, hsequence, h⟩ := (read_claim_eq_ok counter_eq_ok).mp h
      obtain ⟨issued, hissued, h⟩ := (read_claim_eq_ok counter_eq_ok).mp h
      obtain ⟨expires, hexpires, h⟩ := (read_claim_eq_ok counter_eq_ok).mp h
      obtain ⟨hfresh, h⟩ := raiseIf_bind_eq_ok.mp h
      obtain ⟨hlifetime, h⟩ := raiseIf_bind_eq_ok.mp h
      obtain ⟨hpolicy, h⟩ := PyValue.requireText_bind_eq_ok.mp h
      obtain ⟨hevidence, h⟩ := PyValue.requireText_bind_eq_ok.mp h
      obtain ⟨action, haction, h⟩ := (read_claim_eq_ok actionOf_eq_ok).mp h
      obtain ⟨payload, hpayload, h⟩ := (read_claim_eq_ok mapping_eq_ok).mp h
      obtain ⟨hverified, h⟩ := raiseIf_bind_eq_ok.mp h
      cases h
      rw [not_or, not_lt, not_le] at hlifetime
      exact ⟨hparsed, ⟨⟨c, hpending, not_le.mp hexpired, ⟨id, hid, Bool.not_eq_false _ ▸ hidInt⟩,
        hnonce⟩, hkey, Bool.not_eq_false _ ▸ hverified⟩, hschema, hdevice,
        Bool.not_eq_false _ ▸ hkeyId, hsequence, not_le.mp hfresh,
        ⟨issued, expires, hissued, hexpires, hlifetime⟩, hpolicy, hevidence, haction, hpayload⟩
  · rintro ⟨hparsed, ⟨⟨c, hpending, hexpired, ⟨id, hid, hidInt⟩, hnonce⟩, hkey, hverified⟩, hschema,
      hdevice, hkeyId, hsequence, hfresh, ⟨issued, expires, hissued, hexpires, hlifetime⟩, hpolicy,
      hevidence, haction, hpayload⟩
    refine bind_eq_ok.mpr ⟨_, hparsed, ?_⟩
    rw [hpending]
    refine PyValue.requireText_bind_eq_ok.mpr ⟨hschema, ?_⟩
    refine PyValue.requireText_bind_eq_ok.mpr ⟨hdevice, ?_⟩
    refine PyValue.requireText_bind_eq_ok.mpr ⟨hkey, ?_⟩
    refine raiseIf_bind_eq_ok.mpr ⟨by rw [hkeyId]; exact Bool.noConfusion, ?_⟩
    refine PyValue.read_bind_eq_ok.mpr ⟨id, hid, ?_⟩
    refine raiseIf_bind_eq_ok.mpr ⟨by rw [hidInt]; exact Bool.noConfusion, ?_⟩
    refine PyValue.requireText_bind_eq_ok.mpr ⟨hnonce, ?_⟩
    refine raiseIf_bind_eq_ok.mpr ⟨not_le.mpr hexpired, ?_⟩
    refine (read_claim_eq_ok counter_eq_ok).mpr ⟨_, hsequence, ?_⟩
    refine (read_claim_eq_ok counter_eq_ok).mpr ⟨_, hissued, ?_⟩
    refine (read_claim_eq_ok counter_eq_ok).mpr ⟨_, hexpires, ?_⟩
    refine raiseIf_bind_eq_ok.mpr ⟨not_le.mpr hfresh, ?_⟩
    refine raiseIf_bind_eq_ok.mpr ⟨not_or.mpr ⟨not_lt.mpr hlifetime.1, not_le.mpr hlifetime.2⟩, ?_⟩
    refine PyValue.requireText_bind_eq_ok.mpr ⟨hpolicy, ?_⟩
    refine PyValue.requireText_bind_eq_ok.mpr ⟨hevidence, ?_⟩
    refine (read_claim_eq_ok actionOf_eq_ok).mpr ⟨_, haction, ?_⟩
    refine (read_claim_eq_ok mapping_eq_ok).mpr ⟨_, hpayload, ?_⟩
    exact raiseIf_bind_eq_ok.mpr ⟨by rw [hverified]; exact Bool.noConfusion, rfl⟩

/-! ## What one call can do -/

variable {s' : Simulator}

theorem exists_key_of_rotate {payload : List (PyKey × PyValue)} (h : rotate s payload = .ok s') :
    ∃ key, s' = { s with publicKey := key, activeKeyId := capabilityKeyId key } := by
  obtain ⟨-, h⟩ := raiseIf_bind_eq_ok.mp h
  obtain ⟨pem, -, h⟩ := PyValue.read_bind_eq_ok.mp h
  obtain ⟨key, -, h⟩ := bind_eq_ok.mp h
  obtain ⟨id, -, h⟩ := PyValue.read_bind_eq_ok.mp h
  obtain ⟨-, h⟩ := raiseIf_bind_eq_ok.mp h
  exact ⟨key, (Except.ok.inj h).symm⟩

/-- What happens to claims that passed the checks. -/
theorem perform_eq_ok : perform s b nowMs trustedRearm = .ok s' ↔
    b.action = .kill ∧ s' = s.trip ∨
    b.action = .rearm ∧ trustedRearm = true ∧
      s' = { s with phase := .armed, lastValidHeartbeatMs := some nowMs } ∨
    b.action = .rotateKey ∧ rotate s b.payload = .ok s' ∨
    b.action = .heartbeat ∧
      s' = if s.phase = .armed then { s with lastValidHeartbeatMs := some nowMs } else s := by
  rw [perform]
  cases b.action with
  | kill => simp [eq_comm]
  | rearm =>
    dsimp only
    rw [raiseIf_bind_eq_ok]
    simp only [reduceCtorEq, false_and, true_and, false_or, or_false, Bool.not_eq_false]
    exact and_congr_right fun _ ↦ ⟨fun h ↦ (Except.ok.inj h).symm, fun h ↦ congrArg _ h.symm⟩
  | rotateKey => simp
  | heartbeat => simp [eq_comm]

/-- The claims that a call of `receive` accepts, and the switch it leaves. -/
def Accepts (cfg : Config) (s : Simulator) (message : Message) (nowMs : ℤ) (trustedRearm : Bool)
    (b : Beat) (s' : Simulator) : Prop :=
  Validated cfg s message nowMs b ∧
    perform { s with pending := none, lastSequence := b.sequence } b nowMs trustedRearm = .ok s'

/-- A call of `receive` raises and trips the switch, or it accepts the message. -/
theorem receive_cases (cfg : Config) (s : Simulator) (message : Message) (nowMs : ℤ)
    (trustedRearm : Bool) :
    (∃ (e : Exn) (s₁ : Simulator), receive cfg s message nowMs trustedRearm = (.error e, s₁.trip) ∧
      s.lastSequence ≤ s₁.lastSequence ∧ s₁.publicKey = s.publicKey ∧
        s₁.activeKeyId = s.activeKeyId) ∨
    ∃ b s', Accepts cfg s message nowMs trustedRearm b s' ∧
      receive cfg s message nowMs trustedRearm = (.ok s'.phase, s') := by
  rw [receive]
  cases hvalidate : validate cfg s message nowMs with
  | error e => exact .inl ⟨_, _, rfl, le_rfl, rfl, rfl⟩
  | ok b =>
    have hvalid := validate_eq_ok.mp hvalidate
    dsimp only
    cases hperform : perform { s with pending := none, lastSequence := b.sequence } b nowMs
        trustedRearm with
    | error e => exact .inl ⟨_, _, rfl, hvalid.fresh.le, rfl, rfl⟩
    | ok s' => exact .inr ⟨b, s', ⟨hvalid, hperform⟩, rfl⟩

/-- What is accepted is answered. -/
theorem Accepts.receive_eq (h : Accepts cfg s message nowMs trustedRearm b s') :
    receive cfg s message nowMs trustedRearm = (.ok s'.phase, s') := by
  rw [receive, validate_eq_ok.mpr h.1]
  dsimp only
  rw [h.2]

/-- A run that goes on after an accepted message. -/
theorem Accepts.after_append {pre : List Call} {s₀ : Simulator}
    (h : Accepts cfg (after cfg s₀ pre) message nowMs trustedRearm b s') (mid : List Call) :
    after cfg s₀ (pre ++ .receive message nowMs trustedRearm :: mid) = after cfg s' mid := by
  have hstep : (step cfg (after cfg s₀ pre) (.receive message nowMs trustedRearm)).2 = s' := by
    rw [step, h.receive_eq]
  rw [after, Transducer.after_append, Transducer.after_cons]
  exact congrArg (after cfg · mid) hstep

theorem Accepts.unique {b' : Beat} {s'' : Simulator}
    (h : Accepts cfg s message nowMs trustedRearm b s')
    (h' : Accepts cfg s message nowMs trustedRearm b' s'') : b = b' := by
  have hb := (validate_eq_ok.mpr h.1).symm.trans (validate_eq_ok.mpr h'.1)
  exact Except.ok.inj hb

theorem Accepts.lastSequence (h : Accepts cfg s message nowMs trustedRearm b s') :
    s'.lastSequence = b.sequence := by
  rcases perform_eq_ok.mp h.2 with ⟨-, rfl⟩ | ⟨-, -, rfl⟩ | ⟨-, hrotate⟩ | ⟨-, rfl⟩
  · rfl
  · rfl
  · obtain ⟨key, rfl⟩ := exists_key_of_rotate hrotate
    rfl
  · split <;> rfl

/-! ## Armed since a re-arm -/

/-- The call is a re-arm message for the outstanding challenge, signed by the active key and
received with `trusted_rearm`. -/
def Rearms (cfg : Config) (s : Simulator) : Call → Prop
  | .receive message nowMs trustedRearm => trustedRearm = true ∧
      ∃ b s', Accepts cfg s message nowMs trustedRearm b s' ∧ b.action = .rearm
  | _ => False

/-- The call is not a kill, not a message that is rejected, and not a tick that trips the switch. -/
def Quiet (cfg : Config) (s : Simulator) : Call → Prop
  | .receive message nowMs trustedRearm =>
    ∃ b s', Accepts cfg s message nowMs trustedRearm b s' ∧ b.action ≠ .kill
  | .tick nowMs => ¬Overdue cfg s nowMs
  | .issueChallenge .. => True

theorem armed_step {c : Call} (h : (step cfg s c).2.phase = .armed) :
    Rearms cfg s c ∨ s.phase = .armed ∧ Quiet cfg s c := by
  cases c with
  | issueChallenge nonce nowMs lifetimeMs =>
    refine .inr ⟨?_, trivial⟩
    rw [step, issueChallenge] at h
    dsimp only at h
    split at h <;> exact h
  | tick nowMs =>
    by_cases hdue : Overdue cfg s nowMs
    · rw [step, tick, if_pos hdue] at h
      cases h
    · rw [step, tick, if_neg hdue] at h
      exact .inr ⟨h, hdue⟩
  | receive message nowMs trustedRearm =>
    rw [step] at h
    rcases receive_cases cfg s message nowMs trustedRearm with ⟨e, s₁, heq, -⟩ |
      ⟨b, s', haccepts, heq⟩
    · rw [heq] at h
      cases h
    · rw [heq] at h
      rcases perform_eq_ok.mp haccepts.2 with ⟨-, rfl⟩ | ⟨haction, htrusted, -⟩ |
        ⟨haction, hrotate⟩ |
        ⟨haction, rfl⟩
      · cases h
      · exact .inl ⟨htrusted, b, s', haccepts, haction⟩
      · refine .inr ⟨?_, b, s', haccepts, by rw [haction]; exact Action.noConfusion⟩
        obtain ⟨key, rfl⟩ := exists_key_of_rotate hrotate
        exact h
      · refine .inr ⟨?_, b, _, haccepts, by rw [haction]; exact Action.noConfusion⟩
        by_contra hnot
        dsimp only at h
        rw [if_neg hnot] at h
        exact hnot h

/-! ## Sequence numbers and keys -/

/-- The last sequence number never decreases. -/
theorem lastSequence_le_step (c : Call) : s.lastSequence ≤ (step cfg s c).2.lastSequence := by
  cases c with
  | issueChallenge nonce nowMs lifetimeMs =>
    rw [step, issueChallenge]
    dsimp only
    split <;> exact le_rfl
  | tick nowMs =>
    rw [step, tick]
    split <;> exact le_rfl
  | receive message nowMs trustedRearm =>
    rw [step]
    rcases receive_cases cfg s message nowMs trustedRearm with ⟨e, s₁, heq, hle, -⟩ |
      ⟨b, s', haccepts, heq⟩
    · rw [heq]
      exact hle
    · rw [heq, haccepts.lastSequence]
      exact haccepts.1.fresh.le

theorem lastSequence_le_after (calls : List Call) :
    s.lastSequence ≤ (after cfg s calls).lastSequence :=
  Transducer.after_invariant (P := fun s' : Simulator ↦ s.lastSequence ≤ s'.lastSequence) le_rfl
    fun _ c h ↦ h.trans (lastSequence_le_step c)

/-- The call is a rotation message for the outstanding challenge, signed by the active key. -/
def Rotates (cfg : Config) (s : Simulator) : Call → Prop
  | .receive message nowMs trustedRearm =>
    ∃ b s', Accepts cfg s message nowMs trustedRearm b s' ∧ b.action = .rotateKey
  | _ => False

/-- A call that is not a rotation leaves the active key. -/
theorem rotates_of_key_ne {c : Call} (h : (step cfg s c).2.publicKey ≠ s.publicKey ∨
    (step cfg s c).2.activeKeyId ≠ s.activeKeyId) : Rotates cfg s c := by
  cases c with
  | issueChallenge nonce nowMs lifetimeMs =>
    rw [step, issueChallenge] at h
    dsimp only at h
    split at h <;> simp at h
  | tick nowMs =>
    rw [step, tick] at h
    split at h <;> simp at h
  | receive message nowMs trustedRearm =>
    rw [step] at h
    rcases receive_cases cfg s message nowMs trustedRearm with
      ⟨e, s₁, heq, -, hkey, hid⟩ | ⟨b, s', haccepts, heq⟩
    · rw [heq] at h
      simp [hkey, hid] at h
    · rw [heq] at h
      rcases perform_eq_ok.mp haccepts.2 with ⟨-, rfl⟩ | ⟨-, -, rfl⟩ | ⟨haction, -⟩ | ⟨-, rfl⟩
      · simp at h
      · simp at h
      · exact ⟨b, s', haccepts, haction⟩
      · split at h <;> simp at h

/-- **The switch stays tripped until a trusted re-arm.** In every run from enrolment an armed switch
was armed by a re-arm message signed by the key active then, and nothing has tripped it since; a
call of `receive` that raises trips it; of two accepted messages the later one has the larger
sequence number; and the active key changes only by a rotation signed by the key before it. -/
theorem stays_tripped (cfg : Config) (key : Ed25519.PublicKey) (calls : List Call) :
    ((after cfg (.enrolled key) calls).phase = .armed → ∃ pre c post, calls = pre ++ c :: post ∧
      Rearms cfg (after cfg (.enrolled key) pre) c ∧
      Transducer.Throughout (step cfg) (Quiet cfg) (after cfg (.enrolled key) (pre ++ [c])) post) ∧
    (∀ message nowMs trustedRearm e,
      (receive cfg (after cfg (.enrolled key) calls) message nowMs trustedRearm).1 = .error e →
      (receive cfg (after cfg (.enrolled key) calls) message nowMs trustedRearm).2.phase =
        .tripped) ∧
    (∀ pre message nowMs trustedRearm mid message' nowMs' trustedRearm' b b' s₁ s₂,
      Accepts cfg (after cfg (.enrolled key) pre) message nowMs trustedRearm b s₁ →
      Accepts cfg (after cfg (.enrolled key) (pre ++ .receive message nowMs trustedRearm :: mid))
        message' nowMs' trustedRearm' b' s₂ →
      b.sequence < b'.sequence ∧ message ≠ message') ∧
    ∀ c, (step cfg (after cfg (.enrolled key) calls) c).2.publicKey ≠
        (after cfg (.enrolled key) calls).publicKey ∨
      (step cfg (after cfg (.enrolled key) calls) c).2.activeKeyId ≠
        (after cfg (.enrolled key) calls).activeKeyId →
      Rotates cfg (after cfg (.enrolled key) calls) c := by
  refine ⟨fun h ↦ ?_, ?_, ?_, fun c ↦ rotates_of_key_ne⟩
  · exact Transducer.exists_since (Q := fun s ↦ s.phase = .armed) (fun s c ↦ armed_step)
      (fun h ↦ nomatch h) h
  · intro message nowMs trustedRearm e h
    rcases receive_cases cfg (after cfg (.enrolled key) calls) message nowMs trustedRearm with
      ⟨e, s₁, heq, -⟩ | ⟨b, s', -, heq⟩
    · rw [heq]
      rfl
    · rw [heq] at h
      cases h
  · intro pre message nowMs trustedRearm mid message' nowMs' trustedRearm' b b' s₁ s₂ h h'
    rw [h.after_append] at h'
    have hlt : b.sequence < b'.sequence := by
      calc b.sequence = s₁.lastSequence := h.lastSequence.symm
        _ ≤ (after cfg s₁ mid).lastSequence := lastSequence_le_after mid
        _ < b'.sequence := h'.1.fresh
    refine ⟨hlt, ?_⟩
    rintro rfl
    have hsame : b.envelope = b'.envelope :=
      Except.ok.inj (h.1.parsed.symm.trans h'.1.parsed)
    have hsequence := h.1.sequence
    rw [hsame, h'.1.sequence, Option.some.injEq, PyValue.int.injEq] at hsequence
    omega

end Simulator

end EventHorizon.FailSafe.Hardware
