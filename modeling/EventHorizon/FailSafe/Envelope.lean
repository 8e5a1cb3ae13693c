import EventHorizon.Broker.Issue
import EventHorizon.Canonical.Access

/-!
# Signed messages that answer a challenge

The hardware fail-safe switch and the emergency stop speak the same kind of protocol. The device
issues a challenge, which it keeps until a message comes; a message is a mapping of claims with an
Ed25519 signature over their canonical bytes. `Protocol` has what the two differ in: the class of
their errors, the words in them, and the claims.
-/

namespace EventHorizon.FailSafe

open Broker (Ed25519)

/-! ## Challenges -/

/-- What distinguishes the two protocols. -/
structure Protocol where
  cls : ExnClass
  challengeLabel : String
  messageLabel : String
  claimFields : List String

/-- An error of the protocol's own class. -/
def Protocol.refuse (p : Protocol) (message : String) : Exn := ⟨p.cls, message⟩

/-- `HeartbeatChallenge` and `EmergencyStopChallenge`. -/
structure Challenge where
  deviceId : PyStr
  challengeId : ℕ
  nonce : PyStr
  issuedAtMs : ℤ
  expiresAtMs : ℤ
  deriving DecidableEq

/-- `[0-9a-f]{32}`. -/
def isChallengeNonce (s : PyStr) : Bool :=
  s.length == 32 && s.all fun c ↦ match c with
    | .scalar c => isLowerHex c
    | .surrogate _ => false

/-- The constructor of a challenge, with `__post_init__`. -/
def Protocol.challenge (p : Protocol) (deviceId : PyStr) (challengeId : ℕ) (nonce : PyStr)
    (nowMs lifetimeMs : ℤ) : Except Exn Challenge := do
  raiseIf (deviceId = [] ∨ challengeId < 1)
    (p.refuse (p.challengeLabel ++ " identity is invalid"))
  raiseIf (isChallengeNonce nonce = false) (p.refuse (p.challengeLabel ++ " nonce is malformed"))
  raiseIf (¬nowMs < nowMs + lifetimeMs) (p.refuse (p.challengeLabel ++ " lifetime is invalid"))
  return ⟨deviceId, challengeId, nonce, nowMs, nowMs + lifetimeMs⟩

theorem Protocol.challenge_eq_ok {p : Protocol} {deviceId nonce : PyStr} {challengeId : ℕ}
    {nowMs lifetimeMs : ℤ} {c : Challenge} :
    p.challenge deviceId challengeId nonce nowMs lifetimeMs = .ok c ↔
      (deviceId ≠ [] ∧ 1 ≤ challengeId) ∧ isChallengeNonce nonce = true ∧ 0 < lifetimeMs ∧
        c = ⟨deviceId, challengeId, nonce, nowMs, nowMs + lifetimeMs⟩ := by
  have hlifetime : nowMs < nowMs + lifetimeMs ↔ 0 < lifetimeMs := by omega
  rw [challenge, raiseIf_bind_eq_ok, raiseIf_bind_eq_ok, raiseIf_bind_eq_ok, not_or,
    not_lt, not_not, Bool.not_eq_false, hlifetime]
  refine and_congr_right fun _ ↦ and_congr_right fun _ ↦ and_congr_right fun _ ↦ ?_
  exact ⟨fun h ↦ (Except.ok.inj h).symm, fun h ↦ congrArg _ h.symm⟩

/-! ## Envelopes -/

/-- `SignedHeartbeat` and `SignedEmergencyAction`. The claims are a mapping that its owner may still
change; the signature is text of the right form. -/
structure Envelope where
  claims : List (PyKey × PyValue)
  signature : String
  valid : isSignature signature = true

/-- A message: an envelope that was constructed, or something else. -/
inductive Message
  | envelope (e : Envelope)
  | value (v : PyValue)

section Parse

variable [Platform]

/-- The constructor of an envelope, with `__post_init__`. -/
def Protocol.construct (p : Protocol) (claims signature algorithm : PyValue) :
    Except Exn Envelope :=
  match claims with
  | .dict items => do
    raiseIf (PyValue.hasExactKeys items p.claimFields = false)
      (p.refuse (p.messageLabel ++ " claims are malformed"))
    raiseIf (algorithm.isText (.ofString "Ed25519") = false)
      (p.refuse (p.messageLabel ++ " signature envelope is malformed"))
    match signature with
    | .str s =>
      match s.text? with
      | some t =>
        if h : isSignature t = true then do
          let _ ← claims.canonicalBytes
          return ⟨items, t, h⟩
        else throw (p.refuse (p.messageLabel ++ " signature envelope is malformed"))
      | none => throw (p.refuse (p.messageLabel ++ " signature envelope is malformed"))
    | _ => throw ⟨.typeError, "expected string or bytes-like object"⟩
  | _ => throw (p.refuse (p.messageLabel ++ " claims are malformed"))

/-- `from_dict`. -/
def Protocol.fromDict (p : Protocol) (v : PyValue) : Except Exn Envelope :=
  match v with
  | .dict items => do
    raiseIf (PyValue.hasExactKeys items ["algorithm", "claims", "signature"] = false)
      (p.refuse (p.messageLabel ++ " envelope is malformed"))
    let claims ← PyValue.read items "claims"
    let signature ← PyValue.read items "signature"
    let algorithm ← PyValue.read items "algorithm"
    p.construct claims signature algorithm
  | _ => throw (p.refuse (p.messageLabel ++ " envelope is malformed"))

/-- The envelope of a message. -/
def Protocol.parse (p : Protocol) : Message → Except Exn Envelope
  | .envelope e => .ok e
  | .value v => p.fromDict v

/-! ## Signatures -/

variable [Ed25519]

/-- The signature of the envelope is one of the canonical bytes of its claims. -/
def Envelope.verified (e : Envelope) (key : Ed25519.PublicKey) : Bool :=
  match Base64.decode base64UrlAlphabet e.signature.toList,
    (PyValue.dict e.claims).canonicalBytes with
  | some raw, .ok data => Ed25519.verify key raw data
  | _, _ => false

/-- A signature that the key's owner made is verified. -/
theorem Envelope.verified_sign {e : Envelope} (key : Ed25519.PrivateKey) (data : List ℕ)
    (hdata : (PyValue.dict e.claims).canonicalBytes = .ok data)
    (hsignature : e.signature = Broker.spellSignature (Ed25519.sign key data)) :
    e.verified (Ed25519.publicKey key) = true := by
  rw [verified, hsignature, Broker.decode_spellSignature (Ed25519.sign_lt key data), hdata]
  exact Ed25519.verify_sign key data

/-- `serialization.load_pem_public_key`: a key, which may be of another kind, or an exception. -/
class PemKeys where
  load : String → Except Exn (Option Ed25519.PublicKey)

end Parse

end EventHorizon.FailSafe
