import EventHorizon.Decay.Sqlite

/-!
# Provider trust from an attestation

`ProviderTrustState.from_attestation` of `task_policy.py`: the trust state that an attestation
result, a JSON object, supports. The broker derives it when it issues a capability and the verifier
derives it again when one is redeemed; nothing but the attestation and the requested tier goes into
it.

Timestamps are read by `datetime.fromisoformat` and numbers or containers printed by `repr`. Both
are fields of `Interpreter`, so that the results below hold however they read and print.
-/

namespace EventHorizon

/-- What `datetime.fromisoformat` reads: the time in whole Unix milliseconds, and whether the text
names a timezone. -/
structure Instant where
  milliseconds : ℤ
  hasTimezone : Bool
  deriving DecidableEq

/-- The services of the interpreter that the broker depends on beyond those of `Platform`. -/
class Interpreter where
  /-- `datetime.fromisoformat`, or nothing when it raises a `ValueError`. -/
  fromIsoformat : String → Option Instant
  /-- `repr(value)`. -/
  repr : Json → String

/-- `str(value)`. -/
def pyStr [Interpreter] : Json → String
  | .str s => s
  | .null => Interpreter.repr .null
  | .bool b => Interpreter.repr (.bool b)
  | .int n => Interpreter.repr (.int n)
  | .float f => Interpreter.repr (.float f)
  | .arr xs => Interpreter.repr (.arr xs)
  | .obj fields => Interpreter.repr (.obj fields)

/-- The classes that `except (TypeError, ValueError)` catches. -/
def ExnClass.isTypeOrValueError : ExnClass → Bool
  | .typeError | .valueError | .validationError | .canonicalizationError | .protocolError => true
  | _ => false

namespace Broker

open Policy (invalid digestText text TrustTier ProviderTrustState)
open Decay (payloadAt)

/-! ## Checks on values of any type -/

/-- `TRUST_ORDER` as a table of names. -/
def tierOf? : String → Option TrustTier
  | "simulated" => some .simulated
  | "software" => some .software
  | "hardware" => some .hardware
  | _ => none

@[simp] theorem tierOf?_text (t : TrustTier) : tierOf? t.text = some t := by
  cases t <;> rfl

theorem text_of_tierOf? {s : String} {t : TrustTier} (h : tierOf? s = some t) : t.text = s := by
  unfold tierOf? at h
  split at h
  · exact Option.some.inj h ▸ rfl
  · exact Option.some.inj h ▸ rfl
  · exact Option.some.inj h ▸ rfl
  · cases h

/-- `ATTESTATION_METHOD_TRUST`. -/
def attestationMethodTrust : String → Option TrustTier
  | "simulator" => some .simulated
  | "static-development" => some .software
  | "tpm2" => some .hardware
  | _ => none

section Attestation

variable [Platform]

/-- `_text`, on a value of any type. -/
def textOf (value : Json) (label : String) (maximum : ℕ) : Except Exn String :=
  match value.str? with
  | some s => text s label maximum
  | none =>
    .error (invalid
      (label ++ " must be a non-empty string <= " ++ toString maximum ++ " UTF-8 bytes"))

/-- `_digest`, on a value of any type. -/
def digestOf (value : Json) (label : String) : Except Exn String :=
  match value.str? with
  | some s => digestText s label
  | none => .error (invalid (label ++ " must be a non-empty string <= 64 UTF-8 bytes"))

theorem eq_str_of_digestOf {value : Json} {label s : String} (h : digestOf value label = .ok s) :
    value = .str s := by
  cases value with
  | str t => exact congrArg Json.str (Policy.digestText_eq_ok.mp h).2.symm
  | _ => cases h

/-- A trust tier, checked as `ProviderTrustState.__post_init__` checks the named field. -/
def tierOf (value name : String) : Except Exn TrustTier := do
  let value ← text value name 32
  match tierOf? value with
  | some tier => return tier
  | none => throw (invalid (name ++ " is not a supported trust tier"))

theorem text_of_tierOf {value name : String} {t : TrustTier} (h : tierOf value name = .ok t) :
    t.text = value := by
  obtain ⟨s, hs, htier⟩ := bind_eq_ok.mp h
  obtain ⟨-, rfl⟩ := Policy.text_eq_ok.mp hs
  cases hs : tierOf? s with
  | none =>
    rw [hs] at htier
    cases htier
  | some tier =>
    rw [hs] at htier
    exact Except.ok.inj htier ▸ text_of_tierOf? hs

/-- `text.replace("Z", "+00:00")`. -/
def replaceZ (s : String) : String :=
  String.ofList (s.toList.flatMap fun c ↦ if c = 'Z' then "+00:00".toList else [c])

variable [Interpreter]

/-- `_timestamp_ms`. -/
def timestampMs (value : Json) (label : String) : Except Exn ℤ := do
  let text ← textOf value label 64
  match Interpreter.fromIsoformat (replaceZ text) with
  | none => throw (invalid (label ++ " must be an ISO-8601 timestamp"))
  | some parsed =>
    raiseIf (parsed.hasTimezone = false) (invalid (label ++ " must include a timezone"))
    return parsed.milliseconds

/-! ## The trust state -/

/-- The fields that an attestation result cannot omit. -/
def requiredFields : List String := ["valid", "deviceId", "method", "trustLevel", "keyId",
  "measurements", "bundleDigest", "verifiedAt", "verifierPolicyDigest", "resultDigest",
  "nonceExpiresAt"]

/-- `unsigned.pop(name)`: what is left. -/
def popField (fields : List (String × Json)) (name : String) : List (String × Json) :=
  fields.filter fun f ↦ f.1 ≠ name

/-- `ProviderTrustState.from_attestation`. -/
def fromAttestation (value : List (String × Json)) (requestedTrust : String) :
    Except Exn ProviderTrustState := do
  raiseIf (¬requiredFields ⊆ value.map Prod.fst)
    (invalid "attestation result omitted authoritative trust fields")
  raiseIf (payloadAt value "valid" ≠ .bool true) (invalid "attestation result is not valid")
  let claimedDigest := payloadAt value "resultDigest"
  let actual ← digest (.obj (popField value "resultDigest"))
  raiseIf (claimedDigest ≠ .str actual) (invalid "attestation result digest mismatch")
  let method ← textOf (payloadAt value "method") "attestation method" 64
  let providerTrust ← textOf (payloadAt value "trustLevel") "provider trust" 32
  match attestationMethodTrust method with
  | none => throw (invalid "attestation method is not registered")
  | some trust =>
    raiseIf (providerTrust ≠ trust.text)
      (invalid "attestation method and provider trust are contradictory")
    let verifiedAtMs ← timestampMs (payloadAt value "verifiedAt") "attestation verification time"
    let expiresAtMs ← timestampMs (payloadAt value "nonceExpiresAt") "attestation expiration time"
    let keyId ← textOf (payloadAt value "keyId") "attestation key ID" 128
    let attestationDigest ← digestOf claimedDigest "attestation result digest"
    let bundleDigest ← digestOf (payloadAt value "bundleDigest") "attestation bundle digest"
    let verifierPolicyDigest ←
      digestOf (payloadAt value "verifierPolicyDigest") "attestation verifier policy digest"
    let requested ← tierOf requestedTrust "requested_trust"
    let state : ProviderTrustState := {
      requestedTrust := requested
      observedTrust := trust
      providerAttestedTrust := trust
      effectiveTrust := trust
      method := method
      keyId := keyId
      attestationDigest := attestationDigest
      bundleDigest := bundleDigest
      verifierPolicyDigest := verifierPolicyDigest
      verifiedAtMs := verifiedAtMs
      expiresAtMs := expiresAtMs }
    state.postInit
    return state

variable {value : List (String × Json)} {requestedTrust : String} {t : ProviderTrustState}

/-- What a trust state has of the attestation that it was derived from. -/
structure Derived (value : List (String × Json)) (requestedTrust : String)
    (t : ProviderTrustState) :
    Prop where
  requestedTrust : t.requestedTrust.text = requestedTrust
  valid : t.postInit = .ok ()
  resultDigest : payloadAt value "resultDigest" = .str t.attestationDigest
  bundleDigest : payloadAt value "bundleDigest" = .str t.bundleDigest
  verifierPolicyDigest : payloadAt value "verifierPolicyDigest" = .str t.verifierPolicyDigest

theorem derived_of_fromAttestation (h : fromAttestation value requestedTrust = .ok t) :
    Derived value requestedTrust t := by
  rw [fromAttestation] at h
  obtain ⟨-, h⟩ := raiseIf_bind_eq_ok.mp h
  obtain ⟨-, h⟩ := raiseIf_bind_eq_ok.mp h
  obtain ⟨_, -, h⟩ := bind_eq_ok.mp h
  obtain ⟨-, h⟩ := raiseIf_bind_eq_ok.mp h
  obtain ⟨method, -, h⟩ := bind_eq_ok.mp h
  obtain ⟨_, -, h⟩ := bind_eq_ok.mp h
  cases htrust : attestationMethodTrust method with
  | none =>
    rw [htrust] at h
    cases h
  | some trust =>
    rw [htrust] at h
    obtain ⟨-, h⟩ := raiseIf_bind_eq_ok.mp h
    obtain ⟨_, -, h⟩ := bind_eq_ok.mp h
    obtain ⟨_, -, h⟩ := bind_eq_ok.mp h
    obtain ⟨_, -, h⟩ := bind_eq_ok.mp h
    obtain ⟨_, hattestation, h⟩ := bind_eq_ok.mp h
    obtain ⟨_, hbundle, h⟩ := bind_eq_ok.mp h
    obtain ⟨_, hverifier, h⟩ := bind_eq_ok.mp h
    obtain ⟨requested, hrequested, h⟩ := bind_eq_ok.mp h
    obtain ⟨⟨⟩, hvalid, h⟩ := bind_eq_ok.mp h
    obtain rfl := Except.ok.inj h
    exact ⟨text_of_tierOf hrequested, hvalid, eq_str_of_digestOf hattestation,
      eq_str_of_digestOf hbundle, eq_str_of_digestOf hverifier⟩

end Attestation

end Broker

end EventHorizon
