import EventHorizon.Broker.Claims
import EventHorizon.Decay.Runs
import EventHorizon.Library.Base64

/-!
# Issuing capabilities

`CapabilityBroker.issue` of `broker.py`, with the decay profile that it derives from the ceiling.
The broker checks the ceiling against the request and the trust state, computes the digests that the
claims bind, and signs the canonical bytes of the claims.

Ed25519 is a class: the keys, the two operations, and that what was signed verifies. The clock is an
argument in whole milliseconds, and so is the random part of the capability's name.
-/

namespace EventHorizon.Broker

open Policy
open Decay (DecayAuthority DecayStep ProfileFields DecayProfile)

/-! ## Signatures -/

/-- Ed25519, as the `cryptography` package provides it. -/
class Ed25519 where
  /-- `Ed25519PrivateKey`. -/
  PrivateKey : Type
  /-- `Ed25519PublicKey`. -/
  PublicKey : Type
  publicKey : PrivateKey → PublicKey
  /-- `public_bytes` in the raw encoding. -/
  publicBytes : PublicKey → List ℕ
  sign : PrivateKey → List ℕ → List ℕ
  /-- `verify(signature, data)` returns instead of raising `InvalidSignature`. -/
  verify : PublicKey → List ℕ → List ℕ → Bool
  /-- A signature is 64 octets. -/
  length_sign : ∀ key data, (sign key data).length = 64
  sign_lt : ∀ key data, ∀ x ∈ sign key data, x < 256
  /-- What was signed verifies. -/
  verify_sign : ∀ key data, verify (publicKey key) (sign key data) data = true

/-- A `CapabilityError`. -/
def denied (message : String) : Exn := ⟨.capabilityError, message⟩

/-- `except (TypeError, ValueError) as exc: raise CapabilityError(label + str(exc))`. -/
def asDenied {α : Type} (label : String) : Except Exn α → Except Exn α
  | .ok a => .ok a
  | .error e => if e.cls.isTypeOrValueError then .error (denied (label ++ e.message)) else .error e

theorem asDenied_eq_ok {α : Type} {label : String} {x : Except Exn α} {a : α} :
    asDenied label x = .ok a ↔ x = .ok a := by
  cases x with
  | ok b => rfl
  | error e =>
    rw [asDenied]
    split <;> simp

theorem asDenied_bind_eq_ok {α β : Type} {label : String} {x : Except Exn α} {f : α → Except Exn β}
    {b : β} : (asDenied label x >>= f) = .ok b ↔ ∃ a, x = .ok a ∧ f a = .ok b := by
  rw [bind_eq_ok]
  simp only [asDenied_eq_ok]

/-- `base64.urlsafe_b64encode(signature).rstrip(b"=")`. -/
def spellSignature (signature : List ℕ) : String :=
  String.ofList (Base64.encode base64UrlAlphabet signature)

/-- `_strict_signature`. -/
def strictSignature (value : String) : Except Exn (List ℕ) := do
  raiseIf (isSignature value = false) (denied "malformed capability signature")
  match Base64.decode base64UrlAlphabet value.toList with
  | none => throw (denied "malformed capability signature")
  | some signature =>
    raiseIf (signature.length ≠ 64 ∨ spellSignature signature ≠ value)
      (denied "malformed capability signature")
    return signature

section Signature

variable {signature : List ℕ}

-- a literal is unified with its list of characters, which is cheaper than taking it apart
theorem nodup_base64UrlAlphabet : base64UrlAlphabet.Nodup := by
  have hnodup : ∀ {cs : List Char}, (cs.map Char.toNat).Nodup →
      (String.ofList cs).toList.Nodup := fun h ↦ String.toList_ofList ▸ h.of_map
  exact hnodup (by decide +kernel)

theorem length_base64UrlAlphabet : base64UrlAlphabet.length = 64 := by
  have hlength : ∀ {cs : List Char}, cs.length = 64 → (String.ofList cs).toList.length = 64 :=
    fun h ↦ String.toList_ofList ▸ h
  exact hlength rfl

theorem lt_of_mem_base64UrlAlphabet {c : Char} (h : c ∈ base64UrlAlphabet) : c.toNat < 128 := by
  have hascii : ∀ {cs : List Char}, cs.all (fun c ↦ decide (c.toNat < 128)) = true →
      ∀ c ∈ (String.ofList cs).toList, c.toNat < 128 := by
    intro cs hall c hc
    rw [String.toList_ofList] at hc
    exact of_decide_eq_true (List.all_eq_true.mp hall c hc)
  exact hascii rfl c h

/-- What a signature is spelled as is decoded to it. -/
theorem decode_spellSignature (h : ∀ x ∈ signature, x < 256) :
    Base64.decode base64UrlAlphabet (spellSignature signature).toList = some signature := by
  rw [spellSignature, String.toList_ofList]
  exact Base64.decode_encode nodup_base64UrlAlphabet length_base64UrlAlphabet h

theorem isSignature_spellSignature (hlen : signature.length = 64) (h : ∀ x ∈ signature, x < 256) :
    isSignature (spellSignature signature) = true := by
  have halphabet : ∀ c ∈ Base64.encode base64UrlAlphabet signature, c ∈ base64UrlAlphabet :=
    Base64.mem_alphabet_of_mem_encode length_base64UrlAlphabet h
  rw [isSignature, spellSignature, String.toList_ofList, Bool.and_eq_true, beq_iff_eq,
    Base64.length_encode, hlen, List.all_eq_true]
  exact ⟨rfl, fun c hc ↦ decide_eq_true (halphabet c hc)⟩

/-- A signature is read from its spelling. -/
theorem strictSignature_spellSignature (hlen : signature.length = 64)
    (h : ∀ x ∈ signature, x < 256) :
    strictSignature (spellSignature signature) = .ok signature := by
  refine raiseIf_bind_eq_ok.mpr ⟨?_, ?_⟩
  · rw [isSignature_spellSignature hlen h]
    exact Bool.noConfusion
  · rw [decode_spellSignature h]
    refine raiseIf_bind_eq_ok.mpr ⟨?_, rfl⟩
    rintro (hne | hne)
    · exact hne hlen
    · exact hne rfl

end Signature

/-! ## Decay profiles -/

/-- The authority that a capability starts with. -/
def initialAuthority (c : CompiledTaskPolicyCeiling) (expiresAtMs : ℤ) : DecayAuthority where
  expiresAtMs := expiresAtMs
  remainingCalls := min 1 c.maximumCalls
  remainingReadBytes := c.maximumReadBytes
  remainingWriteBytes := c.maximumWriteBytes
  networkDestinations := c.networkDestinations
  tools := c.tools
  actions := c.actions
  resources := sortUnique (c.actionResources.flatMap Prod.snd)
  argumentRanges := []
  maximumParallelism := c.maximumParallelism
  maximumEffectSeverity := 10

/-- What half of the lifetime takes away. -/
def midpointStep (c : CompiledTaskPolicyCeiling) (issuedAtMs expiresAtMs : ℤ) : DecayStep where
  trigger := .elapsedMs
  threshold := max 1 ((expiresAtMs - issuedAtMs) / 2)
  removeNetworkDestinations := c.networkDestinations
  maximumWriteBytes := some 0
  maximumParallelism := some 1
  maximumEffectSeverity := some 5

/-- What a canary event takes away. -/
def canaryStep : DecayStep where
  trigger := .canaryEvents
  threshold := 1
  maximumCalls := some 0
  maximumReadBytes := some 0
  maximumWriteBytes := some 0
  maximumParallelism := some 0
  maximumEffectSeverity := some 0

/-- The steps of a profile. -/
def profileSteps (c : CompiledTaskPolicyCeiling) (issuedAtMs expiresAtMs : ℤ) :
    Except Exn (List DecayStep) :=
  if c.decayProfile = "none" then .ok []
  else do
    let midpoint ← (midpointStep c issuedAtMs expiresAtMs).postInit
    let canary ← canaryStep.postInit
    return [midpoint, canary]

/-- `decay_profile_for_ceiling`, with both times given. -/
def decayProfileForCeiling (c : CompiledTaskPolicyCeiling) (version : String)
    (issuedAtMs expiresAtMs : ℤ) : Except Exn ProfileFields := do
  let _ ← Decay.nonnegative issuedAtMs "decay issuance time"
  let _ ← Decay.nonnegative expiresAtMs "decay expiration time"
  raiseIf (expiresAtMs ≤ issuedAtMs) (invalid "decay expiration must follow issuance")
  raiseIf (c.expiresAtMs < expiresAtMs)
    (invalid "decay expiration cannot exceed the compiled ceiling")
  let initial ← (initialAuthority c expiresAtMs).postInit
  let steps ← profileSteps c issuedAtMs expiresAtMs
  ProfileFields.postInit
    { profileId := c.decayProfile, version := version, initialAuthority := initial, steps := steps }

/-- A step whose collections are in normal form is constructed as it is. -/
theorem eq_of_postInit_step {s t : DecayStep} (h₁ : s.removeNetworkDestinations.Pairwise (· < ·))
    (h₂ : s.removeTools.Pairwise (· < ·)) (h₃ : s.removeActions.Pairwise (· < ·))
    (h₄ : s.removeResources.Pairwise (· < ·)) (h : s.postInit = .ok t) : t = s := by
  rw [DecayStep.postInit, Decay.nonnegative_bind_eq_ok] at h
  simp only [Decay.strings_bind_eq_ok h₁, Decay.strings_bind_eq_ok h₂,
    Decay.strings_bind_eq_ok h₃, Decay.strings_bind_eq_ok h₄] at h
  obtain ⟨-, -, -, -, -, h⟩ := h
  obtain ⟨⟨⟩, -, h⟩ := bind_eq_ok.mp h
  obtain ⟨⟨⟩, -, h⟩ := bind_eq_ok.mp h
  obtain ⟨⟨⟩, -, h⟩ := bind_eq_ok.mp h
  obtain ⟨⟨⟩, -, h⟩ := bind_eq_ok.mp h
  obtain ⟨⟨⟩, -, h⟩ := bind_eq_ok.mp h
  obtain ⟨⟨⟩, -, h⟩ := bind_eq_ok.mp h
  exact (Except.ok.inj h).symm

/-- The steps of a profile, which were constructed and are sorted by the profile. -/
theorem sort_profileSteps {c : CompiledTaskPolicyCeiling} {issuedAtMs expiresAtMs : ℤ}
    {steps : List DecayStep} (hnetwork : c.networkDestinations.Pairwise (· < ·))
    (h : profileSteps c issuedAtMs expiresAtMs = .ok steps) :
    (steps.insertionSort DecayStep.le).insertionSort DecayStep.le =
        steps.insertionSort DecayStep.le ∧
      ∀ step ∈ steps.insertionSort DecayStep.le, step.postInit = .ok step ∧
        (step = canaryStep ∨ step = midpointStep c issuedAtMs expiresAtMs) := by
  rw [profileSteps] at h
  split at h
  · obtain rfl := Except.ok.inj h
    exact ⟨rfl, fun step hstep ↦ (List.not_mem_nil hstep).elim⟩
  obtain ⟨midpoint, hmidpoint, h⟩ := bind_eq_ok.mp h
  obtain ⟨canary, hcanary, h⟩ := bind_eq_ok.mp h
  obtain rfl := Except.ok.inj h
  obtain rfl := eq_of_postInit_step hnetwork List.Pairwise.nil List.Pairwise.nil
    List.Pairwise.nil hmidpoint
  obtain rfl := eq_of_postInit_step List.Pairwise.nil List.Pairwise.nil List.Pairwise.nil
    List.Pairwise.nil hcanary
  -- canary events come before elapsed time in the order of the names
  have hnot : ¬DecayStep.le (midpointStep c issuedAtMs expiresAtMs) canaryStep := by
    have hlt : ¬Decay.Trigger.elapsedMs.text < Decay.Trigger.canaryEvents.text := by decide
    rintro (h | ⟨h, -⟩)
    · exact hlt h
    · cases h
  have hle : DecayStep.le canaryStep (midpointStep c issuedAtMs expiresAtMs) :=
    .inl (by decide : Decay.Trigger.canaryEvents.text < Decay.Trigger.elapsedMs.text)
  have hsort : [midpointStep c issuedAtMs expiresAtMs, canaryStep].insertionSort DecayStep.le =
      [canaryStep, midpointStep c issuedAtMs expiresAtMs] := by
    simp [List.insertionSort, hnot]
  rw [hsort]
  refine ⟨by simp [List.insertionSort, hle], ?_⟩
  intro step hstep
  rcases List.mem_pair.mp hstep with rfl | rfl
  · exact ⟨hcanary, .inl rfl⟩
  · exact ⟨hmidpoint, .inr rfl⟩

/-- A profile that was derived was constructed, of parts that were. -/
theorem exists_profile {c : CompiledTaskPolicyCeiling} {version : String}
    {issuedAtMs expiresAtMs : ℤ} {p : ProfileFields}
    (hnetwork : c.networkDestinations.Pairwise (· < ·))
    (htools : c.tools.Pairwise (· < ·)) (hactions : c.actions.Pairwise (· < ·))
    (h : decayProfileForCeiling c version issuedAtMs expiresAtMs = .ok p) :
    (0 ≤ issuedAtMs ∧ expiresAtMs ≤ maxSafeInteger) ∧ ∃ profile : DecayProfile,
      profile.toProfileFields = p ∧ p.initialAuthority = initialAuthority c expiresAtMs ∧
        ∀ step ∈ p.steps, step = canaryStep ∨ step = midpointStep c issuedAtMs expiresAtMs := by
  have hnormal : (initialAuthority c expiresAtMs).Normal :=
    ⟨hnetwork, htools, hactions, pairwise_lt_sortUnique _, List.Pairwise.nil⟩
  rw [decayProfileForCeiling] at h
  obtain ⟨hissued, h⟩ := Decay.nonnegative_bind_eq_ok.mp h
  obtain ⟨hexpires, h⟩ := Decay.nonnegative_bind_eq_ok.mp h
  obtain ⟨-, h⟩ := raiseIf_bind_eq_ok.mp h
  obtain ⟨-, h⟩ := raiseIf_bind_eq_ok.mp h
  obtain ⟨initial, hinitial, h⟩ := bind_eq_ok.mp h
  obtain ⟨hvalid, rfl⟩ := (DecayAuthority.postInit_eq_ok hnormal).mp hinitial
  obtain ⟨steps, hsteps, h⟩ := bind_eq_ok.mp h
  obtain ⟨hsort, hmem⟩ := sort_profileSteps hnetwork hsteps
  obtain ⟨hid, h⟩ := raiseIf_bind_eq_ok.mp h
  obtain ⟨hversion, h⟩ := raiseIf_bind_eq_ok.mp h
  obtain ⟨requirements, hrequirements, h⟩ := bind_eq_ok.mp h
  obtain ⟨-, h⟩ := raiseIf_bind_eq_ok.mp h
  obtain rfl := Except.ok.inj h
  have hself : Decay.strings Decay.refreshRequirements "refresh requirements" =
      .ok Decay.refreshRequirements := by decide
  obtain rfl := Except.ok.inj (hself.symm.trans hrequirements)
  refine ⟨⟨hissued.1, hexpires.2⟩, ⟨_, ?_, hvalid, fun step hstep ↦ (hmem step hstep).1⟩, rfl, rfl,
    fun step hstep ↦ (hmem step hstep).2⟩
  refine raiseIf_bind_eq_ok.mpr ⟨hid, raiseIf_bind_eq_ok.mpr ⟨hversion, ?_⟩⟩
  refine bind_eq_ok.mpr ⟨_, hself, raiseIf_bind_eq_ok.mpr ⟨fun h ↦ h rfl, ?_⟩⟩
  rw [hsort]
  rfl

/-! ## Issuing -/

section Issue

variable [Platform] [Ed25519]

/-- `capability_key_id`. -/
def capabilityKeyId (key : Ed25519.PublicKey) : String :=
  "ed25519:" ++ String.ofList ((Platform.sha256 (Ed25519.publicBytes key)).toList.take 32)

/-- A key identifier is well formed. -/
theorem isKeyId_capabilityKeyId (key : Ed25519.PublicKey) :
    isKeyId (capabilityKeyId key) = true := by
  have hdigest := Platform.isDigest_sha256 (Ed25519.publicBytes key)
  rw [isDigest, Bool.and_eq_true, beq_iff_eq, List.all_eq_true] at hdigest
  have hlist : (capabilityKeyId key).toList =
      "ed25519:".toList ++ (Platform.sha256 (Ed25519.publicBytes key)).toList.take 32 := by
    rw [capabilityKeyId, String.toList_append]
    exact congrArg _ String.toList_ofList
  have hlen : "ed25519:".toList.length = 8 := rfl
  rw [isKeyId, hlist, Bool.and_eq_true, Bool.and_eq_true, beq_iff_eq, beq_iff_eq, List.all_eq_true]
  refine ⟨⟨List.take_left' hlen, ?_⟩, fun c hc ↦ ?_⟩
  · rw [List.length_append, List.length_take, hdigest.1, hlen]
    rfl
  · rw [List.drop_left' hlen] at hc
    exact hdigest.2 c (List.mem_of_mem_take hc)

/-- A broker: its key, and `max(1, ceil(ttl_seconds * 1000))`. -/
structure CapabilityBroker where
  privateKey : Ed25519.PrivateKey
  ttlMs : ℤ
  ttl_pos : 0 < ttlMs
  ttl_le : ttlMs ≤ 300000

/-- The key the broker's capabilities are verified with. -/
def CapabilityBroker.publicKey (b : CapabilityBroker) : Ed25519.PublicKey :=
  Ed25519.publicKey b.privateKey

def CapabilityBroker.keyId (b : CapabilityBroker) : String := capabilityKeyId b.publicKey

/-- The keyword arguments of `issue`. -/
structure Issuance where
  deviceId : String
  executorMeasurement : String
  trustState : ProviderTrustState
  compiledCeiling : CompiledTaskPolicyCeiling
  policyDigest : String
  maxOutputBytes : ℤ
  guardianStateDigest : String
  audience : String := "effect-executor"
  decayProfileVersion : String := "v1"

namespace CapabilityBroker

variable (b : CapabilityBroker) (request : ActionRequest) (i : Issuance) (tokenHex : String)
  (issuedAt : ℤ)

/-- The checks of `issue` on the ceiling and the trust state. -/
def check : Except Exn Unit := do
  asDenied "compiled task policy ceiling is invalid: " i.compiledCeiling.verifyIntegrity
  let permitted ← i.compiledCeiling.permits request
  raiseIf (permitted = false) (denied "compiled task policy ceiling does not permit the request")
  raiseIf (i.compiledCeiling.policyVersion = "" ∨ i.policyDigest = "")
    (denied "current policy authority is unavailable")
  raiseIf (i.compiledCeiling.providerAttestationDigest ≠ i.trustState.attestationDigest)
    (denied "compiled ceiling attestation binding mismatch")
  raiseIf (i.compiledCeiling.providerBundleDigest ≠ i.trustState.bundleDigest)
    (denied "compiled ceiling bundle binding mismatch")
  raiseIf (i.compiledCeiling.providerKeyId ≠ i.trustState.keyId)
    (denied "compiled ceiling provider key binding mismatch")
  raiseIf (i.compiledCeiling.providerMethod ≠ i.trustState.method)
    (denied "compiled ceiling provider method binding mismatch")
  raiseIf (i.compiledCeiling.providerTrust ≠ i.trustState.effectiveTrust)
    (denied "compiled ceiling provider trust binding mismatch")
  raiseIf (i.trustState.expiresAtMs ≤ issuedAt) (denied "provider-derived trust has expired")
  raiseIf (isDigest i.guardianStateDigest = false) (denied "guardian state digest is invalid")

/-- When a capability ends. -/
def expiresAt : ℤ := min (issuedAt + b.ttlMs) i.compiledCeiling.expiresAtMs

/-- The digests that `issue` computes. -/
structure Digests where
  request : String
  arguments : String
  profile : String
  authority : String
  requirements : String

/-- The claims of a capability. -/
def claimFields (d : Digests) : ClaimFields where
  capabilityId := "cap_" ++ tokenHex
  issuedAt := issuedAt
  expiresAt := b.expiresAt i issuedAt
  sessionId := request.sessionId
  agentId := request.agentId
  executorId := request.executorId
  deviceId := i.deviceId
  executorMeasurement := i.executorMeasurement
  attestationDigest := i.trustState.attestationDigest
  attestationBundleDigest := i.trustState.bundleDigest
  verifierPolicyDigest := i.trustState.verifierPolicyDigest
  taskId := i.compiledCeiling.taskId
  taskFingerprint := i.compiledCeiling.taskFingerprint
  tenant := i.compiledCeiling.tenant
  environment := i.compiledCeiling.environment
  audience := i.audience
  requestedTrust := i.trustState.requestedTrust.text
  providerAttestedTrust := i.trustState.providerAttestedTrust.text
  effectiveTrust := i.trustState.effectiveTrust.text
  signedTrustConstraint := i.compiledCeiling.requiredTrustTier.text
  attestationMethod := i.trustState.method
  attestationKeyId := i.trustState.keyId
  compiledCeiling := i.compiledCeiling.toDict
  compiledCeilingDigest := i.compiledCeiling.compiledDigest
  guardianStateDigest := i.guardianStateDigest
  decayProfileId := i.compiledCeiling.decayProfile
  decayProfileVersion := i.decayProfileVersion
  decayProfileDigest := d.profile
  initialAuthorityDigest := d.authority
  refreshRequirementsDigest := d.requirements
  operation := request.operation
  resourceId := request.resourceId
  argumentsDigest := d.arguments
  requestDigest := d.request
  maxOutputBytes := i.maxOutputBytes
  invocationLimit := 1
  policyDigest := i.policyDigest
  signerKeyId := b.keyId

/-- `issue`. -/
def issue : Except Exn IssuedCapability := do
  check request i issuedAt
  let requestDigest ← digest request.canonicalPayload
  let argumentsDigest ← digest (.obj request.arguments)
  let profile ← asDenied "decay profile is invalid: " (decayProfileForCeiling i.compiledCeiling
    i.decayProfileVersion issuedAt (b.expiresAt i issuedAt))
  let profileDigest ← profile.profileDigest
  let authorityDigest ← digest profile.initialAuthority.toDict
  let requirementsDigest ← digest (strArray profile.refreshRequirements)
  let claims ← CapabilityClaims.construct (b.claimFields request i tokenHex issuedAt
    ⟨requestDigest, argumentsDigest, profileDigest, authorityDigest, requirementsDigest⟩)
  let bytes ← canonicalBytes (.obj claims.toDict)
  IssuedCapability.construct {
    claims := claims
    signature := spellSignature (Ed25519.sign b.privateKey bytes)
    keyId := b.keyId }

/-! ## What was issued -/

/-- What a capability that was issued has passed, and what it is. -/
structure Issued (d : Digests) (profile : ProfileFields)
    (capability : IssuedCapability) : Prop where
  integrity : i.compiledCeiling.verifyIntegrity = .ok ()
  permits : i.compiledCeiling.permits request = .ok true
  attestation : i.compiledCeiling.providerAttestationDigest = i.trustState.attestationDigest
  bundle : i.compiledCeiling.providerBundleDigest = i.trustState.bundleDigest
  key : i.compiledCeiling.providerKeyId = i.trustState.keyId
  method : i.compiledCeiling.providerMethod = i.trustState.method
  trust : i.compiledCeiling.providerTrust = i.trustState.effectiveTrust
  fresh : issuedAt < i.trustState.expiresAtMs
  requestDigest : digest request.canonicalPayload = .ok d.request
  argumentsDigest : digest (.obj request.arguments) = .ok d.arguments
  derived : decayProfileForCeiling i.compiledCeiling i.decayProfileVersion issuedAt
    (b.expiresAt i issuedAt) = .ok profile
  profileDigest : profile.profileDigest = .ok d.profile
  authorityDigest : digest profile.initialAuthority.toDict = .ok d.authority
  requirementsDigest : digest (strArray profile.refreshRequirements) = .ok d.requirements
  claims : capability.claims.toClaimFields = b.claimFields request i tokenHex issuedAt d
  signed : ∃ bytes, canonicalBytes (.obj capability.claims.toDict) = .ok bytes ∧
    capability.signature = spellSignature (Ed25519.sign b.privateKey bytes)
  keyId : capability.keyId = b.keyId

variable {b request i tokenHex issuedAt}

theorem exists_issued {capability : IssuedCapability}
    (h : b.issue request i tokenHex issuedAt = .ok capability) :
    ∃ d profile, Issued b request i tokenHex issuedAt d profile capability := by
  obtain ⟨⟨⟩, hcheck, h⟩ := bind_eq_ok.mp h
  rw [check, asDenied_bind_eq_ok] at hcheck
  obtain ⟨⟨⟩, hintegrity, hcheck⟩ := hcheck
  obtain ⟨permitted, hpermits, hcheck⟩ := bind_eq_ok.mp hcheck
  simp only [raiseIf_bind_eq_ok, raiseIf_eq_ok, not_not, Bool.not_eq_false, not_le] at hcheck
  obtain ⟨rfl, -, hattestation, hbundle, hkey, hmethod, htrust, hfresh, -⟩ := hcheck
  obtain ⟨requestDigest, hrequest, h⟩ := bind_eq_ok.mp h
  obtain ⟨argumentsDigest, harguments, h⟩ := bind_eq_ok.mp h
  obtain ⟨profile, hprofile, h⟩ := asDenied_bind_eq_ok.mp h
  obtain ⟨profileDigest, hprofileDigest, h⟩ := bind_eq_ok.mp h
  obtain ⟨authorityDigest, hauthority, h⟩ := bind_eq_ok.mp h
  obtain ⟨requirementsDigest, hrequirements, h⟩ := bind_eq_ok.mp h
  obtain ⟨claims, hclaims, h⟩ := bind_eq_ok.mp h
  obtain ⟨bytes, hbytes, h⟩ := bind_eq_ok.mp h
  have hcapability := IssuedCapability.construct_eq_ok.mp h
  have hself : capability.claims = claims := congrArg CapabilityFields.claims hcapability
  subst hself
  exact ⟨⟨requestDigest, argumentsDigest, profileDigest, authorityDigest, requirementsDigest⟩,
    profile, hintegrity, hpermits, hattestation, hbundle, hkey, hmethod, htrust, hfresh, hrequest,
    harguments, hprofile, hprofileDigest, hauthority, hrequirements,
    CapabilityClaims.construct_eq_ok.mp hclaims,
    ⟨bytes, hbytes, congrArg CapabilityFields.signature hcapability⟩,
    congrArg CapabilityFields.keyId hcapability⟩

/-! ## When a capability is issued -/

/-- What is enough for a capability to be issued. -/
structure Issuable (b : CapabilityBroker) (request : ActionRequest) (i : Issuance)
    (tokenHex : String) (issuedAt : ℤ) (profile : ProfileFields) : Prop where
  isSealed : i.compiledCeiling.Sealed
  ceilingValid : i.compiledCeiling.Valid
  ceilingNormal : i.compiledCeiling.Normal
  permits : i.compiledCeiling.permits request = .ok true
  trustValid : i.trustState.postInit = .ok ()
  attestation : i.compiledCeiling.providerAttestationDigest = i.trustState.attestationDigest
  bundle : i.compiledCeiling.providerBundleDigest = i.trustState.bundleDigest
  key : i.compiledCeiling.providerKeyId = i.trustState.keyId
  method : i.compiledCeiling.providerMethod = i.trustState.method
  trust : i.compiledCeiling.providerTrust = i.trustState.effectiveTrust
  fresh : issuedAt < i.trustState.expiresAtMs
  guardianState : isDigest i.guardianStateDigest = true
  policyDigest : isDigest i.policyDigest = true
  deviceId : IsText 256 i.deviceId
  executorMeasurement : isDigest i.executorMeasurement = true
  audience : IsText 256 i.audience
  decayProfileVersion : IsText 256 i.decayProfileVersion
  token : isCapabilityId ("cap_" ++ tokenHex) = true
  begun : 0 ≤ issuedAt
  lasting : issuedAt < i.compiledCeiling.expiresAtMs
  outputLimit : 0 < i.maxOutputBytes ∧ i.maxOutputBytes ≤ 1048576
  arguments : (Json.obj request.arguments).height < maxCanonicalDepth
  derived : decayProfileForCeiling i.compiledCeiling i.decayProfileVersion issuedAt
    (b.expiresAt i issuedAt) = .ok profile
  profileCanonical : Canonicalizes 0 profile.toDict
  authorityCanonical : Canonicalizes 0 profile.initialAuthority.toDict
  requirementsCanonical : Canonicalizes 0 (strArray profile.refreshRequirements)

theorem Issuable.check_eq_ok {profile : ProfileFields}
    (h : Issuable b request i tokenHex issuedAt profile) : check request i issuedAt = .ok () := by
  have hversion : ¬(i.compiledCeiling.policyVersion = "" ∨ i.policyDigest = "") := by
    rintro (he | he)
    · exact h.ceilingValid.policyVersion.1 he
    · exact Bool.noConfusion (he ▸ h.policyDigest : isDigest "" = true)
  refine asDenied_bind_eq_ok.mpr ⟨(), h.isSealed.integrity, bind_eq_ok.mpr ⟨true, h.permits, ?_⟩⟩
  simp only [raiseIf_bind_eq_ok, raiseIf_eq_ok, not_not, Bool.not_eq_false, not_le]
  exact ⟨trivial, hversion, h.attestation, h.bundle, h.key, h.method, h.trust, h.fresh,
    h.guardianState⟩

theorem Issuable.compiledDigest {profile : ProfileFields}
    (h : Issuable b request i tokenHex issuedAt profile) :
    isDigest i.compiledCeiling.compiledDigest = true :=
  ((CompiledTaskPolicyCeiling.postInit_eq_ok h.ceilingNormal).mp h.isSealed.constructed).2.1

/-- The claims are constructed, whatever the digests are. -/
theorem Issuable.valid {profile : ProfileFields}
    (h : Issuable b request i tokenHex issuedAt profile)
    {d : Digests} (hrequest : isDigest d.request = true) (harguments : isDigest d.arguments = true)
    (hprofile : isDigest d.profile = true) (hauthority : isDigest d.authority = true)
    (hrequirements : isDigest d.requirements = true) :
    (b.claimFields request i tokenHex issuedAt d).Valid where
  capabilityId := h.token
  texts := by
    have hr := request.isValid
    have hmono : ∀ {m : ℕ} {s : String}, m ≤ 256 → IsText m s → IsText 256 s :=
      fun hm hs ↦ ⟨hs.1, hs.2.1.trans hm, hs.2.2⟩
    have ht := h.trustValid
    simp only [ProviderTrustState.postInit, text_bind_eq_ok] at ht
    obtain ⟨-, -, -, -, hmethod, hkey, -⟩ := ht
    simp only [ClaimFields.texts, claimFields, List.forall_mem_cons, validatedText_eq_ok]
    refine ⟨hr.sessionId, hr.agentId, hr.executorId, h.deviceId, h.ceilingValid.taskId,
      h.ceilingValid.tenant, h.ceilingValid.environment, h.audience, hmono (by decide) hmethod,
      hmono (by decide) hkey, h.ceilingValid.decayProfile, h.decayProfileVersion, hr.operation,
      hr.resourceId, ?_⟩
    simp
  digests := by
    have ht := h.trustValid
    simp only [ProviderTrustState.postInit, text_bind_eq_ok, digestText_bind_eq_ok] at ht
    obtain ⟨-, -, -, -, -, -, hattestation, hbundle, hverifier, -⟩ := ht
    simp only [ClaimFields.digests, claimFields, List.forall_mem_cons]
    refine ⟨h.executorMeasurement, hattestation, hbundle, hverifier, h.ceilingValid.taskFingerprint,
      h.compiledDigest, h.guardianState, hprofile, hauthority, hrequirements, harguments, hrequest,
      h.policyDigest, ?_⟩
    simp
  tiers := by
    simp [ClaimFields.tiers, claimFields]
  noFloats := i.compiledCeiling.hasFloatFields_toDict
  canonical := CompiledTaskPolicyCeiling.canonicalizes_toDict h.ceilingValid h.ceilingNormal
    h.compiledDigest (by decide)
  ceilingDigest := rfl
  signerKeyId := isKeyId_capabilityKeyId _
  lifetime := by
    have httl := b.ttl_pos
    have hle := b.ttl_le
    have hlasting := h.lasting
    simp only [claimFields, expiresAt]
    omega
  outputLimit := h.outputLimit
  oneUse := rfl

/-- A capability is issued when the checks pass and every digest exists. -/
theorem Issuable.exists_issue {profile : ProfileFields}
    (h : Issuable b request i tokenHex issuedAt profile) :
    ∃ capability, b.issue request i tokenHex issuedAt = .ok capability := by
  obtain ⟨requestDigest, hrequest⟩ := request.exists_requestDigest.mpr h.arguments
  rw [ActionRequest.requestDigest] at hrequest
  obtain ⟨argumentsDigest, harguments⟩ := exists_digest_eq_ok.mpr request.isValid.arguments
  obtain ⟨profileDigest, hprofile⟩ := exists_digest_eq_ok.mpr h.profileCanonical
  obtain ⟨authorityDigest, hauthority⟩ := exists_digest_eq_ok.mpr h.authorityCanonical
  obtain ⟨requirementsDigest, hrequirements⟩ := exists_digest_eq_ok.mpr h.requirementsCanonical
  let d : Digests :=
    ⟨requestDigest, argumentsDigest, profileDigest, authorityDigest, requirementsDigest⟩
  have hvalid : (b.claimFields request i tokenHex issuedAt d).Valid :=
    h.valid (isDigest_of_digest_eq_ok hrequest)
      (isDigest_of_digest_eq_ok harguments) (isDigest_of_digest_eq_ok hprofile)
      (isDigest_of_digest_eq_ok hauthority) (isDigest_of_digest_eq_ok hrequirements)
  let claims : CapabilityClaims := ⟨_, ClaimFields.postInit_eq_ok.mpr hvalid⟩
  have hexpires : b.expiresAt i issuedAt ≤ maxSafeInteger :=
    (min_le_right _ _).trans h.ceilingValid.expiresAtMs.2
  obtain ⟨bytes, hbytes⟩ := canonicalBytes_eq_ok.mpr (hvalid.canonicalizes
    (CompiledTaskPolicyCeiling.canonicalizes_toDict h.ceilingValid h.ceilingNormal h.compiledDigest
      (by decide)) h.begun hexpires)
  let fields : CapabilityFields := {
    claims := claims
    signature := spellSignature (Ed25519.sign b.privateKey bytes)
    keyId := b.keyId }
  have hcapability : fields.postInit = .ok () := by
    simp only [CapabilityFields.postInit, raiseIf_bind_eq_ok, raiseIf_eq_ok, not_not,
      Bool.not_eq_false]
    exact ⟨rfl, isKeyId_capabilityKeyId _,
      isSignature_spellSignature (Ed25519.length_sign _ _) (Ed25519.sign_lt _ _)⟩
  refine ⟨⟨fields, hcapability⟩, bind_eq_ok.mpr ⟨(), h.check_eq_ok, ?_⟩⟩
  refine bind_eq_ok.mpr ⟨requestDigest, hrequest, bind_eq_ok.mpr ⟨argumentsDigest, harguments, ?_⟩⟩
  refine asDenied_bind_eq_ok.mpr ⟨profile, h.derived, bind_eq_ok.mpr ⟨profileDigest, hprofile, ?_⟩⟩
  refine bind_eq_ok.mpr ⟨authorityDigest, hauthority,
    bind_eq_ok.mpr ⟨requirementsDigest, hrequirements, ?_⟩⟩
  refine bind_eq_ok.mpr ⟨claims, CapabilityClaims.construct_eq_ok.mpr rfl, ?_⟩
  exact bind_eq_ok.mpr ⟨bytes, hbytes, IssuedCapability.construct_eq_ok.mpr rfl⟩

end CapabilityBroker

end Issue

end EventHorizon.Broker
