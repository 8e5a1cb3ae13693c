import EventHorizon.Broker.Issue
import EventHorizon.Replay.State

/-!
# Verifying and consuming capabilities

`CapabilityVerifier.verify_and_consume` of `broker.py`. `verifiedClaims` looks at the capability,
the request and the context of the call and changes nothing. Its checks come in order: the envelope
and the signature, the time window, the request, the current attestation and the ceiling, and last
the list of bindings. Only then is the capability consumed, and the decay engine asked.

The broker has the same method with stores of its own.
-/

namespace EventHorizon.Broker

open Policy
open Decay (payloadAt ProfileFields)

/-- What the caller of `verify_and_consume` says of its surroundings. -/
structure Context where
  executorMeasurement : String
  deviceId : String
  attestation : List (String × Json)
  verifierPolicyDigest : String
  policyDigest : String
  audience : String := "effect-executor"
  tenant : String := "default"
  environment : String := "synthetic"

/-- A binding: its name, and the two values that have to be equal. -/
abbrev Binding := String × String × String

/-- `TRUST_ORDER[tier]`. Claims that were constructed name a tier. -/
def trustOrder (tier : String) : ℕ := ((tierOf? tier).map TrustTier.order).getD 0

/-- The bindings that do not hold. -/
def mismatches (bindings : List Binding) : List String :=
  (bindings.filter fun r ↦ r.2.1 ≠ r.2.2).map Prod.fst

theorem mismatches_eq_nil {bindings : List Binding} :
    mismatches bindings = [] ↔ ∀ r ∈ bindings, r.2.1 = r.2.2 := by
  simp [mismatches, List.filter_eq_nil_iff]

section Verify

variable [Platform] [Interpreter] [Ed25519]

def checkBindings (bindings : List Binding) : Except Exn Unit :=
  raiseIf (mismatches bindings ≠ []) (denied ("capability binding mismatch: " ++
    Interpreter.repr (strArray ((mismatches bindings).insertionSort (· ≤ ·)))))

omit [Platform] [Ed25519] in
theorem checkBindings_eq_ok {bindings : List Binding} :
    checkBindings bindings = .ok () ↔ ∀ r ∈ bindings, r.2.1 = r.2.2 := by
  rw [checkBindings, raiseIf_eq_ok, not_not, mismatches_eq_nil]

/-! ## Verification -/

/-- `request_bindings`. -/
def requestBindings (claims : ClaimFields) (request : ActionRequest)
    (requestDigest argumentsDigest : String) : List Binding := [
  ("session_id", claims.sessionId, request.sessionId),
  ("agent_id", claims.agentId, request.agentId),
  ("executor_id", claims.executorId, request.executorId),
  ("operation", claims.operation, request.operation),
  ("resource_id", claims.resourceId, request.resourceId),
  ("arguments_digest", claims.argumentsDigest, argumentsDigest),
  ("request_digest", claims.requestDigest, requestDigest)]

/-- `bindings`. -/
def contextBindings (claims : ClaimFields) (keyId : String) (request : ActionRequest)
    (k : Context) (measurements : List (String × Json)) (trust : ProviderTrustState)
    (compiled : CompiledTaskPolicyCeiling) (d : CapabilityBroker.Digests) : List Binding := [
  ("session_id", claims.sessionId, request.sessionId),
  ("agent_id", claims.agentId, request.agentId),
  ("executor_id", claims.executorId, request.executorId),
  ("device_id", claims.deviceId, k.deviceId),
  ("executor_measurement", claims.executorMeasurement, k.executorMeasurement),
  ("current_attested_device", k.deviceId,
    pyStr ((Json.lookup k.attestation "deviceId").getD (.str ""))),
  ("current_attested_measurement", k.executorMeasurement,
    pyStr ((Json.lookup measurements "executor").getD (.str ""))),
  ("attestation_digest", claims.attestationDigest, trust.attestationDigest),
  ("attestation_bundle_digest", claims.attestationBundleDigest, trust.bundleDigest),
  ("verifier_policy_digest", claims.verifierPolicyDigest, trust.verifierPolicyDigest),
  ("current_verifier_policy_digest", trust.verifierPolicyDigest, k.verifierPolicyDigest),
  ("attestation_method", claims.attestationMethod, trust.method),
  ("attestation_key_id", claims.attestationKeyId, trust.keyId),
  ("provider_attested_trust", claims.providerAttestedTrust, trust.providerAttestedTrust.text),
  ("effective_trust", claims.effectiveTrust, trust.effectiveTrust.text),
  ("policy_digest", claims.policyDigest, k.policyDigest),
  ("audience", claims.audience, k.audience),
  ("current_tenant", claims.tenant, k.tenant),
  ("current_environment", claims.environment, k.environment),
  ("task_id", claims.taskId, compiled.taskId),
  ("task_fingerprint", claims.taskFingerprint, compiled.taskFingerprint),
  ("tenant", claims.tenant, compiled.tenant),
  ("environment", claims.environment, compiled.environment),
  ("compiled_ceiling_digest", claims.compiledCeilingDigest, compiled.compiledDigest),
  ("decay_profile_id", claims.decayProfileId, compiled.decayProfile),
  ("decay_profile_digest", claims.decayProfileDigest, d.profile),
  ("initial_authority_digest", claims.initialAuthorityDigest, d.authority),
  ("refresh_requirements_digest", claims.refreshRequirementsDigest, d.requirements),
  ("compiled_subject", claims.agentId, compiled.subjectId),
  ("compiled_workload", claims.executorId, compiled.workloadIdentity),
  ("compiled_attestation", claims.attestationDigest, compiled.providerAttestationDigest),
  ("compiled_bundle", claims.attestationBundleDigest, compiled.providerBundleDigest),
  ("compiled_attestation_method", claims.attestationMethod, compiled.providerMethod),
  ("compiled_attestation_key", claims.attestationKeyId, compiled.providerKeyId),
  ("compiled_trust", claims.effectiveTrust, compiled.providerTrust.text),
  ("signer_key_id", claims.signerKeyId, keyId),
  ("operation", claims.operation, request.operation),
  ("resource_id", claims.resourceId, request.resourceId),
  ("arguments_digest", claims.argumentsDigest, d.arguments),
  ("request_digest", claims.requestDigest, d.request)]

/-- `expected_nonce_context`. -/
def expectedNonceContext (request : ActionRequest) : Json := .obj [
  ("deviceId", .str request.executorId), ("executorId", .str request.executorId),
  ("sessionId", .str request.sessionId), ("purpose", .str request.purpose)]

/-- The part of `_verified_claims` on the envelope, the signature and the time. -/
def authenticate (publicKey : Ed25519.PublicKey) (expectedKeyId : String)
    (capability : IssuedCapability) (nowMs : ℤ) : Except Exn IssuedCapability := do
  let parsed ← asDenied "malformed capability: " (IssuedCapability.fromDict capability.toDict)
  raiseIf (parsed.algorithm ≠ "Ed25519") (denied "unsupported capability algorithm")
  raiseIf (parsed.keyId ≠ expectedKeyId ∨ parsed.claims.signerKeyId ≠ expectedKeyId)
    (denied "unknown capability signing key")
  let signature ← strictSignature parsed.signature
  let bytes ← canonicalBytes (.obj parsed.claims.toDict)
  raiseIf (Ed25519.verify publicKey signature bytes = false)
    (denied "invalid capability signature")
  raiseIf (nowMs < parsed.claims.issuedAt - 5000)
    (denied "capability issued beyond allowed clock skew")
  raiseIf (parsed.claims.expiresAt ≤ nowMs) (denied "capability expired")
  return parsed

/-- What `_verified_claims` derives anew. -/
structure Current where
  trust : ProviderTrustState
  compiled : CompiledTaskPolicyCeiling
  profile : ProfileFields

/-- The derivation of the current trust, the ceiling and the decay profile. -/
def rederive (claims : ClaimFields) (attestation : List (String × Json)) : Except Exn Current := do
  let trust ← fromAttestation attestation claims.requestedTrust
  let compiled ← CompiledTaskPolicyCeiling.fromDict claims.compiledCeiling
  let profile ← decayProfileForCeiling compiled claims.decayProfileVersion claims.issuedAt
    claims.expiresAt
  return ⟨trust, compiled, profile⟩

/-- `_verified_claims`. -/
def verifiedClaims (publicKey : Ed25519.PublicKey) (expectedKeyId : String)
    (capability : IssuedCapability) (request : ActionRequest) (k : Context) (nowMs : ℤ) :
    Except Exn CapabilityClaims := do
  let parsed ← authenticate publicKey expectedKeyId capability nowMs
  let claims := parsed.claims
  let requestDigest ← digest request.canonicalPayload
  let argumentsDigest ← digest (.obj request.arguments)
  checkBindings (requestBindings claims.toClaimFields request requestDigest argumentsDigest)
  let current ← asDenied "current authority context is invalid: "
    (rederive claims.toClaimFields k.attestation)
  match (payloadAt k.attestation "measurements").fields? with
  | none => throw (denied "current attestation measurements are invalid")
  | some measurements =>
    raiseIf ((payloadAt k.attestation "nonceContext").pyEq (expectedNonceContext request) = false)
      (denied "current attestation nonce context mismatch")
    raiseIf (current.trust.expiresAtMs ≤ nowMs) (denied "current provider attestation expired")
    raiseIf (current.trust.effectiveTrust.order < trustOrder claims.signedTrustConstraint)
      (denied "current provider trust is below the signed constraint")
    let permitted ← current.compiled.permits request
    raiseIf (permitted = false) (denied "compiled task policy ceiling does not permit the request")
    let profileDigest ← current.profile.profileDigest
    let authorityDigest ← digest current.profile.initialAuthority.toDict
    let requirementsDigest ← digest (strArray current.profile.refreshRequirements)
    checkBindings (contextBindings claims.toClaimFields parsed.keyId request k measurements
      current.trust current.compiled
      ⟨requestDigest, argumentsDigest, profileDigest, authorityDigest, requirementsDigest⟩)
    return claims

/-! ## What was verified -/

/-- What the envelope of a capability has passed at a time. -/
structure Authentic (publicKey : Ed25519.PublicKey) (expectedKeyId : String)
    (capability : IssuedCapability) (nowMs : ℤ) : Prop where
  keyId : capability.keyId = expectedKeyId
  signerKeyId : capability.claims.signerKeyId = expectedKeyId
  signed : ∃ signature bytes, strictSignature capability.signature = .ok signature ∧
    canonicalBytes (.obj capability.claims.toDict) = .ok bytes ∧
    Ed25519.verify publicKey signature bytes = true
  begun : capability.claims.issuedAt - 5000 ≤ nowMs
  lasting : nowMs < capability.claims.expiresAt

variable {publicKey : Ed25519.PublicKey} {expectedKeyId : String}
  {capability parsed : IssuedCapability} {request : ActionRequest} {k : Context} {nowMs : ℤ}

theorem authenticate_eq_ok : authenticate publicKey expectedKeyId capability nowMs = .ok parsed ↔
    Authentic publicKey expectedKeyId capability nowMs ∧ parsed = capability := by
  have hself := IssuedCapability.fromDict_toDict capability
  have halgorithm := (raiseIf_bind_eq_ok.mp capability.valid).1
  rw [authenticate, asDenied_bind_eq_ok]
  constructor
  · rintro ⟨p, hp, h⟩
    obtain rfl := Except.ok.inj (hself.symm.trans hp)
    obtain ⟨-, h⟩ := raiseIf_bind_eq_ok.mp h
    obtain ⟨hkey, h⟩ := raiseIf_bind_eq_ok.mp h
    obtain ⟨signature, hsignature, h⟩ := bind_eq_ok.mp h
    obtain ⟨bytes, hbytes, h⟩ := bind_eq_ok.mp h
    simp only [raiseIf_bind_eq_ok, Bool.not_eq_false, not_lt, not_le] at h
    obtain ⟨hverify, hbegun, hlasting, h⟩ := h
    simp only [not_or, not_not] at hkey
    exact ⟨⟨hkey.1, hkey.2, ⟨signature, bytes, hsignature, hbytes, hverify⟩, hbegun, hlasting⟩,
      (Except.ok.inj h).symm⟩
  · rintro ⟨⟨hkey, hsigner, ⟨signature, bytes, hsignature, hbytes, hverify⟩, hbegun, hlasting⟩, rfl⟩
    refine ⟨parsed, hself, raiseIf_bind_eq_ok.mpr ⟨halgorithm, raiseIf_bind_eq_ok.mpr ⟨?_, ?_⟩⟩⟩
    · simp only [not_or, not_not]
      exact ⟨hkey, hsigner⟩
    refine bind_eq_ok.mpr ⟨signature, hsignature, bind_eq_ok.mpr ⟨bytes, hbytes, ?_⟩⟩
    simp only [raiseIf_bind_eq_ok, Bool.not_eq_false, not_lt, not_le]
    exact ⟨hverify, hbegun, hlasting, rfl⟩

/-- What a capability has passed for a request in a context, with the values that were derived. -/
structure Verified (capability : IssuedCapability) (request : ActionRequest) (k : Context)
    (nowMs : ℤ) (d : CapabilityBroker.Digests) (current : Current)
    (measurements : List (String × Json)) : Prop where
  requestDigest : digest request.canonicalPayload = .ok d.request
  argumentsDigest : digest (.obj request.arguments) = .ok d.arguments
  rederived : rederive capability.claims.toClaimFields k.attestation = .ok current
  measured : (payloadAt k.attestation "measurements").fields? = some measurements
  nonceContext : (payloadAt k.attestation "nonceContext").pyEq (expectedNonceContext request) = true
  fresh : nowMs < current.trust.expiresAtMs
  trusted : trustOrder capability.claims.signedTrustConstraint ≤ current.trust.effectiveTrust.order
  permits : current.compiled.permits request = .ok true
  profileDigest : current.profile.profileDigest = .ok d.profile
  authorityDigest : digest current.profile.initialAuthority.toDict = .ok d.authority
  requirementsDigest : digest (strArray current.profile.refreshRequirements) = .ok d.requirements
  bindings : ∀ r ∈ contextBindings capability.claims.toClaimFields capability.keyId request k
    measurements current.trust current.compiled d, r.2.1 = r.2.2

omit [Ed25519] in
/-- The request bindings are among the others. -/
theorem requestBindings_subset {claims : ClaimFields} {keyId : String}
    {measurements : List (String × Json)} {trust : ProviderTrustState}
    {compiled : CompiledTaskPolicyCeiling} {d : CapabilityBroker.Digests} :
    requestBindings claims request d.request d.arguments ⊆
      contextBindings claims keyId request k measurements trust compiled d := by
  intro r hr
  simp only [requestBindings, List.mem_cons, List.not_mem_nil, or_false] at hr
  simp only [contextBindings, List.mem_cons]
  tauto

theorem verifiedClaims_eq_ok {claims : CapabilityClaims} :
    verifiedClaims publicKey expectedKeyId capability request k nowMs = .ok claims ↔
      Authentic publicKey expectedKeyId capability nowMs ∧ claims = capability.claims ∧
        ∃ d current measurements, Verified capability request k nowMs d current measurements := by
  rw [verifiedClaims, bind_eq_ok]
  constructor
  · rintro ⟨p, hp, h⟩
    obtain ⟨hauthentic, rfl⟩ := authenticate_eq_ok.mp hp
    obtain ⟨requestDigest, hrequest, h⟩ := bind_eq_ok.mp h
    obtain ⟨argumentsDigest, harguments, h⟩ := bind_eq_ok.mp h
    obtain ⟨⟨⟩, -, h⟩ := bind_eq_ok.mp h
    obtain ⟨current, hcurrent, h⟩ := asDenied_bind_eq_ok.mp h
    cases hmeasurements : (payloadAt k.attestation "measurements").fields? with
    | none =>
      rw [hmeasurements] at h
      cases h
    | some measurements =>
      rw [hmeasurements] at h
      obtain ⟨hnonce, h⟩ := raiseIf_bind_eq_ok.mp h
      obtain ⟨hfresh, h⟩ := raiseIf_bind_eq_ok.mp h
      obtain ⟨htrusted, h⟩ := raiseIf_bind_eq_ok.mp h
      obtain ⟨permitted, hpermits, h⟩ := bind_eq_ok.mp h
      obtain ⟨hpermitted, h⟩ := raiseIf_bind_eq_ok.mp h
      rw [Bool.not_eq_false] at hnonce hpermitted
      rw [hpermitted] at hpermits
      obtain ⟨profileDigest, hprofile, h⟩ := bind_eq_ok.mp h
      obtain ⟨authorityDigest, hauthority, h⟩ := bind_eq_ok.mp h
      obtain ⟨requirementsDigest, hrequirements, h⟩ := bind_eq_ok.mp h
      obtain ⟨⟨⟩, hbindings, h⟩ := bind_eq_ok.mp h
      exact ⟨hauthentic, (Except.ok.inj h).symm,
        ⟨requestDigest, argumentsDigest, profileDigest, authorityDigest, requirementsDigest⟩,
        current, measurements, hrequest, harguments, hcurrent, hmeasurements, hnonce,
        not_le.mp hfresh, not_lt.mp htrusted, hpermits, hprofile, hauthority, hrequirements,
        checkBindings_eq_ok.mp hbindings⟩
  · rintro ⟨hauthentic, rfl, d, current, measurements, h⟩
    refine ⟨capability, authenticate_eq_ok.mpr ⟨hauthentic, rfl⟩, ?_⟩
    refine bind_eq_ok.mpr ⟨d.request, h.requestDigest, bind_eq_ok.mpr ⟨d.arguments,
      h.argumentsDigest,
      bind_eq_ok.mpr ⟨(), ?_, asDenied_bind_eq_ok.mpr ⟨current, h.rederived, ?_⟩⟩⟩⟩
    · exact checkBindings_eq_ok.mpr fun r hr ↦ h.bindings r (requestBindings_subset hr)
    rw [h.measured]
    refine raiseIf_bind_eq_ok.mpr ⟨by rw [h.nonceContext]; exact Bool.noConfusion, ?_⟩
    refine raiseIf_bind_eq_ok.mpr ⟨not_le.mpr h.fresh, ?_⟩
    refine raiseIf_bind_eq_ok.mpr ⟨not_lt.mpr h.trusted, ?_⟩
    refine bind_eq_ok.mpr ⟨true, h.permits, raiseIf_bind_eq_ok.mpr ⟨Bool.noConfusion, ?_⟩⟩
    refine bind_eq_ok.mpr ⟨d.profile, h.profileDigest, bind_eq_ok.mpr ⟨d.authority,
      h.authorityDigest, bind_eq_ok.mpr ⟨d.requirements, h.requirementsDigest, ?_⟩⟩⟩
    exact bind_eq_ok.mpr ⟨(), checkBindings_eq_ok.mpr h.bindings, rfl⟩

/-! ## Consumption -/

/-- `CapabilityConsumptionStore`: a store of consumed capabilities, by the name of the capability,
the digest of its claims, when it ends and when it is consumed. -/
structure ConsumptionStore (κ : Type) where
  consume : κ → String → String → ℤ → ℤ → Except Exn (κ × Bool)

/-- `_validate_transition`, on arguments of the right type. -/
def validateTransition (capabilityId claimsDigest : String) (expiresAt consumedAt : ℤ) :
    Except Exn Replay.Consumption :=
  Replay.validateTransition (.str capabilityId) (.str claimsDigest) (.int expiresAt)
    (.int consumedAt)

/-- What is said of a name that was consumed with other claims. -/
def collided : Exn :=
  ⟨.capabilityConsumptionError, "capability ID collided with different signed claims"⟩

/-- `InMemoryCapabilityConsumptionStore`. -/
def inMemoryConsumption : ConsumptionStore (Table String (String × ℤ)) where
  consume s capabilityId claimsDigest expiresAt consumedAt := do
    let _ ← validateTransition capabilityId claimsDigest expiresAt consumedAt
    match s.get? capabilityId with
    | some previous =>
      raiseIf (previous ≠ (claimsDigest, expiresAt)) collided
      return (s, false)
    | none => return (s.put capabilityId (claimsDigest, expiresAt), true)

/-- `SqliteCapabilityConsumptionStore`: the rows of the table under their primary key, each with the
digest of the claims, when the capability ends and when it was consumed. -/
def sqliteConsumption (namespaceName domain : String) :
    ConsumptionStore (Table (String × String × String) (String × ℤ × ℤ)) where
  consume s capabilityId claimsDigest expiresAt consumedAt := do
    let _ ← validateTransition capabilityId claimsDigest expiresAt consumedAt
    let key := (namespaceName, domain, capabilityId)
    match s.get? key with
    | none => return (s.insertNew key (claimsDigest, expiresAt, consumedAt), true)
    | some row =>
      raiseIf (row.1 ≠ claimsDigest ∨ row.2.1 ≠ expiresAt) collided
      return (s, false)

variable {κ σ : Type}

/-- `_consume_once`. Whatever goes wrong in the store is one and the same error. -/
def consumeOnce (store : ConsumptionStore κ) (s : κ) (claims : CapabilityClaims) (nowMs : ℤ) :
    Except Exn κ :=
  match digest (.obj claims.toDict) >>= fun claimsDigest ↦
    store.consume s claims.capabilityId claimsDigest claims.expiresAt nowMs with
  | .error _ => .error (denied "capability replay state unavailable")
  | .ok (_, false) => .error (denied "capability replay detected")
  | .ok (s', true) => .ok s'

/-! ## Redemption -/

/-- `except (TypeError, ValueError, DecayError) as exc: raise CapabilityError(...)`. -/
def asRedemptionDenied {α : Type} : Except Exn α → Except Exn α
  | .ok a => .ok a
  | .error e =>
    if e.cls.isTypeOrValueError ∨ e.cls = .decayError then
      .error (denied ("current decay authority denied redemption: " ++ e.message))
    else .error e

omit [Platform] [Interpreter] [Ed25519] in
theorem asRedemptionDenied_eq_ok {α : Type} {x : Except Exn α} {a : α} :
    asRedemptionDenied x = .ok a ↔ x = .ok a := by
  rcases x with e | y
  · rw [asRedemptionDenied]
    split <;> exact ⟨nofun, nofun⟩
  · exact Iff.rfl

/-- A verifier: its key, and the stores it was given. -/
structure CapabilityVerifier (κ σ : Type) where
  publicKey : Ed25519.PublicKey
  consumptionStore : ConsumptionStore κ
  decayStore : Decay.Store σ

/-- What a verifier has recorded. -/
structure VerifierState (κ σ : Type) where
  consumption : κ
  decay : σ

/-- The call of the decay engine. -/
def redeem (store : Decay.Store σ) (s : σ) (claims : CapabilityClaims) (request : ActionRequest)
    (nowMs : ℤ) : Except Exn σ :=
  asRedemptionDenied do
    let compiled ← CompiledTaskPolicyCeiling.fromDict claims.compiledCeiling
    let profile ← decayProfileForCeiling compiled claims.decayProfileVersion claims.issuedAt
      claims.expiresAt
    let (s, _) ← Decay.authorize store s claims.capabilityId profile claims.issuedAt
      { request := request, nowMs := nowMs }
    return s

/-- `verify_and_consume`. A capability that was consumed stays consumed when the decay engine denies
its redemption. -/
def CapabilityVerifier.verifyAndConsume (v : CapabilityVerifier κ σ) (s : VerifierState κ σ)
    (capability : IssuedCapability) (request : ActionRequest) (k : Context) (nowMs : ℤ) :
    VerifierState κ σ × Except Exn CapabilityClaims :=
  match verifiedClaims v.publicKey (capabilityKeyId v.publicKey) capability request k nowMs with
  | .error e => (s, .error e)
  | .ok claims =>
    match consumeOnce v.consumptionStore s.consumption claims nowMs with
    | .error e => (s, .error e)
    | .ok consumption =>
      match redeem v.decayStore s.decay claims request nowMs with
      | .error e => ({ s with consumption := consumption }, .error e)
      | .ok decay => (⟨consumption, decay⟩, .ok claims)

end Verify

/-! ## The parts, one after the other

Unfolding one of these functions in a proof has the kernel evaluate what it matches on. Below the
matches are functions of their own, and each is unfolded once.
-/

/-- What `_consume_once` makes of the answer of the store. -/
def accepted {κ : Type} : Except Exn (κ × Bool) → Except Exn κ
  | .error _ => .error (denied "capability replay state unavailable")
  | .ok (_, false) => .error (denied "capability replay detected")
  | .ok (s', true) => .ok s'

theorem accepted_eq_ok {κ : Type} {x : Except Exn (κ × Bool)} {s : κ} :
    accepted x = .ok s ↔ x = .ok (s, true) := by
  rcases x with e | ⟨s', b⟩
  · exact iff_of_false (fun h ↦ by cases h) fun h ↦ by cases h
  · cases b <;> simp [accepted]

/-- What comes after the checks: the store is asked, and then the decay engine. -/
def inTurn [Platform] {κ σ : Type} (s : VerifierState κ σ)
    (consume : CapabilityClaims → Except Exn κ)
    (redeem : CapabilityClaims → Except Exn σ) :
    Except Exn CapabilityClaims → VerifierState κ σ × Except Exn CapabilityClaims
  | .error e => (s, .error e)
  | .ok claims =>
    match consume claims with
    | .error e => (s, .error e)
    | .ok consumption =>
      match redeem claims with
      | .error e => ({ s with consumption := consumption }, .error e)
      | .ok decay => (⟨consumption, decay⟩, .ok claims)

section Parts

variable [Platform] {κ σ : Type} {s : VerifierState κ σ} {consume : CapabilityClaims → Except Exn κ}
  {draw : CapabilityClaims → Except Exn σ} {claims : CapabilityClaims}

/-- What happens, by how far it comes. -/
theorem inTurn_cases (x : Except Exn CapabilityClaims) :
    (∃ e, inTurn s consume draw x = (s, .error e)) ∨
    ∃ claims consumption, x = .ok claims ∧ consume claims = .ok consumption ∧
      (inTurn s consume draw x).1.consumption = consumption ∧
      ∀ claims', (inTurn s consume draw x).2 = .ok claims' → claims' = claims := by
  cases x with
  | error e => exact .inl ⟨e, rfl⟩
  | ok claims =>
    rw [inTurn]
    cases hconsume : consume claims with
    | error e => exact .inl ⟨e, rfl⟩
    | ok consumption =>
      refine .inr ⟨claims, consumption, rfl, hconsume, ?_⟩
      dsimp only
      cases draw claims with
      | error e => exact ⟨rfl, fun _ h ↦ by cases h⟩
      | ok decay => exact ⟨rfl, fun _ h ↦ (Except.ok.inj h).symm⟩

theorem inTurn_ok {consumption : κ} {decay : σ} (hconsume : consume claims = .ok consumption)
    (hdraw : draw claims = .ok decay) :
    inTurn s consume draw (.ok claims) = (⟨consumption, decay⟩, .ok claims) := by
  rw [inTurn, hconsume]
  dsimp only
  rw [hdraw]

theorem consumeOnce_eq (store : ConsumptionStore κ) (s : κ) (claims : CapabilityClaims)
    (nowMs : ℤ) :
    consumeOnce store s claims nowMs = accepted (digest (.obj claims.toDict) >>= fun claimsDigest ↦
      store.consume s claims.capabilityId claimsDigest claims.expiresAt nowMs) := by
  unfold consumeOnce
  generalize (digest (.obj claims.toDict) >>= fun claimsDigest ↦
    store.consume s claims.capabilityId claimsDigest claims.expiresAt nowMs) = x
  rcases x with e | ⟨s', b⟩
  · rfl
  · cases b <;> rfl

variable [Interpreter] [Ed25519]

theorem CapabilityVerifier.verifyAndConsume_eq (v : CapabilityVerifier κ σ) (s : VerifierState κ σ)
    (capability : IssuedCapability) (request : ActionRequest) (k : Context) (nowMs : ℤ) :
    v.verifyAndConsume s capability request k nowMs =
      inTurn s (fun claims ↦ consumeOnce v.consumptionStore s.consumption claims nowMs)
        (fun claims ↦ redeem v.decayStore s.decay claims request nowMs)
        (verifiedClaims v.publicKey (capabilityKeyId v.publicKey) capability request k nowMs) := by
  unfold CapabilityVerifier.verifyAndConsume
  generalize verifiedClaims v.publicKey (capabilityKeyId v.publicKey) capability request k nowMs = x
  cases x with
  | error e => rfl
  | ok claims => dsimp only [inTurn]

end Parts

end EventHorizon.Broker
