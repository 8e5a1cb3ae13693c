import EventHorizon.Broker.Ceiling
import EventHorizon.Policy.StaticCeiling

/-!
# Claims and issued capabilities

`CapabilityClaims` and `IssuedCapability` of `models.py`. The constructor of the claims checks every
field; `from_dict` checks the names first and then constructs. Claims that were constructed are read
back from their dictionary as they were, so a capability that is verified is the one that was
issued.
-/

namespace EventHorizon.Broker

open Policy
open Decay (payloadAt)

/-! ## Claims -/

structure ClaimFields where
  capabilityId : String
  issuedAt : ℤ
  expiresAt : ℤ
  sessionId : String
  agentId : String
  executorId : String
  deviceId : String
  executorMeasurement : String
  attestationDigest : String
  attestationBundleDigest : String
  verifierPolicyDigest : String
  taskId : String
  taskFingerprint : String
  tenant : String
  environment : String
  audience : String
  requestedTrust : String
  providerAttestedTrust : String
  effectiveTrust : String
  signedTrustConstraint : String
  attestationMethod : String
  attestationKeyId : String
  compiledCeiling : List (String × Json)
  compiledCeilingDigest : String
  guardianStateDigest : String
  decayProfileId : String
  decayProfileVersion : String
  decayProfileDigest : String
  initialAuthorityDigest : String
  refreshRequirementsDigest : String
  operation : String
  resourceId : String
  argumentsDigest : String
  requestDigest : String
  maxOutputBytes : ℤ
  invocationLimit : ℤ := 1
  signerKeyId : String := ""
  policyDigest : String := ""
  deriving DecidableEq

namespace ClaimFields

/-- The fields that have to be text. -/
def texts (c : ClaimFields) : List (String × String) := [
  ("session_id", c.sessionId), ("agent_id", c.agentId), ("executor_id", c.executorId),
  ("device_id", c.deviceId), ("task_id", c.taskId), ("tenant", c.tenant),
  ("environment", c.environment), ("audience", c.audience),
  ("attestation_method", c.attestationMethod), ("attestation_key_id", c.attestationKeyId),
  ("decay_profile_id", c.decayProfileId), ("decay_profile_version", c.decayProfileVersion),
  ("operation", c.operation), ("resource_id", c.resourceId)]

/-- The fields that have to be digests. -/
def digests (c : ClaimFields) : List (String × String) := [
  ("executor_measurement", c.executorMeasurement), ("attestation_digest", c.attestationDigest),
  ("attestation_bundle_digest", c.attestationBundleDigest),
  ("verifier_policy_digest", c.verifierPolicyDigest), ("task_fingerprint", c.taskFingerprint),
  ("compiled_ceiling_digest", c.compiledCeilingDigest),
  ("guardian_state_digest", c.guardianStateDigest),
  ("decay_profile_digest", c.decayProfileDigest),
  ("initial_authority_digest", c.initialAuthorityDigest),
  ("refresh_requirements_digest", c.refreshRequirementsDigest),
  ("arguments_digest", c.argumentsDigest), ("request_digest", c.requestDigest),
  ("policy_digest", c.policyDigest)]

/-- The fields that have to be trust tiers. -/
def tiers (c : ClaimFields) : List (String × String) := [
  ("requested_trust", c.requestedTrust), ("provider_attested_trust", c.providerAttestedTrust),
  ("effective_trust", c.effectiveTrust), ("signed_trust_constraint", c.signedTrustConstraint)]

variable [Platform]

/-- `CapabilityClaims.__post_init__`. -/
def postInit (c : ClaimFields) : Except Exn Unit := do
  raiseIf (isCapabilityId c.capabilityId = false) (invalid "capability_id is malformed")
  c.texts.forM fun f ↦ validatedText f.2 f.1
  c.digests.forM fun f ↦
    raiseIf (isDigest f.2 = false) (invalid (f.1 ++ " must be a lowercase SHA-256 digest"))
  c.tiers.forM fun f ↦
    raiseIf (tierOf? f.2 = none) (invalid (f.1 ++ " is not a supported trust tier"))
  raiseIf (hasFloatFields c.compiledCeiling = true)
    (invalid "floating-point request values are not permitted")
  let _ ← asInvalid "compiled ceiling is not canonical: " (canonicalBytes (.obj c.compiledCeiling))
  raiseIf (Json.lookup c.compiledCeiling "compiled_digest" ≠ some (.str c.compiledCeilingDigest))
    (invalid "compiled ceiling digest mismatch")
  raiseIf (isKeyId c.signerKeyId = false) (invalid "signer_key_id is malformed")
  raiseIf (¬(0 < c.expiresAt - c.issuedAt ∧ c.expiresAt - c.issuedAt ≤ 300000))
    (invalid "capability lifetime is invalid")
  raiseIf (¬(0 < c.maxOutputBytes ∧ c.maxOutputBytes ≤ 1048576))
    (invalid "invalid capability output limit")
  raiseIf (c.invocationLimit ≠ 1) (invalid "only one-use capabilities are supported")

/-- `to_dict`. -/
def toDict (c : ClaimFields) : List (String × Json) := [
  ("capability_id", .str c.capabilityId), ("issued_at", .int c.issuedAt),
  ("expires_at", .int c.expiresAt), ("session_id", .str c.sessionId), ("agent_id", .str c.agentId),
  ("executor_id", .str c.executorId), ("device_id", .str c.deviceId),
  ("executor_measurement", .str c.executorMeasurement),
  ("attestation_digest", .str c.attestationDigest),
  ("attestation_bundle_digest", .str c.attestationBundleDigest),
  ("verifier_policy_digest", .str c.verifierPolicyDigest), ("task_id", .str c.taskId),
  ("task_fingerprint", .str c.taskFingerprint), ("tenant", .str c.tenant),
  ("environment", .str c.environment), ("audience", .str c.audience),
  ("requested_trust", .str c.requestedTrust),
  ("provider_attested_trust", .str c.providerAttestedTrust),
  ("effective_trust", .str c.effectiveTrust),
  ("signed_trust_constraint", .str c.signedTrustConstraint),
  ("attestation_method", .str c.attestationMethod),
  ("attestation_key_id", .str c.attestationKeyId), ("compiled_ceiling", .obj c.compiledCeiling),
  ("compiled_ceiling_digest", .str c.compiledCeilingDigest),
  ("guardian_state_digest", .str c.guardianStateDigest),
  ("decay_profile_id", .str c.decayProfileId),
  ("decay_profile_version", .str c.decayProfileVersion),
  ("decay_profile_digest", .str c.decayProfileDigest),
  ("initial_authority_digest", .str c.initialAuthorityDigest),
  ("refresh_requirements_digest", .str c.refreshRequirementsDigest),
  ("operation", .str c.operation), ("resource_id", .str c.resourceId),
  ("arguments_digest", .str c.argumentsDigest), ("request_digest", .str c.requestDigest),
  ("max_output_bytes", .int c.maxOutputBytes), ("invocation_limit", .int c.invocationLimit),
  ("signer_key_id", .str c.signerKeyId), ("policy_digest", .str c.policyDigest)]

end ClaimFields

/-- Claims that were constructed. -/
structure CapabilityClaims [Platform] extends ClaimFields where
  valid : toClaimFields.postInit = .ok ()

/-- `CapabilityClaims.ALLOWED_FIELDS`. -/
def allowedFields : List String := ["capability_id", "issued_at", "expires_at", "session_id",
  "agent_id", "executor_id", "device_id", "executor_measurement", "attestation_digest",
  "attestation_bundle_digest", "verifier_policy_digest", "task_id", "task_fingerprint", "tenant",
  "environment", "audience", "requested_trust", "provider_attested_trust", "effective_trust",
  "signed_trust_constraint", "attestation_method", "attestation_key_id", "compiled_ceiling",
  "compiled_ceiling_digest", "guardian_state_digest", "decay_profile_id", "decay_profile_version",
  "decay_profile_digest", "initial_authority_digest", "refresh_requirements_digest", "operation",
  "resource_id", "arguments_digest", "request_digest", "max_output_bytes", "invocation_limit",
  "policy_digest", "signer_key_id"]

/-- The names of `string_fields`. -/
def stringFields : List String :=
  allowedFields.filter (· ∉ ["issued_at", "expires_at", "max_output_bytes", "invocation_limit",
    "compiled_ceiling"])

/-- A field that was found to be a string. -/
def stringAt (fields : List (String × Json)) (name : String) : String :=
  (payloadAt fields name).str?.getD ""

/-- A field whose type the constructor checks. -/
def intAt (fields : List (String × Json)) (name message : String) : Except Exn ℤ :=
  match (payloadAt fields name).int? with
  | some n => .ok n
  | none => .error (invalid message)

section Dictionaries

variable [Platform]

/-- The constructor of the claims, which carry the proof that it returned. -/
def CapabilityClaims.construct (c : ClaimFields) : Except Exn CapabilityClaims :=
  match h : c.postInit with
  | .ok () => .ok ⟨c, h⟩
  | .error e => .error e

theorem CapabilityClaims.construct_eq_ok {c : ClaimFields} {claims : CapabilityClaims} :
    construct c = .ok claims ↔ claims.toClaimFields = c := by
  constructor
  · intro h
    unfold construct at h
    split at h
    · exact Except.ok.inj h ▸ rfl
    · cases h
  · rintro rfl
    unfold construct
    split
    · rfl
    case h_2 e he => exact nomatch claims.valid.symm.trans he

variable [Interpreter]

/-- `CapabilityClaims.from_dict`. -/
def CapabilityClaims.fromDict (value : Json) : Except Exn CapabilityClaims :=
  match value with
  | .obj fields => do
    let unknown := (fields.map Prod.fst).filter (· ∉ allowedFields)
    let missing := allowedFields.filter (· ∉ fields.map Prod.fst)
    raiseIf (unknown ≠ [] ∨ missing ≠ [])
      (invalid ("invalid capability claim fields; unknown=" ++
        Interpreter.repr (strArray (sortUnique unknown)) ++ ", missing=" ++
        Interpreter.repr (strArray (sortUnique missing))))
    raiseIf (∃ name ∈ stringFields, stringAt fields name = "")
      (invalid "capability string claims must be non-empty strings")
    let compiledCeiling ← match (payloadAt fields "compiled_ceiling").fields? with
      | some rows => Except.ok rows
      | none => throw (invalid "compiled_ceiling must be an object")
    let issuedAt ← intAt fields "issued_at"
      "capability timestamps must be integer Unix milliseconds"
    let expiresAt ← intAt fields "expires_at"
      "capability timestamps must be integer Unix milliseconds"
    let maxOutputBytes ← intAt fields "max_output_bytes" "invalid capability output limit"
    let invocationLimit ← intAt fields "invocation_limit"
      "only one-use capabilities are supported"
    CapabilityClaims.construct {
      capabilityId := stringAt fields "capability_id"
      issuedAt, expiresAt
      sessionId := stringAt fields "session_id"
      agentId := stringAt fields "agent_id"
      executorId := stringAt fields "executor_id"
      deviceId := stringAt fields "device_id"
      executorMeasurement := stringAt fields "executor_measurement"
      attestationDigest := stringAt fields "attestation_digest"
      attestationBundleDigest := stringAt fields "attestation_bundle_digest"
      verifierPolicyDigest := stringAt fields "verifier_policy_digest"
      taskId := stringAt fields "task_id"
      taskFingerprint := stringAt fields "task_fingerprint"
      tenant := stringAt fields "tenant"
      environment := stringAt fields "environment"
      audience := stringAt fields "audience"
      requestedTrust := stringAt fields "requested_trust"
      providerAttestedTrust := stringAt fields "provider_attested_trust"
      effectiveTrust := stringAt fields "effective_trust"
      signedTrustConstraint := stringAt fields "signed_trust_constraint"
      attestationMethod := stringAt fields "attestation_method"
      attestationKeyId := stringAt fields "attestation_key_id"
      compiledCeiling
      compiledCeilingDigest := stringAt fields "compiled_ceiling_digest"
      guardianStateDigest := stringAt fields "guardian_state_digest"
      decayProfileId := stringAt fields "decay_profile_id"
      decayProfileVersion := stringAt fields "decay_profile_version"
      decayProfileDigest := stringAt fields "decay_profile_digest"
      initialAuthorityDigest := stringAt fields "initial_authority_digest"
      refreshRequirementsDigest := stringAt fields "refresh_requirements_digest"
      operation := stringAt fields "operation"
      resourceId := stringAt fields "resource_id"
      argumentsDigest := stringAt fields "arguments_digest"
      requestDigest := stringAt fields "request_digest"
      maxOutputBytes, invocationLimit
      signerKeyId := stringAt fields "signer_key_id"
      policyDigest := stringAt fields "policy_digest" }
  | _ => .error (invalid "capability claims must be an object")

/-! ## Issued capabilities -/

structure CapabilityFields where
  claims : CapabilityClaims
  signature : String
  keyId : String
  algorithm : String := "Ed25519"

/-- `IssuedCapability.__post_init__`. -/
def CapabilityFields.postInit (c : CapabilityFields) : Except Exn Unit := do
  raiseIf (c.algorithm ≠ "Ed25519") (invalid "capability algorithm must be Ed25519")
  raiseIf (isKeyId c.keyId = false) (invalid "capability key_id is malformed")
  raiseIf (isSignature c.signature = false)
    (invalid "capability signature is not canonical Ed25519 base64url")

/-- A capability that was constructed. -/
structure IssuedCapability extends CapabilityFields where
  valid : toCapabilityFields.postInit = .ok ()

namespace IssuedCapability

/-- The constructor of a capability, which carries the proof that it returned. -/
def construct (c : CapabilityFields) : Except Exn IssuedCapability :=
  match h : c.postInit with
  | .ok () => .ok ⟨c, h⟩
  | .error e => .error e

/-- `to_dict`. -/
def toDict (c : IssuedCapability) : Json := .obj [
  ("algorithm", .str c.algorithm), ("claims", .obj c.claims.toDict),
  ("signature", .str c.signature), ("key_id", .str c.keyId)]

/-- `IssuedCapability.from_dict`. -/
def fromDict (payload : Json) : Except Exn IssuedCapability :=
  match payload with
  | .obj fields => do
    raiseIf (Json.hasExactFields fields ["algorithm", "claims", "signature", "key_id"] = false)
      (invalid "capability envelope fields are invalid")
    let claims ← CapabilityClaims.fromDict (payloadAt fields "claims")
    construct {
      claims := claims
      signature := stringAt fields "signature"
      keyId := stringAt fields "key_id"
      algorithm := stringAt fields "algorithm" }
  | _ => .error (invalid "capability envelope fields are invalid")

omit [Interpreter] in
theorem construct_eq_ok {c : CapabilityFields} {capability : IssuedCapability} :
    construct c = .ok capability ↔ capability.toCapabilityFields = c := by
  constructor
  · intro h
    unfold construct at h
    split at h
    · exact Except.ok.inj h ▸ rfl
    · cases h
  · rintro rfl
    unfold construct
    split
    · rfl
    case h_2 e he => exact nomatch capability.valid.symm.trans he

end IssuedCapability

/-! ## Reading back -/

/-- The string claims with their names. -/
def ClaimFields.named (c : ClaimFields) : List (String × String) :=
  ("capability_id", c.capabilityId) :: ("signer_key_id", c.signerKeyId) ::
    (c.texts ++ c.digests ++ c.tiers)

/-- The names of the string claims. -/
def namedFields : List String := ["capability_id", "signer_key_id", "session_id", "agent_id",
  "executor_id", "device_id", "task_id", "tenant", "environment", "audience", "attestation_method",
  "attestation_key_id", "decay_profile_id", "decay_profile_version", "operation", "resource_id",
  "executor_measurement", "attestation_digest", "attestation_bundle_digest",
  "verifier_policy_digest", "task_fingerprint", "compiled_ceiling_digest", "guardian_state_digest",
  "decay_profile_digest", "initial_authority_digest", "refresh_requirements_digest",
  "arguments_digest", "request_digest", "policy_digest", "requested_trust",
  "provider_attested_trust", "effective_trust", "signed_trust_constraint"]

/-- What the constructor of the claims has checked. -/
structure ClaimFields.Valid (c : ClaimFields) : Prop where
  capabilityId : isCapabilityId c.capabilityId = true
  texts : ∀ f ∈ c.texts, validatedText f.2 f.1 = .ok ()
  digests : ∀ f ∈ c.digests, isDigest f.2 = true
  tiers : ∀ f ∈ c.tiers, ∃ t, tierOf? f.2 = some t
  noFloats : hasFloatFields c.compiledCeiling = false
  canonical : Canonicalizes 0 (.obj c.compiledCeiling)
  ceilingDigest : Json.lookup c.compiledCeiling "compiled_digest" =
    some (.str c.compiledCeilingDigest)
  signerKeyId : isKeyId c.signerKeyId = true
  lifetime : 0 < c.expiresAt - c.issuedAt ∧ c.expiresAt - c.issuedAt ≤ 300000
  outputLimit : 0 < c.maxOutputBytes ∧ c.maxOutputBytes ≤ 1048576
  oneUse : c.invocationLimit = 1

omit [Interpreter] in
theorem ClaimFields.postInit_eq_ok {c : ClaimFields} : c.postInit = .ok () ↔ c.Valid := by
  simp only [postInit, raiseIf_bind_eq_ok, raiseIf_eq_ok, forM_bind_eq_ok, asInvalid_bind_eq_ok,
    not_not, Bool.not_eq_false, Bool.not_eq_true, ← ne_eq, Option.ne_none_iff_exists']
  constructor
  · rintro ⟨h1, h2, h3, h4, h5, ⟨b, hb, h7, h8, h9, h10, h11⟩⟩
    exact ⟨h1, h2, h3, h4, h5, canonicalBytes_eq_ok.mp ⟨b, hb⟩, h7, h8, h9, h10, h11⟩
  · rintro ⟨h1, h2, h3, h4, h5, h6, h7, h8, h9, h10, h11⟩
    obtain ⟨b, hb⟩ := canonicalBytes_eq_ok.mpr h6
    exact ⟨h1, h2, h3, h4, h5, b, hb, h7, h8, h9, h10, h11⟩

omit [Interpreter] in
theorem isCanonicalString_of_isKeyId {s : String} (h : isKeyId s = true) : IsCanonicalString s := by
  rw [isKeyId, Bool.and_eq_true, Bool.and_eq_true, beq_iff_eq, beq_iff_eq] at h
  exact isCanonicalString_of_isAscii (isAscii_of_tagged (by decide +kernel) h.1.1 h.2)
    (h.1.2 ▸ by decide)

omit [Interpreter] in
/-- Claims that pass the checks are within the canonical limits, when the ceiling is so one level
down and the times are safe integers. -/
theorem ClaimFields.Valid.canonicalizes {c : ClaimFields} (h : c.Valid)
    (hceiling : Canonicalizes 1 (.obj c.compiledCeiling)) (hissued : 0 ≤ c.issuedAt)
    (hexpires : c.expiresAt ≤ maxSafeInteger) : Canonicalizes 0 (.obj c.toDict) := by
  have htexts : ∀ f ∈ c.texts, Canonicalizes 1 (.str f.2) :=
    fun f hf ↦ (validatedText_eq_ok.mp (h.texts f hf)).canonicalizes (by decide)
  have hdigests : ∀ f ∈ c.digests, Canonicalizes 1 (.str f.2) :=
    fun f hf ↦ (isText_of_isDigest (h.digests f hf)).canonicalizes (by decide)
  have htiers : ∀ f ∈ c.tiers, Canonicalizes 1 (.str f.2) := by
    intro f hf
    obtain ⟨t, ht⟩ := h.tiers f hf
    rw [← text_of_tierOf? ht]
    exact t.canonicalizes (by decide)
  simp only [ClaimFields.texts, ClaimFields.digests, ClaimFields.tiers, List.forall_mem_cons]
    at htexts hdigests htiers
  have hlifetime := h.lifetime
  have houtput := h.outputLimit
  have hint : ∀ {n : ℤ}, 0 ≤ n → n ≤ maxSafeInteger → Canonicalizes 1 (.int n) :=
    fun h0 hle ↦ canonicalizes_bounded ⟨h0, hle⟩ (by decide)
  refine canonicalizes_obj_of_isAscii (by simp only [toDict, List.map_cons, List.map_nil]; rfl)
    (by repeat refine plainKeys_cons (by decide) ?_
        rfl) (by decide) (by decide) ?_
  simp only [toDict, List.forall_mem_cons]
  refine ⟨canonicalizes_str.mpr ⟨by decide, isCanonicalString_of_isCapabilityId h.capabilityId⟩,
    hint hissued (by omega), hint (by omega) hexpires, ?_⟩
  simp only [htexts, hdigests, htiers, hceiling, h.oneUse, true_and]
  refine ⟨hint (by omega) (by simp only [maxSafeInteger]; omega),
    hint (by decide) (by decide),
    canonicalizes_str.mpr ⟨by decide, isCanonicalString_of_isKeyId h.signerKeyId⟩, ?_⟩
  simp

omit [Interpreter] in
theorem ClaimFields.Valid.named_ne_empty {c : ClaimFields} (h : c.Valid) :
    ∀ f ∈ c.named, f.2 ≠ "" := by
  have hdigest : ∀ {s : String}, isDigest s = true → s ≠ "" := by
    rintro s hs rfl
    exact Bool.noConfusion hs
  simp only [named, List.forall_mem_cons, List.forall_mem_append]
  refine ⟨?_, ?_, ⟨fun f hf ↦ ?_, fun f hf ↦ hdigest (h.digests f hf)⟩, fun f hf he ↦ ?_⟩
  · intro he
    exact Bool.noConfusion (he ▸ h.capabilityId : isCapabilityId "" = true)
  · intro he
    exact Bool.noConfusion (he ▸ h.signerKeyId : isKeyId "" = true)
  · have htext := (raiseIf_bind_eq_ok.mp (h.texts f hf)).1
    exact fun he ↦ htext (.inl he)
  · obtain ⟨t, ht⟩ := h.tiers f hf
    rw [he] at ht
    cases ht

omit [Platform] [Interpreter] in
theorem ClaimFields.stringAt_named (c : ClaimFields) :
    ∀ f ∈ c.named, stringAt c.toDict f.1 = f.2 := by
  simp only [named, texts, digests, tiers, List.cons_append, List.nil_append,
    List.forall_mem_cons]
  refine ⟨rfl, rfl, rfl, rfl, rfl, rfl, rfl, rfl, rfl, rfl, rfl, rfl, rfl, rfl, rfl, rfl, rfl, rfl,
    rfl, rfl, rfl, rfl, rfl, rfl, rfl, rfl, rfl, rfl, rfl, rfl, rfl, rfl, rfl, ?_⟩
  simp

/-- Claims that were constructed are read back from their dictionary. -/
theorem CapabilityClaims.fromDict_toDict (claims : CapabilityClaims) :
    fromDict (.obj claims.toDict) = .ok claims := by
  have hvalid := ClaimFields.postInit_eq_ok.mp claims.valid
  refine raiseIf_bind_eq_ok.mpr ⟨?_, raiseIf_bind_eq_ok.mpr ⟨?_, ?_⟩⟩
  · rintro (h | h)
    · exact h rfl
    · exact h rfl
  · rintro ⟨name, hname, hempty⟩
    have hnames : claims.named.map Prod.fst = namedFields := rfl
    have hsubset : stringFields ⊆ claims.named.map Prod.fst := by
      rw [hnames]
      decide
    obtain ⟨f, hf, rfl⟩ := List.mem_map.mp (hsubset hname)
    rw [claims.stringAt_named f hf] at hempty
    exact hvalid.named_ne_empty f hf hempty
  · exact construct_eq_ok.mpr rfl

/-- A capability that was constructed is read back from its dictionary. -/
theorem IssuedCapability.fromDict_toDict (c : IssuedCapability) : fromDict c.toDict = .ok c :=
  raiseIf_bind_eq_ok.mpr ⟨Bool.noConfusion,
    bind_eq_ok.mpr ⟨c.claims, c.claims.fromDict_toDict, construct_eq_ok.mpr rfl⟩⟩

end Dictionaries

end EventHorizon.Broker
