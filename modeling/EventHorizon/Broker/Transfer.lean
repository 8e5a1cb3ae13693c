import EventHorizon.Broker.OneUse

/-!
# Capabilities are not transferable

A capability that was issued for one request in one context is accepted for no other. Every field of
the context is compared with a signed field, and the request with its signed digest: when the digest
does not confuse the two payloads, they are the same.
-/

namespace EventHorizon

open Policy

section Payloads

variable [Platform]

/-- The digest does not confuse two values: it is the same only if their canonical forms are. -/
def TellsApart (v w : Json) : Prop :=
  ∀ x, digest v = .ok x → digest w = .ok x → canonical v = canonical w

/-- Objects with one canonical form have the same canonical values under the same keys. -/
theorem lookup_eq_of_canonicalValue_eq {d : ℕ} {fields gields : List (String × Json)} {v : Json}
    (hf : canonicalValue d (.obj fields) = .ok v) (hg : canonicalValue d (.obj gields) = .ok v)
    (key : String) : (Json.lookup fields key).map (canonicalValue (d + 1)) =
      (Json.lookup gields key).map (canonicalValue (d + 1)) := by
  obtain ⟨-, -, fields', rfl, -⟩ := canonicalValue_obj_eq_ok.mp hf
  rw [lookup_canonical hf key, lookup_canonical hg key]

/-- Two requests with the same canonical payload. -/
structure Policy.ActionRequest.SamePayload (r r' : ActionRequest) : Prop where
  canonical : canonical r.canonicalPayload = canonical r'.canonicalPayload
  requestId : r.requestId = r'.requestId
  sessionId : r.sessionId = r'.sessionId
  agentId : r.agentId = r'.agentId
  operation : r.operation = r'.operation
  resourceId : r.resourceId = r'.resourceId
  executorId : r.executorId = r'.executorId
  purpose : r.purpose = r'.purpose
  arguments : canonicalValue 1 (.obj r.arguments) = canonicalValue 1 (.obj r'.arguments)

theorem Policy.ActionRequest.samePayload_of_canonical_eq {r r' : ActionRequest} {v : Json}
    (h : canonical r.canonicalPayload = .ok v) (h' : canonical r'.canonicalPayload = .ok v) :
    r.SamePayload r' := by
  have hlookup := lookup_eq_of_canonicalValue_eq h h'
  have hr := r.isValid
  have hr' := r'.isValid
  have htext : ∀ {s s' : String}, IsCanonicalString s →
      some (canonicalValue 1 (.str s)) = some (canonicalValue 1 (.str s')) → s = s' := by
    intro s s' hs heq
    obtain ⟨v, hv⟩ := canonicalizes_str (d := 1).mpr ⟨by decide, hs⟩
    have hv' := (Option.some.inj heq).symm.trans hv
    exact Json.str.inj ((eq_of_canonicalValue_str hv).symm.trans (eq_of_canonicalValue_str hv'))
  exact {
    canonical := h.trans h'.symm
    requestId := htext hr.requestId.2.2 (hlookup "request_id")
    sessionId := htext hr.sessionId.2.2 (hlookup "session_id")
    agentId := htext hr.agentId.2.2 (hlookup "agent_id")
    operation := htext hr.operation.2.2 (hlookup "operation")
    resourceId := htext hr.resourceId.2.2 (hlookup "resource_id")
    executorId := htext hr.executorId.2.2 (hlookup "executor_id")
    purpose := htext hr.purpose (hlookup "purpose")
    arguments := Option.some.inj (hlookup "arguments") }

end Payloads

namespace Broker

variable [Platform] [Interpreter] [Ed25519] {κ σ : Type}

/-- What a verifier's context has in common with the issuance of a capability that it accepts. -/
structure SameContext (i : Issuance) (k : Context) : Prop where
  deviceId : k.deviceId = i.deviceId
  executorMeasurement : k.executorMeasurement = i.executorMeasurement
  resultDigest : Decay.payloadAt k.attestation "resultDigest" = .str i.trustState.attestationDigest
  bundleDigest : Decay.payloadAt k.attestation "bundleDigest" = .str i.trustState.bundleDigest
  attestedPolicyDigest :
    Decay.payloadAt k.attestation "verifierPolicyDigest" = .str i.trustState.verifierPolicyDigest
  verifierPolicyDigest : k.verifierPolicyDigest = i.trustState.verifierPolicyDigest
  policyDigest : k.policyDigest = i.policyDigest
  audience : k.audience = i.audience
  tenant : k.tenant = i.compiledCeiling.tenant
  environment : k.environment = i.compiledCeiling.environment
  trusted : ∃ trust, fromAttestation k.attestation i.trustState.requestedTrust.text = .ok trust ∧
    i.compiledCeiling.requiredTrustTier.order ≤ trust.effectiveTrust.order

variable {b : CapabilityBroker} {request request' : ActionRequest} {i : Issuance}
  {tokenHex : String} {issuedAt nowMs : ℤ} {capability : IssuedCapability} {k' : Context}

/-- A capability that passes the checks for a request in a context was issued for no other. -/
theorem sameContext_of_verified {d d' : CapabilityBroker.Digests} {profile : Decay.ProfileFields}
    {current : Current} {measurements : List (String × Json)}
    (hissued : CapabilityBroker.Issued b request i tokenHex issuedAt d profile capability)
    (hverified : Verified capability request' k' nowMs d' current measurements) :
    d.request = d'.request ∧ SameContext i k' := by
  have hbindings := hverified.bindings
  obtain ⟨trust, htrust, hrest⟩ := bind_eq_ok.mp hverified.rederived
  obtain ⟨compiled, -, hrest⟩ := bind_eq_ok.mp hrest
  obtain ⟨profile', -, hrest⟩ := bind_eq_ok.mp hrest
  obtain rfl := Except.ok.inj hrest
  have htrusted := hverified.trusted
  rw [hissued.claims] at hbindings htrust htrusted
  have hderived := derived_of_fromAttestation htrust
  simp only [contextBindings, List.forall_mem_cons, CapabilityBroker.claimFields] at hbindings
  obtain ⟨-, -, -, hdevice, hmeasurement, -, -, hattestation, hbundle, hverifier, hcurrent,
    -, -, -, -, hpolicy, haudience, htenant, henvironment, hbindings⟩ := hbindings
  obtain ⟨-, -, -, -, -, -, -, -, -, -, -, -, -, -, -, -, -, -, -, -, hrequest, -⟩ := hbindings
  refine ⟨hrequest, ?_⟩
  exact {
    deviceId := hdevice.symm
    executorMeasurement := hmeasurement.symm
    resultDigest := hattestation ▸ hderived.resultDigest
    bundleDigest := hbundle ▸ hderived.bundleDigest
    attestedPolicyDigest := hverifier ▸ hderived.verifierPolicyDigest
    verifierPolicyDigest := (hverifier.trans hcurrent).symm
    policyDigest := hpolicy.symm
    audience := haudience.symm
    tenant := htenant.symm
    environment := henvironment.symm
    trusted := ⟨trust, htrust, by
      simpa only [CapabilityBroker.claimFields, trustOrder, tierOf?_text, Option.map_some,
        Option.getD_some] using htrusted⟩ }

/-- A capability that was issued for a request in a context and is accepted for a request in a
context, in any state of the verifier's stores and at any time: the requests have the same canonical
payload, unless the digest confuses them, the contexts agree in all that was signed, and the trust
that the verifier derives is not below the signed constraint. -/
theorem not_transferable (v : CapabilityVerifier κ σ) (s : VerifierState κ σ)
    (hissue : b.issue request i tokenHex issuedAt = .ok capability) {claims : CapabilityClaims}
    (haccept : (v.verifyAndConsume s capability request' k' nowMs).2 = .ok claims)
    (hdigest : TellsApart request.canonicalPayload request'.canonicalPayload) :
    request.SamePayload request' ∧ SameContext i k' := by
  obtain ⟨d, profile, hissued⟩ := CapabilityBroker.exists_issued hissue
  obtain ⟨d', current, measurements, hverified⟩ : ∃ d' current measurements,
      Verified capability request' k' nowMs d' current measurements := by
    cases hclaims : verifiedClaims v.publicKey (capabilityKeyId v.publicKey) capability request' k'
      nowMs with
    | error e =>
      unfold CapabilityVerifier.verifyAndConsume at haccept
      rw [hclaims] at haccept
      cases haccept
    | ok claims => exact (verifiedClaims_eq_ok.mp hclaims).2.2
  obtain ⟨hrequest, hcontext⟩ := sameContext_of_verified hissued hverified
  have hsame := hdigest d.request hissued.requestDigest (hrequest ▸ hverified.requestDigest)
  obtain ⟨v, hv⟩ := exists_digest_eq_ok.mp ⟨_, hissued.requestDigest⟩
  exact ⟨ActionRequest.samePayload_of_canonical_eq hv (hsame.symm.trans hv), hcontext⟩

omit [Platform] [Interpreter] [Ed25519] in
/-- The capability of the sample is accepted for the request and in the context of its issuance. -/
theorem not_transferable_sample :
    let _ := pythonPlatform
    let _ := Sample.interpreter
    let _ := Sample.keyedHash
    ∃ (C : CompiledTaskPolicyCeiling) (capability : IssuedCapability),
      (Sample.verifier.verifyAndConsume Sample.start capability Policy.Sample.request
        (Sample.context C) 1000).2 = .ok capability.claims ∧
      Policy.Sample.request.SamePayload Policy.Sample.request ∧
      SameContext (Sample.issuance C) (Sample.context C) := by
  intro _ _ _
  obtain ⟨C, capability, hC, hissued⟩ := Sample.exists_issuedOnCeiling
  have hlasting : 1000 < capability.claims.expiresAt := by
    rw [hissued.expiresAt_eq.2, Sample.expiresAt_of_compiled hC]
    decide
  have haccept := hissued.attempt_eq_ok Sample.lawful_verifier (Sample.fresh_start _)
    (by decide : (0 : ℤ) ≤ 1000) (by decide : (1000 : ℤ) - 5000 ≤ 1000) hlasting
  unfold CapabilityVerifier.attempt at haccept
  exact ⟨C, capability, haccept,
    not_transferable Sample.verifier Sample.start hissued.issued haccept
    fun x _ _ ↦ rfl⟩

end Broker

end EventHorizon
