import EventHorizon.Broker.Verify

/-!
# One use of a capability

A capability that was issued on a compiled ceiling is accepted once. The issuer and the verifier
derive the trust state, the ceiling and the decay profile independently, the one from values and the
other from the dictionary that was signed; they derive the same, so every binding holds as long as
the capability lasts. The consumption store then accepts the name once and for all, and the decay
engine, which knows nothing of the capability yet, permits the request: the steps of the profile
that elapsed time can reach take away neither the call nor the resource.
-/

namespace EventHorizon

open Policy

/-! ## Saving a decay state -/

namespace Decay

variable [Platform]

/-- A store saves every state that is within the canonical limits. -/
def Store.Saves {σ : Type} (store : Store σ) : Prop :=
  ∀ (x : σ) (capabilityId : String) {s : DecayState}, Canonicalizes 0 s.toDict →
    ∃ y, store.save x capabilityId s = .ok y

theorem inMemory_saves : inMemory.Saves := fun _ _ _ _ ↦ ⟨_, rfl⟩

theorem sqlite_saves : sqlite.Saves := by
  rintro x capabilityId s ⟨payload, hpayload⟩
  obtain ⟨d, hd⟩ := exists_digest_eq_ok.mpr ⟨payload, hpayload⟩
  exact ⟨_, bind_eq_ok.mpr ⟨payload, hpayload, bind_eq_ok.mpr ⟨d, hd, rfl⟩⟩⟩

/-- The collections of an authority are text. -/
structure DecayAuthority.Textual (a : DecayAuthority) : Prop where
  networkDestinations : IsStrings a.networkDestinations
  tools : IsStrings a.tools
  actions : IsStrings a.actions
  resources : IsStrings a.resources
  argumentRanges : a.argumentRanges = []

theorem DecayAuthority.Textual.closedForm {profile : ProfileFields} {issuedAtMs elapsed : ℤ}
    {c : Counters} (h : profile.initialAuthority.Textual) :
    (closedForm profile issuedAtMs c elapsed).Textual where
  networkDestinations := h.networkDestinations.sublist without_sublist
  tools := h.tools.sublist without_sublist
  actions := h.actions.sublist without_sublist
  resources := h.resources.sublist without_sublist
  argumentRanges := h.argumentRanges

theorem DecayAuthority.Textual.canonicalizes {a : DecayAuthority} (h : a.Textual) (ha : a.Valid) :
    Canonicalizes 1 a.toDict := by
  have hranges : Canonicalizes 2 (.obj (a.argumentRanges.map fun row ↦
      (row.1, .arr [.int row.2.1, .int row.2.2]))) := by
    rw [h.argumentRanges]
    exact canonicalizes_obj.mpr ⟨by decide, by decide, by simp⟩
  refine canonicalizes_obj_of_isAscii (by simp only [List.map_cons, List.map_nil]; rfl)
    (by repeat refine plainKeys_cons (by decide) ?_
        rfl) (by decide) (by decide) ?_
  simp only [List.forall_mem_cons]
  refine ⟨canonicalizes_bounded ha.expiresAtMs (by decide),
    canonicalizes_bounded ha.remainingCalls (by decide),
    canonicalizes_bounded ha.remainingReadBytes (by decide),
    canonicalizes_bounded ha.remainingWriteBytes (by decide),
    canonicalizes_strArray h.networkDestinations (by decide),
    canonicalizes_strArray h.tools (by decide), canonicalizes_strArray h.actions (by decide),
    canonicalizes_strArray h.resources (by decide), hranges,
    canonicalizes_bounded ha.maximumParallelism (by decide),
    canonicalizes_bounded ha.maximumEffectSeverity (by decide), ?_⟩
  simp

/-- A step takes neither calls nor actions nor resources, and does not shorten the lifetime. -/
def DecayStep.Spares (step : DecayStep) : Prop :=
  step.maximumCalls = none ∧ step.removeActions = [] ∧ step.removeResources = [] ∧
    step.shortenExpirationToMs = none

/-- Steps that spare what a request needs leave it permitted. -/
theorem DecayAuthority.permits_reduced {a : DecayAuthority} {steps : List DecayStep}
    {issuedAtMs nowMs : ℤ} {r : ActionRequest} (h : ∀ step ∈ steps, step.Spares)
    (hp : a.permits r nowMs = true) : (a.reduced steps issuedAtMs).permits r nowMs = true := by
  obtain ⟨hexpires, hcalls, haction, hresource, hranges⟩ := of_decide_eq_true hp
  have hcapped : ∀ {f : DecayStep → Option ℤ} {m n : ℤ}, (∀ step ∈ steps, f step = none) → m ≤ n →
      m ≤ capped n (steps.map f) := by
    intro f m n hf hn
    refine le_capped_iff.mpr ⟨hn, ?_⟩
    rintro c hc b hb
    obtain ⟨step, hstep, rfl⟩ := List.mem_map.mp hc
    rw [hf step hstep] at hb
    cases hb
  have hwithout : ∀ {f : DecayStep → List String} {x : String} {xs : List String},
      (∀ step ∈ steps, f step = []) → x ∈ xs → x ∈ without xs (steps.map f) := by
    intro f x xs hf hx
    refine mem_without.mpr ⟨hx, fun ys hys ↦ ?_⟩
    obtain ⟨step, hstep, rfl⟩ := List.mem_map.mp hys
    rw [hf step hstep]
    exact List.not_mem_nil
  refine decide_eq_true ⟨?_, ?_, ?_, ?_, hranges⟩
  · have hle : nowMs + 1 ≤ (a.reduced steps issuedAtMs).expiresAtMs :=
      hcapped (fun step hstep ↦ by rw [DecayStep.expiration, (h step hstep).2.2.2, Option.map_none])
        hexpires
    exact hle
  · exact hcapped (fun step hstep ↦ (h step hstep).1) hcalls
  · exact hwithout (fun step hstep ↦ (h step hstep).2.1) haction
  · exact hwithout (fun step hstep ↦ (h step hstep).2.2.1) hresource

/-- The dictionary of a state that was constructed. -/
theorem DecayState.canonicalizes {s : DecayState} (hs : s.postInit = .ok s)
    (hid : IsCanonicalString s.capabilityId) (ha : Canonicalizes 1 s.currentAuthority.toDict) :
    Canonicalizes 0 s.toDict := by
  obtain ⟨-, hdigest, hnumbers⟩ := postInit_eq_ok.mp hs
  simp only [numbers, List.forall_mem_cons] at hnumbers
  obtain ⟨h1, h2, h3, h4, h5, h6, h7, h8, h9, h10, h11, -⟩ := hnumbers
  have hint : ∀ {n : ℤ}, 0 ≤ n ∧ n ≤ maxSafeInteger → Canonicalizes 1 (.int n) :=
    fun h ↦ canonicalizes_bounded h (by decide)
  refine canonicalizes_obj_of_isAscii (by simp only [List.map_cons, List.map_nil]; rfl)
    (by repeat refine plainKeys_cons (by decide) ?_
        rfl) (by decide) (by decide) ?_
  simp only [List.forall_mem_cons]
  refine ⟨canonicalizes_str.mpr ⟨by decide, hid⟩,
    (isText_of_isDigest hdigest).canonicalizes (by decide), hint h1, hint h2, hint h3, hint h4,
    hint h5, hint h6, hint h7, hint h8, hint h9, hint h10, hint h11, ha, ?_⟩
  simp

end Decay

namespace Broker

open Decay (DecayProfile DecayStep Call)

/-! ## Redemption -/

section Redemption

variable [Platform] {c : CompiledTaskPolicyCeiling} {trust : ProviderTrustState}
  {request : ActionRequest} {version : String} {issuedAtMs expiresAtMs nowMs : ℤ}
  {profile : DecayProfile}

theorem textual_initialAuthority (hc : c.CompiledFor trust)
    (h : (initialAuthority c expiresAtMs).Valid) : (initialAuthority c expiresAtMs).Textual where
  networkDestinations := hc.valid.networkDestinations
  tools := hc.valid.tools
  actions := hc.valid.actions
  resources := by
    refine ⟨h.resources.1, fun x hx ↦ ?_, pairwise_lt_sortUnique _⟩
    obtain ⟨row, hrow, hx⟩ := List.mem_flatMap.mp (mem_sortUnique.mp hx)
    exact (hc.normal.actionResources.2.1 row hrow).2.2.1 x hx
  argumentRanges := rfl

/-- The steps that a first call can reach spare what it needs: the canary step waits for an event
that nobody has reported. -/
theorem spares_of_reached {steps : List DecayStep} (hsteps : ∀ step ∈ steps,
      step = canaryStep ∨ step = midpointStep c issuedAtMs expiresAtMs) (call : Call)
    (hcall : call.observation.canaryEvents = 0) (elapsed : ℤ) :
    ∀ step ∈ Decay.reached steps ((Decay.observed call none).reading elapsed), step.Spares := by
  intro step hstep
  obtain ⟨hmem, hreached⟩ := Decay.mem_reached.mp hstep
  rcases hsteps step hmem with rfl | rfl
  · have hle : (1 : ℤ) ≤ 0 + call.observation.canaryEvents := hreached
    omega
  · exact ⟨rfl, rfl, rfl, rfl⟩

/-- A capability starts with an authority that permits what its ceiling permits. -/
theorem permits_initialAuthority (hcalls : 0 < c.maximumCalls)
    (hpermits : c.permits request = .ok true) (hnow : nowMs < expiresAtMs) :
    (initialAuthority c expiresAtMs).permits request nowMs = true := by
  obtain ⟨⟨⟩, -, h⟩ := bind_eq_ok.mp hpermits
  obtain ⟨-, -, haction, hresource, -⟩ := of_decide_eq_true (Except.ok.inj h)
  have hmin : 1 ≤ min 1 c.maximumCalls := le_min le_rfl hcalls
  refine decide_eq_true ⟨hnow, hmin, haction, mem_sortUnique.mpr ?_, by simp [initialAuthority]⟩
  cases hget : c.actionResources.get? request.operation with
  | none =>
    rw [hget] at hresource
    cases hresource
  | some values =>
    rw [hget] at hresource
    exact List.mem_flatMap.mpr ⟨_, Table.mem_of_get? hget, hresource⟩

/-- The decay engine authorises the first use of a capability. -/
theorem exists_authorize {σ : Type} {store : Decay.Store σ} (hsaves : store.Saves) {s : σ}
    {capabilityId profileDigest : String} (hload : store.load s capabilityId = .ok none)
    (hid : IsCanonicalString capabilityId) (hne : capabilityId ≠ "")
    (hc : c.CompiledFor trust) (hpermits : c.permits request = .ok true) {p : Decay.ProfileFields}
    (hp : decayProfileForCeiling c version issuedAtMs expiresAtMs = .ok p)
    (hdigest : p.profileDigest = .ok profileDigest) (hbegun : issuedAtMs - 5000 ≤ nowMs)
    (hnonneg : 0 ≤ nowMs) (hlasting : nowMs < expiresAtMs) :
    ∃ result, Decay.authorize store s capabilityId p issuedAtMs { request, nowMs } =
      .ok result := by
  obtain ⟨⟨-, hbound⟩, profile, rfl, hinitial, hsteps⟩ := exists_profile
    hc.normal.networkDestinations hc.normal.tools hc.normal.actions hp
  have hspares := spares_of_reached hsteps { request, nowMs } rfl
  have hexpirable : Decay.Expirable profile.toProfileFields issuedAtMs { request, nowMs } none := by
    intro step hstep n hn
    obtain ⟨hmem, -⟩ := Decay.mem_reached.mp hstep
    rcases hsteps step hmem with rfl | rfl <;> cases hn
  have htextual : profile.initialAuthority.Textual := by
    have hvalid := profile.initialValid
    rw [hinitial] at hvalid ⊢
    exact textual_initialAuthority hc hvalid
  have hconstructed : (Decay.record capabilityId profileDigest profile.toProfileFields issuedAtMs
      { request, nowMs } none).postInit = .ok (Decay.record capabilityId profileDigest
        profile.toProfileFields issuedAtMs { request, nowMs } none) := by
    refine Decay.DecayState.postInit_eq_ok.mpr ⟨hne, isDigest_of_digest_eq_ok hdigest, ?_⟩
    have hcounters : ∀ n ∈ [(1 : ℤ), 0, 0, 0, 0, 0, 0, 0, 0, 0], 0 ≤ n ∧ n ≤ maxSafeInteger := by
      decide
    exact List.forall_mem_cons.mpr ⟨⟨hnonneg, by
      simp only [Decay.record, Decay.effectiveNow]
      omega⟩, hcounters⟩
  have hvalid := Decay.valid_closedForm hexpirable
  obtain ⟨s', hsave⟩ := hsaves s capabilityId (Decay.DecayState.canonicalizes hconstructed hid
    (htextual.closedForm.canonicalizes hvalid))
  refine ⟨(s', _), (Decay.authorize_eq_ok hload (by simp)).mpr ⟨profileDigest, ?_, rfl⟩⟩
  exact {
    observation := (by decide : Decay.Observation.check {} = .ok ())
    clock := hbegun
    profileDigest := hdigest
    expirable := hexpirable
    permits := by
      refine Decay.DecayAuthority.permits_reduced (hspares _) ?_
      rw [show Decay.authorityOf profile.toProfileFields none = initialAuthority c expiresAtMs from
        hinitial]
      exact permits_initialAuthority hc.calls hpermits hlasting
    constructed := hconstructed
    saved := hsave }

end Redemption

/-! ## Verification -/

section Verification

variable [Platform] [Interpreter] [Ed25519] {b : CapabilityBroker} {request : ActionRequest}
  {i : Issuance} {k : Context} {tokenHex : String} {issuedAt nowMs : ℤ}
  {d : CapabilityBroker.Digests} {profile : Decay.ProfileFields} {capability : IssuedCapability}

/-- A redemption in the surroundings of an issuance: the trust state was derived from the
attestation, the attestation speaks of the device, the measurement and the request, and the rest is
the same. -/
structure Matches (request : ActionRequest) (i : Issuance) (k : Context) : Prop where
  trust : ∃ requested, fromAttestation k.attestation requested = .ok i.trustState
  attestedDevice : Json.lookup k.attestation "deviceId" = some (.str i.deviceId)
  attestedMeasurement : ∃ measurements,
    Json.lookup k.attestation "measurements" = some (.obj measurements) ∧
      Json.lookup measurements "executor" = some (.str i.executorMeasurement)
  nonceContext : (Decay.payloadAt k.attestation "nonceContext").pyEq
    (expectedNonceContext request) = true
  deviceId : k.deviceId = i.deviceId
  executorMeasurement : k.executorMeasurement = i.executorMeasurement
  verifierPolicyDigest : k.verifierPolicyDigest = i.trustState.verifierPolicyDigest
  policyDigest : k.policyDigest = i.policyDigest
  audience : k.audience = i.audience
  tenant : k.tenant = i.compiledCeiling.tenant
  environment : k.environment = i.compiledCeiling.environment

omit [Interpreter] in
/-- The issuer's key verifies what was issued, while it lasts. -/
theorem authentic_of_issued
    (h : CapabilityBroker.Issued b request i tokenHex issuedAt d profile capability)
    (hbegun : issuedAt - 5000 ≤ nowMs) (hlasting : nowMs < b.expiresAt i issuedAt) :
    Authentic b.publicKey b.keyId capability nowMs := by
  obtain ⟨bytes, hbytes, hsignature⟩ := h.signed
  refine ⟨h.keyId, by rw [h.claims]; rfl, ⟨_, bytes, ?_, hbytes, Ed25519.verify_sign _ _⟩, ?_, ?_⟩
  · rw [hsignature]
    exact strictSignature_spellSignature (Ed25519.length_sign _ _) (Ed25519.sign_lt _ _)
  · rw [h.claims]
    exact hbegun
  · rw [h.claims]
    exact hlasting

/-- The verifier derives what the issuer has derived. -/
theorem rederive_of_issued
    (h : CapabilityBroker.Issued b request i tokenHex issuedAt d profile capability)
    (hsealed : i.compiledCeiling.Sealed) (hk : Matches request i k) :
    rederive capability.claims.toClaimFields k.attestation =
      .ok ⟨i.trustState, i.compiledCeiling, profile⟩ := by
  obtain ⟨requested, htrust⟩ := hk.trust
  have hrequested := (derived_of_fromAttestation htrust).requestedTrust
  rw [h.claims]
  refine bind_eq_ok.mpr ⟨i.trustState, ?_, bind_eq_ok.mpr ⟨i.compiledCeiling, ?_,
    bind_eq_ok.mpr ⟨profile, h.derived, rfl⟩⟩⟩
  · rw [← htrust, ← hrequested]
    rfl
  · exact CompiledTaskPolicyCeiling.fromDict_toDict hsealed

/-- What was issued is verified in the surroundings of its issuance. -/
theorem verified_of_issued
    (h : CapabilityBroker.Issued b request i tokenHex issuedAt d profile capability)
    (hc : i.compiledCeiling.CompiledFor i.trustState) (hk : Matches request i k)
    (hlasting : nowMs < b.expiresAt i issuedAt) :
    ∃ measurements, Verified capability request k nowMs d
      ⟨i.trustState, i.compiledCeiling, profile⟩ measurements := by
  obtain ⟨measurements, hmeasurements, hexecutor⟩ := hk.attestedMeasurement
  obtain ⟨⟨⟩, -, hpermits⟩ := bind_eq_ok.mp h.permits
  obtain ⟨hagent, hworkload, -, -, -⟩ := of_decide_eq_true (Except.ok.inj hpermits)
  refine ⟨measurements, h.requestDigest, h.argumentsDigest, rederive_of_issued h hc.isSealed hk, ?_,
    hk.nonceContext, ?_, ?_, h.permits, h.profileDigest, h.authorityDigest,
    h.requirementsDigest, ?_⟩
  · rw [Decay.payloadAt, hmeasurements]
    rfl
  · calc nowMs < b.expiresAt i issuedAt := hlasting
      _ ≤ i.compiledCeiling.expiresAtMs := min_le_right _ _
      _ ≤ i.trustState.expiresAtMs := hc.expiresAtMs
  · rw [h.claims]
    simp only [CapabilityBroker.claimFields, trustOrder, tierOf?_text, Option.map_some,
      Option.getD_some]
    exact hc.trusted
  -- the bindings, in the order of the list
  · rw [h.claims]
    simp only [contextBindings, List.forall_mem_cons]
    refine ⟨rfl, rfl, rfl, hk.deviceId.symm, hk.executorMeasurement.symm, ?_, ?_, rfl, rfl, rfl,
      hk.verifierPolicyDigest.symm, rfl, rfl, rfl, rfl, hk.policyDigest.symm, hk.audience.symm,
      hk.tenant.symm, hk.environment.symm, rfl, rfl, rfl, rfl, rfl, rfl, rfl, rfl, rfl, hagent,
      hworkload, h.attestation.symm, h.bundle.symm, h.method.symm, h.key.symm, ?_,
      h.keyId.symm, rfl, rfl, rfl, rfl, by simp⟩
    · rw [hk.attestedDevice, hk.deviceId]
      rfl
    · rw [hexecutor, hk.executorMeasurement]
      rfl
    · exact congrArg TrustTier.text h.trust.symm

end Verification

/-! ## Stores of consumed capabilities -/

/-- What a store of consumed capabilities does with the names it has recorded: it accepts a name
that is not recorded, records what it accepts, accepts no recorded name, and forgets none. -/
structure ConsumptionStore.Lawful {κ : Type} (store : ConsumptionStore κ)
    (Consumed : κ → String → Prop) : Prop where
  accepts : ∀ {s : κ} {capabilityId claimsDigest : String} {expiresAt consumedAt : ℤ}
    {c : Replay.Consumption}, validateTransition capabilityId claimsDigest expiresAt consumedAt =
      .ok c → ¬Consumed s capabilityId →
    ∃ s', store.consume s capabilityId claimsDigest expiresAt consumedAt = .ok (s', true)
  records : ∀ {s s' : κ} {capabilityId claimsDigest : String} {expiresAt consumedAt : ℤ},
    store.consume s capabilityId claimsDigest expiresAt consumedAt = .ok (s', true) →
    Consumed s' capabilityId
  refuses : ∀ {s s' : κ} {capabilityId claimsDigest : String} {expiresAt consumedAt : ℤ},
    Consumed s capabilityId →
    store.consume s capabilityId claimsDigest expiresAt consumedAt ≠ .ok (s', true)
  keeps : ∀ {s s' : κ} {capabilityId claimsDigest other : String} {expiresAt consumedAt : ℤ}
    {accepted : Bool},
    store.consume s capabilityId claimsDigest expiresAt consumedAt = .ok (s', accepted) →
    Consumed s other → Consumed s' other

theorem inMemoryConsumption_lawful :
    inMemoryConsumption.Lawful fun s capabilityId ↦ (s.get? capabilityId).isSome where
  accepts {s capabilityId claimsDigest expiresAt consumedAt c} hc hnew := by
    rw [Bool.not_eq_true, Option.isSome_eq_false_iff, Option.isNone_iff_eq_none] at hnew
    refine ⟨s.put capabilityId (claimsDigest, expiresAt), bind_eq_ok.mpr ⟨c, hc, ?_⟩⟩
    rw [hnew]
    rfl
  records {s s' capabilityId claimsDigest expiresAt consumedAt} h := by
    obtain ⟨_, -, h⟩ := bind_eq_ok.mp h
    cases hget : s.get? capabilityId with
    | none =>
      rw [hget] at h
      obtain ⟨rfl, -⟩ := Prod.mk.inj (Except.ok.inj h)
      rw [Table.get?_put_self]
      rfl
    | some previous =>
      rw [hget] at h
      obtain ⟨-, h⟩ := raiseIf_bind_eq_ok.mp h
      cases h
  refuses {s s' capabilityId claimsDigest expiresAt consumedAt} hused h := by
    obtain ⟨_, -, h⟩ := bind_eq_ok.mp h
    obtain ⟨previous, hget⟩ := Option.isSome_iff_exists.mp hused
    rw [hget] at h
    obtain ⟨-, h⟩ := raiseIf_bind_eq_ok.mp h
    cases h
  keeps {s s' capabilityId claimsDigest other expiresAt consumedAt accepted} h hother := by
    obtain ⟨_, -, h⟩ := bind_eq_ok.mp h
    cases hget : s.get? capabilityId with
    | none =>
      rw [hget] at h
      obtain ⟨rfl, -⟩ := Prod.mk.inj (Except.ok.inj h)
      rw [Table.get?_put]
      split
      · rfl
      · exact hother
    | some previous =>
      rw [hget] at h
      obtain ⟨-, h⟩ := raiseIf_bind_eq_ok.mp h
      obtain ⟨rfl, -⟩ := Prod.mk.inj (Except.ok.inj h)
      exact hother

theorem sqliteConsumption_lawful (namespaceName domain : String) :
    (sqliteConsumption namespaceName domain).Lawful fun s capabilityId ↦
      (s.get? (namespaceName, domain, capabilityId)).isSome where
  accepts {s capabilityId claimsDigest expiresAt consumedAt c} hc hnew := by
    rw [Bool.not_eq_true, Option.isSome_eq_false_iff, Option.isNone_iff_eq_none] at hnew
    refine ⟨s.insertNew (namespaceName, domain, capabilityId) (claimsDigest, expiresAt, consumedAt),
      bind_eq_ok.mpr ⟨c, hc, ?_⟩⟩
    simp only [hnew]
    rfl
  records {s s' capabilityId claimsDigest expiresAt consumedAt} h := by
    obtain ⟨_, -, h⟩ := bind_eq_ok.mp h
    cases hget : s.get? (namespaceName, domain, capabilityId) with
    | none =>
      simp only [hget] at h
      obtain ⟨rfl, -⟩ := Prod.mk.inj (Except.ok.inj h)
      rw [Table.get?_insertNew, if_pos rfl]
      rfl
    | some row =>
      simp only [hget] at h
      obtain ⟨-, h⟩ := raiseIf_bind_eq_ok.mp h
      cases h
  refuses {s s' capabilityId claimsDigest expiresAt consumedAt} hused h := by
    obtain ⟨_, -, h⟩ := bind_eq_ok.mp h
    obtain ⟨row, hget⟩ := Option.isSome_iff_exists.mp hused
    simp only [hget] at h
    obtain ⟨-, h⟩ := raiseIf_bind_eq_ok.mp h
    cases h
  keeps {s s' capabilityId claimsDigest other expiresAt consumedAt accepted} h hother := by
    obtain ⟨_, -, h⟩ := bind_eq_ok.mp h
    cases hget : s.get? (namespaceName, domain, capabilityId) with
    | none =>
      simp only [hget] at h
      obtain ⟨rfl, -⟩ := Prod.mk.inj (Except.ok.inj h)
      rw [Table.get?_insertNew]
      split
      · rfl
      · exact hother
    | some row =>
      simp only [hget] at h
      obtain ⟨-, h⟩ := raiseIf_bind_eq_ok.mp h
      obtain ⟨rfl, -⟩ := Prod.mk.inj (Except.ok.inj h)
      exact hother

/-! ## Attempts -/

section Attempts

variable [Platform] [Interpreter] [Ed25519] {κ σ : Type}

/-- The arguments of one call of `verify_and_consume`. -/
structure Attempt where
  capability : IssuedCapability
  request : ActionRequest
  context : Context
  nowMs : ℤ

namespace CapabilityVerifier

variable (v : CapabilityVerifier κ σ)

@[irreducible] def attempt (s : VerifierState κ σ) (a : Attempt) :
    VerifierState κ σ × Except Exn CapabilityClaims :=
  v.verifyAndConsume s a.capability a.request a.context a.nowMs

/-- The state that a list of attempts leaves. -/
def run (s : VerifierState κ σ) (attempts : List Attempt) : VerifierState κ σ :=
  attempts.foldl (fun s a ↦ (v.attempt s a).1) s

theorem run_cons (s : VerifierState κ σ) (a : Attempt) (attempts : List Attempt) :
    v.run s (a :: attempts) = v.run (v.attempt s a).1 attempts := rfl

theorem run_append (s : VerifierState κ σ) (earlier later : List Attempt) :
    v.run s (earlier ++ later) = v.run (v.run s earlier) later :=
  List.foldl_append

/-- The binding, signature or time checks reject an attempt. -/
def Rejects (a : Attempt) : Prop :=
  ∃ e, verifiedClaims v.publicKey (capabilityKeyId v.publicKey) a.capability a.request a.context
    a.nowMs = .error e

/-- What a verifier relies on of its stores. -/
structure Lawful (Consumed : κ → String → Prop) : Prop where
  consumption : v.consumptionStore.Lawful Consumed
  decay : v.decayStore.Saves

/-- Nothing is recorded of a capability. -/
structure Fresh (Consumed : κ → String → Prop) (s : VerifierState κ σ) (capabilityId : String) :
    Prop where
  consumption : ¬Consumed s.consumption capabilityId
  decay : v.decayStore.load s.decay capabilityId = .ok none

variable {v} {Consumed : κ → String → Prop} {s : VerifierState κ σ} {a : Attempt}

/-- An attempt that the checks reject changes nothing. -/
theorem attempt_of_rejects (h : v.Rejects a) : ∃ e, v.attempt s a = (s, .error e) := by
  obtain ⟨e, he⟩ := h
  refine ⟨e, ?_⟩
  unfold attempt
  rw [verifyAndConsume_eq, he, inTurn]

theorem run_of_rejects {attempts : List Attempt} (h : ∀ a ∈ attempts, v.Rejects a) :
    v.run s attempts = s := by
  induction attempts with
  | nil => rfl
  | cons a attempts ih =>
    obtain ⟨ha, hrest⟩ := List.forall_mem_cons.mp h
    obtain ⟨e, he⟩ := attempt_of_rejects (s := s) ha
    rw [run, List.foldl_cons, he]
    exact ih hrest

/-- The checks reject a capability outside its time window. -/
theorem rejects_of_outside (h : a.nowMs < a.capability.claims.issuedAt - 5000 ∨
    a.capability.claims.expiresAt ≤ a.nowMs) : v.Rejects a := by
  cases hclaims : verifiedClaims v.publicKey (capabilityKeyId v.publicKey) a.capability a.request
    a.context a.nowMs with
  | error e => exact ⟨e, hclaims⟩
  | ok claims =>
    obtain ⟨hauthentic, -⟩ := verifiedClaims_eq_ok.mp hclaims
    have := hauthentic.begun
    have := hauthentic.lasting
    omega

omit [Interpreter] [Ed25519] in
/-- What an accepting store was asked. -/
theorem consumeOnce_eq_ok {store : ConsumptionStore κ} {x x' : κ} {claims : CapabilityClaims}
    {nowMs : ℤ} : consumeOnce store x claims nowMs = .ok x' ↔
      ∃ claimsDigest, digest (.obj claims.toDict) = .ok claimsDigest ∧
        store.consume x claims.capabilityId claimsDigest claims.expiresAt nowMs =
        .ok (x', true) := by
  rw [consumeOnce_eq, accepted_eq_ok, bind_eq_ok]

/-- What an attempt can do: it is rejected and changes nothing, or the store accepts the capability,
and then only the decay engine can deny it. -/
theorem attempt_cases (v : CapabilityVerifier κ σ) (s : VerifierState κ σ) (a : Attempt) :
    (∃ e, v.attempt s a = (s, .error e)) ∨
    ∃ x, consumeOnce v.consumptionStore s.consumption a.capability.claims a.nowMs = .ok x ∧
      (v.attempt s a).1.consumption = x := by
  unfold attempt
  rw [verifyAndConsume_eq]
  refine (inTurn_cases _).imp id ?_
  rintro ⟨claims, x, hclaims, hconsume, hstate, -⟩
  obtain ⟨-, rfl, -⟩ := verifiedClaims_eq_ok.mp hclaims
  exact ⟨x, hconsume, hstate⟩

/-- A capability that was consumed is rejected, and nothing changes. -/
theorem attempt_of_consumed (hv : v.Lawful Consumed)
    (h : Consumed s.consumption a.capability.claims.capabilityId) :
    ∃ e, v.attempt s a = (s, .error e) := by
  refine (attempt_cases v s a).resolve_right ?_
  rintro ⟨x, hx, -⟩
  obtain ⟨claimsDigest, -, hconsume⟩ := consumeOnce_eq_ok.mp hx
  exact hv.consumption.refuses h hconsume

/-- What was consumed stays so. -/
theorem consumed_attempt (hv : v.Lawful Consumed) {capabilityId : String}
    (h : Consumed s.consumption capabilityId) :
    Consumed (v.attempt s a).1.consumption capabilityId := by
  obtain ⟨e, he⟩ | ⟨x, hx, hstate⟩ := attempt_cases v s a
  · rw [he]
    exact h
  · obtain ⟨claimsDigest, -, hconsume⟩ := consumeOnce_eq_ok.mp hx
    rw [hstate]
    exact hv.consumption.keeps hconsume h

theorem consumed_run (hv : v.Lawful Consumed) {capabilityId : String} (attempts : List Attempt)
    (h : Consumed s.consumption capabilityId) :
    Consumed (v.run s attempts).consumption capabilityId := by
  induction attempts generalizing s with
  | nil => exact h
  | cons a attempts ih => exact ih (consumed_attempt hv h)

/-- An attempt that succeeds has consumed its capability. -/
theorem consumed_of_attempt (hv : v.Lawful Consumed) {claims : CapabilityClaims}
    (h : (v.attempt s a).2 = .ok claims) :
    Consumed (v.attempt s a).1.consumption a.capability.claims.capabilityId := by
  obtain ⟨e, he⟩ | ⟨x, hx, hstate⟩ := attempt_cases v s a
  · rw [he] at h
    cases h
  · obtain ⟨claimsDigest, -, hconsume⟩ := consumeOnce_eq_ok.mp hx
    rw [hstate]
    exact hv.consumption.records hconsume

omit [Interpreter] in
/-- The store accepts the claims of a capability that is not recorded. -/
theorem exists_consumeOnce (hv : v.Lawful Consumed) {claims : CapabilityClaims} {nowMs : ℤ}
    (hcanonical : ∃ bytes, canonicalBytes (.obj claims.toDict) = .ok bytes)
    (hissued : 0 ≤ claims.issuedAt) (hnow : 0 ≤ nowMs)
    (hnew : ¬Consumed s.consumption claims.capabilityId) :
    ∃ x, consumeOnce v.consumptionStore s.consumption claims nowMs = .ok x := by
  have hvalid := ClaimFields.postInit_eq_ok.mp claims.valid
  obtain ⟨claimsDigest, hdigest⟩ := exists_digest_eq_ok.mpr
    (canonicalBytes_eq_ok.mp hcanonical)
  have hlifetime := hvalid.lifetime
  have htransition : validateTransition claims.capabilityId claimsDigest claims.expiresAt nowMs =
      .ok ⟨claims.capabilityId, claimsDigest, claims.expiresAt, nowMs⟩ := by
    have htimes : ¬(claims.expiresAt ≤ 0 ∨ nowMs < 0) := by omega
    rw [validateTransition, Replay.validateTransition, hvalid.capabilityId,
      isDigest_of_digest_eq_ok hdigest]
    simp only [Bool.not_true, Bool.false_eq_true, if_false, if_neg htimes]
  obtain ⟨x, hx⟩ := hv.consumption.accepts htransition hnew
  exact ⟨x, consumeOnce_eq_ok.mpr ⟨claimsDigest, hdigest, hx⟩⟩

omit [Interpreter] in
/-- The decay engine permits the first use of what was issued. -/
theorem exists_redeem {b : CapabilityBroker} {request : ActionRequest} {i : Issuance}
    {tokenHex : String} {issuedAt nowMs : ℤ} {d : CapabilityBroker.Digests}
    {profile : Decay.ProfileFields} {capability : IssuedCapability} (hv : v.Lawful Consumed)
    (h : CapabilityBroker.Issued b request i tokenHex issuedAt d profile capability)
    (hc : i.compiledCeiling.CompiledFor i.trustState)
    (hload : v.decayStore.load s.decay capability.claims.capabilityId = .ok none)
    (hnow : 0 ≤ nowMs) (hbegun : issuedAt - 5000 ≤ nowMs)
    (hlasting : nowMs < b.expiresAt i issuedAt) :
    ∃ x, redeem v.decayStore s.decay capability.claims request nowMs = .ok x := by
  have hvalid := ClaimFields.postInit_eq_ok.mp capability.claims.valid
  obtain ⟨bytes, hbytes, -⟩ := h.signed
  have hid : IsCanonicalString capability.claims.capabilityId := by
    obtain ⟨-, -, hfields⟩ := canonicalizes_obj.mp (canonicalBytes_eq_ok.mp ⟨bytes, hbytes⟩)
    exact (canonicalizes_str.mp (hfields _ (List.mem_cons_self ..)).2.2).2
  have hne : capability.claims.capabilityId ≠ "" := by
    intro he
    exact Bool.noConfusion (he ▸ hvalid.capabilityId : isCapabilityId "" = true)
  obtain ⟨⟨x, evaluation⟩, hx⟩ := exists_authorize hv.decay hload hid hne hc h.permits h.derived
    h.profileDigest hbegun hnow hlasting
  rw [h.claims] at hx
  refine ⟨x, ?_⟩
  rw [redeem, asRedemptionDenied_eq_ok, h.claims]
  exact bind_eq_ok.mpr ⟨_, CompiledTaskPolicyCeiling.fromDict_toDict hc.isSealed,
    bind_eq_ok.mpr ⟨_, h.derived, bind_eq_ok.mpr ⟨_, hx, rfl⟩⟩⟩

end CapabilityVerifier

/-- A capability for a request, issued on a ceiling that was compiled for the trust state of an
attestation, with the surroundings in which it is to be redeemed by a verifier. -/
structure IssuedOnCeiling (v : CapabilityVerifier κ σ) (b : CapabilityBroker)
    (request : ActionRequest) (i : Issuance) (tokenHex : String) (issuedAt : ℤ) (k : Context)
    (capability : IssuedCapability) : Prop where
  publicKey : v.publicKey = b.publicKey
  compiled : ∃ (compiler : TrustedPolicyCompiler) (task : TaskDescription)
    (candidate : CandidateTaskPolicyCeiling) (reductions : List AuthorityReduction)
    (approvedHumanGates : List String) (nowMs : ℤ),
      compiler.compile task candidate reductions approvedHumanGates nowMs = .ok i.compiledCeiling ∧
        task.providerAttestedTrust = i.trustState
  surroundings : Matches request i k
  issued : b.issue request i tokenHex issuedAt = .ok capability

namespace IssuedOnCeiling

variable {v : CapabilityVerifier κ σ} {b : CapabilityBroker} {request : ActionRequest}
  {i : Issuance} {tokenHex : String} {issuedAt nowMs : ℤ} {k : Context}
  {capability : IssuedCapability} {Consumed : κ → String → Prop} {s : VerifierState κ σ}

theorem compiledFor (h : IssuedOnCeiling v b request i tokenHex issuedAt k capability) :
    i.compiledCeiling.CompiledFor i.trustState := by
  obtain ⟨compiler, task, candidate, reductions, gates, nowMs, hcompile, htrust⟩ := h.compiled
  rw [← htrust]
  exact TrustedPolicyCompiler.compiledFor hcompile

theorem expiresAt_eq (h : IssuedOnCeiling v b request i tokenHex issuedAt k capability) :
    capability.claims.issuedAt = issuedAt ∧
      capability.claims.expiresAt = b.expiresAt i issuedAt := by
  obtain ⟨d, profile, hissued⟩ := CapabilityBroker.exists_issued h.issued
  rw [hissued.claims]
  exact ⟨rfl, rfl⟩

/-- The first attempt in the window succeeds. -/
theorem attempt_eq_ok (h : IssuedOnCeiling v b request i tokenHex issuedAt k capability)
    (hv : v.Lawful Consumed) (hfresh : v.Fresh Consumed s capability.claims.capabilityId)
    (hnow : 0 ≤ nowMs) (hbegun : issuedAt - 5000 ≤ nowMs)
    (hlasting : nowMs < capability.claims.expiresAt) :
    (v.attempt s ⟨capability, request, k, nowMs⟩).2 = .ok capability.claims := by
  have hc := h.compiledFor
  rw [h.expiresAt_eq.2] at hlasting
  obtain ⟨d, profile, hissued⟩ := CapabilityBroker.exists_issued h.issued
  have hclaims : verifiedClaims v.publicKey (capabilityKeyId v.publicKey) capability request k
      nowMs = .ok capability.claims := by
    obtain ⟨measurements, hverified⟩ := verified_of_issued hissued hc h.surroundings hlasting
    rw [h.publicKey]
    exact verifiedClaims_eq_ok.mpr ⟨authentic_of_issued hissued hbegun hlasting, rfl, d, _,
      measurements, hverified⟩
  have hissuedAt : 0 ≤ capability.claims.issuedAt := by
    rw [h.expiresAt_eq.1]
    exact (exists_profile hc.normal.networkDestinations hc.normal.tools hc.normal.actions
      hissued.derived).1.1
  obtain ⟨bytes, hbytes, -⟩ := hissued.signed
  obtain ⟨x, hx⟩ := CapabilityVerifier.exists_consumeOnce hv ⟨bytes, hbytes⟩ hissuedAt hnow
    hfresh.consumption
  obtain ⟨y, hy⟩ := CapabilityVerifier.exists_redeem hv hissued hc hfresh.decay hnow hbegun hlasting
  have hturn : inTurn s
      (fun claims ↦ consumeOnce v.consumptionStore s.consumption claims nowMs)
      (fun claims ↦ redeem v.decayStore s.decay claims request nowMs) (.ok capability.claims) =
      (⟨x, y⟩, .ok capability.claims) := inTurn_ok hx hy
  unfold CapabilityVerifier.attempt
  rw [CapabilityVerifier.verifyAndConsume_eq, hclaims, hturn]

/-- A capability that was issued on a compiled ceiling is accepted once. Attempts that the binding,
signature or time checks reject may come before: they change nothing. The first attempt at a time of
the window, from the epoch on, succeeds; any attempt with the capability after that, at any time and
for any request in any context, is rejected and changes nothing; and so is any attempt outside the
window. -/
theorem accepted_once (h : IssuedOnCeiling v b request i tokenHex issuedAt k capability)
    (hv : v.Lawful Consumed) (hfresh : v.Fresh Consumed s capability.claims.capabilityId)
    {earlier : List Attempt} (hearlier : ∀ a ∈ earlier, v.Rejects a) :
    (∀ nowMs, 0 ≤ nowMs → issuedAt - 5000 ≤ nowMs → nowMs < capability.claims.expiresAt →
      (v.attempt (v.run s earlier) ⟨capability, request, k, nowMs⟩).2 = .ok capability.claims ∧
      ∀ (later : List Attempt) (request' : ActionRequest) (k' : Context) (nowMs' : ℤ),
        ∃ e, v.attempt (v.run s (earlier ++ ⟨capability, request, k, nowMs⟩ :: later))
            ⟨capability, request', k', nowMs'⟩ =
          (v.run s (earlier ++ ⟨capability, request, k, nowMs⟩ :: later), .error e)) ∧
    (∀ nowMs, nowMs < issuedAt - 5000 ∨ capability.claims.expiresAt ≤ nowMs →
      v.Rejects ⟨capability, request, k, nowMs⟩) ∧
    ∀ (s : VerifierState κ σ) (a : Attempt), v.Rejects a → ∃ e, v.attempt s a = (s, .error e) := by
  refine ⟨fun nowMs hnow hbegun hlasting ↦ ?_, fun nowMs houtside ↦ ?_,
    fun s a ha ↦ CapabilityVerifier.attempt_of_rejects ha⟩
  · have hsame : v.run s earlier = s := CapabilityVerifier.run_of_rejects hearlier
    have hfirst := h.attempt_eq_ok hv hfresh hnow hbegun hlasting
    refine ⟨by rewrite [hsame]; exact hfirst, fun later request' k' nowMs' ↦ ?_⟩
    apply CapabilityVerifier.attempt_of_consumed hv
    rewrite [CapabilityVerifier.run_append, hsame, CapabilityVerifier.run_cons]
    exact CapabilityVerifier.consumed_run hv later
      (CapabilityVerifier.consumed_of_attempt hv hfirst)
  · apply CapabilityVerifier.rejects_of_outside
    rw [h.expiresAt_eq.1]
    exact houtside

end IssuedOnCeiling

end Attempts

/-- Nothing is consumed before the epoch. -/
theorem nonneg_of_validateTransition {capabilityId claimsDigest : String} {expiresAt consumedAt : ℤ}
    {c : Replay.Consumption}
    (h : validateTransition capabilityId claimsDigest expiresAt consumedAt = .ok c) :
    0 ≤ consumedAt := by
  rw [validateTransition, Replay.validateTransition] at h
  split at h
  · cases h
  split at h
  · cases h
  split at h
  · cases h
  · omega

/-! ## A small capability

The task of the policy's sample in the trust state of an attestation, and a capability for its
request. Digests stay names: no proof evaluates one. -/

namespace Sample

attribute [local instance] pythonPlatform

/-- The interpreter on the times of the sample. -/
@[reducible] def interpreter : Interpreter where
  fromIsoformat s :=
    if s = "1970-01-01T00:00:00+00:00" then some ⟨0, true⟩
    else if s = "1970-01-01T00:01:40+00:00" then some ⟨100000, true⟩
    else none
  repr
    | .null => "None"
    | .bool true => "True"
    | .bool false => "False"
    | _ => ""

/-- A keyed hash in the place of Ed25519. -/
@[reducible] def keyedHash : Ed25519 where
  PrivateKey := List ℕ
  PublicKey := List ℕ
  publicKey := id
  publicBytes := id
  sign key data := (Platform.sha256 (key ++ data)).toList.map Char.toNat
  verify key signature data :=
    decide (signature = (Platform.sha256 (key ++ data)).toList.map Char.toNat)
  length_sign key data := by
    have hdigest := Platform.isDigest_sha256 (key ++ data)
    rw [isDigest, Bool.and_eq_true, beq_iff_eq] at hdigest
    rw [List.length_map, hdigest.1]
  sign_lt key data x hx := by
    have hdigest := isAscii_of_isDigest (Platform.isDigest_sha256 (key ++ data))
    obtain ⟨c, hc, rfl⟩ := List.mem_map.mp hx
    have hlt : c.toNat < 128 := of_decide_eq_true (List.all_eq_true.mp hdigest c hc)
    exact hlt.trans (by decide : 128 < 256)
  verify_sign key data := decide_eq_true rfl

attribute [local instance] interpreter keyedHash

def measurement : String := "eeeeeeeeeeeeeeeeeeeeeeeeeeeeeeeeeeeeeeeeeeeeeeeeeeeeeeeeeeeeeeee"

/-- An attestation of the executor for the request, without its digest. -/
def unsignedAttestation : List (String × Json) := [
  ("valid", .bool true), ("deviceId", .str "device-1"), ("method", .str "static-development"),
  ("trustLevel", .str "software"), ("keyId", .str "key-1"),
  ("measurements", .obj [("executor", .str measurement)]),
  ("bundleDigest", .str "bbbbbbbbbbbbbbbbbbbbbbbbbbbbbbbbbbbbbbbbbbbbbbbbbbbbbbbbbbbbbbbb"),
  ("verifiedAt", .str "1970-01-01T00:00:00Z"),
  ("verifierPolicyDigest", .str "cccccccccccccccccccccccccccccccccccccccccccccccccccccccccccccccc"),
  ("nonceExpiresAt", .str "1970-01-01T00:01:40Z"),
  ("nonceContext", expectedNonceContext Policy.Sample.request)]

@[irreducible] def attestationDigest : String :=
  (digest (.obj unsignedAttestation)).toOption.getD ""

theorem digest_unsignedAttestation : digest (.obj unsignedAttestation) = .ok attestationDigest := by
  have hcanonical : Canonicalizes 0 (.obj unsignedAttestation) := by decide +kernel
  unfold attestationDigest
  exact Policy.Sample.eq_ok_getD (exists_digest_eq_ok.mpr hcanonical)

def attestation : List (String × Json) :=
  unsignedAttestation ++ [("resultDigest", .str attestationDigest)]

def trust : ProviderTrustState where
  requestedTrust := .software
  observedTrust := .software
  providerAttestedTrust := .software
  effectiveTrust := .software
  method := "static-development"
  keyId := "key-1"
  attestationDigest := attestationDigest
  bundleDigest := "bbbbbbbbbbbbbbbbbbbbbbbbbbbbbbbbbbbbbbbbbbbbbbbbbbbbbbbbbbbbbbbb"
  verifierPolicyDigest := "cccccccccccccccccccccccccccccccccccccccccccccccccccccccccccccccc"
  verifiedAtMs := 0
  expiresAtMs := 100000

theorem isDigest_attestationDigest : isDigest attestationDigest = true :=
  isDigest_of_digest_eq_ok digest_unsignedAttestation

theorem postInit_trust : trust.postInit = .ok () := by
  simp only [ProviderTrustState.postInit, text_bind_eq_ok, digestText_bind_eq_ok,
    nonnegative_bind_eq_ok, positive_bind_eq_ok, raiseIf_bind_eq_ok, raiseIf_eq_ok]
  exact ⟨(by decide +kernel : IsText 32 "software"), (by decide +kernel : IsText 32 "software"),
    (by decide +kernel : IsText 32 "software"), (by decide +kernel : IsText 32 "software"),
    (by decide +kernel : IsText 64 "static-development"), (by decide +kernel : IsText 128 "key-1"),
    isDigest_attestationDigest,
    (by decide +kernel :
      isDigest "bbbbbbbbbbbbbbbbbbbbbbbbbbbbbbbbbbbbbbbbbbbbbbbbbbbbbbbbbbbbbbbb" = true),
    (by decide +kernel :
      isDigest "cccccccccccccccccccccccccccccccccccccccccccccccccccccccccccccccc" = true),
    (by decide : (0 : ℤ) ≤ 0 ∧ (0 : ℤ) ≤ maxSafeInteger),
    (by decide : (0 : ℤ) < 100000 ∧ (100000 : ℤ) ≤ maxSafeInteger),
    (by decide : ¬(100000 : ℤ) ≤ 0),
    (by decide : ¬TrustTier.software.order ≠ min TrustTier.software.order TrustTier.software.order)⟩

theorem fromAttestation_attestation : fromAttestation attestation "software" = .ok trust := by
  have htext : ∀ {s label : String} {n : ℕ}, IsText n s → textOf (.str s) label n = .ok s :=
    fun h ↦ text_eq_ok.mpr ⟨h, rfl⟩
  have hdigest : ∀ {s label : String}, isDigest s = true → digestOf (.str s) label = .ok s :=
    fun h ↦ digestText_eq_ok.mpr ⟨⟨isText_of_isDigest h, h⟩, rfl⟩
  refine raiseIf_bind_eq_ok.mpr
    ⟨not_not.mpr (by decide : requiredFields ⊆ ["valid", "deviceId", "method", "trustLevel",
    "keyId", "measurements", "bundleDigest",
      "verifiedAt", "verifierPolicyDigest", "nonceExpiresAt", "nonceContext", "resultDigest"]), ?_⟩
  refine raiseIf_bind_eq_ok.mpr ⟨fun h ↦ h rfl, ?_⟩
  refine bind_eq_ok.mpr ⟨attestationDigest, digest_unsignedAttestation, ?_⟩
  refine raiseIf_bind_eq_ok.mpr ⟨fun h ↦ h rfl, ?_⟩
  refine bind_eq_ok.mpr ⟨"static-development", htext (by decide +kernel), ?_⟩
  refine bind_eq_ok.mpr ⟨"software", htext (by decide +kernel), ?_⟩
  refine raiseIf_bind_eq_ok.mpr ⟨fun h ↦ h rfl, ?_⟩
  refine bind_eq_ok.mpr ⟨0, by decide +kernel, ?_⟩
  refine bind_eq_ok.mpr ⟨100000, by decide +kernel, ?_⟩
  refine bind_eq_ok.mpr ⟨"key-1", htext (by decide +kernel), ?_⟩
  refine bind_eq_ok.mpr ⟨attestationDigest, hdigest isDigest_attestationDigest, ?_⟩
  refine bind_eq_ok.mpr ⟨trust.bundleDigest, hdigest (by decide +kernel), ?_⟩
  refine bind_eq_ok.mpr ⟨trust.verifierPolicyDigest, hdigest (by decide +kernel), ?_⟩
  refine bind_eq_ok.mpr ⟨.software, by decide +kernel, ?_⟩
  exact bind_eq_ok.mpr ⟨(), postInit_trust, rfl⟩

theorem serves_trust : Policy.Sample.Serves trust where
  effectiveTrust := rfl
  expiresAtMs := rfl
  method := by decide +kernel
  keyId := by decide +kernel
  attestationDigest := isDigest_attestationDigest
  bundleDigest := by decide +kernel

def task : TaskDescription where
  toTaskFields := Policy.Sample.taskIn trust
  valid := TaskFields.postInit_withTrust trust Policy.Sample.task.valid
  trustValid := postInit_trust

@[irreducible] def fingerprint : String := task.taskFingerprint.toOption.getD ""

theorem taskFingerprint_task : task.taskFingerprint = .ok fingerprint := by
  unfold fingerprint
  exact Policy.Sample.eq_ok_getD
    (exists_digest_eq_ok.mpr (Policy.Sample.canonicalizes_taskIn postInit_trust))

def candidate : CandidateTaskPolicyCeiling where
  toCandidateFields := Policy.Sample.candidateFor fingerprint
  valid := CandidateFields.postInit_withFingerprint (isDigest_of_digest_eq_ok taskFingerprint_task)
    Policy.Sample.postInit_candidateFields
  distinctResources := by decide
  distinctArguments := by decide

/-- The compilation of the sample. -/
def Compiled (C : CompiledTaskPolicyCeiling) : Prop :=
  (Policy.Sample.compiler ["agent-1"]).compile task candidate [Policy.Sample.reduction] [] 0 = .ok C

theorem exists_compiled : ∃ C, Compiled C :=
  Policy.Sample.exists_compile_of_serves ["agent-1"] serves_trust rfl rfl taskFingerprint_task

/-- The ceiling with made-up digests: the decay profile does not depend on them. -/
def plain : CompiledTaskPolicyCeiling :=
  (Policy.Sample.compiler ["agent-1"]).ceiling Policy.Sample.taskFields
    Policy.Sample.candidateFields
    [] 0 [Policy.Sample.reduction] measurement measurement

def broker : CapabilityBroker where
  privateKey := [1, 2, 3]
  ttlMs := 30000
  ttl_pos := by decide
  ttl_le := by decide

def policyDigest : String := "dddddddddddddddddddddddddddddddddddddddddddddddddddddddddddddddd"

def guardianStateDigest : String :=
  "9999999999999999999999999999999999999999999999999999999999999999"

def issuance (C : CompiledTaskPolicyCeiling) : Issuance where
  deviceId := "device-1"
  executorMeasurement := measurement
  trustState := trust
  compiledCeiling := C
  policyDigest := policyDigest
  maxOutputBytes := 1024
  guardianStateDigest := guardianStateDigest

theorem decayProfileForCeiling_congr {c c' : CompiledTaskPolicyCeiling} {version : String}
    {issuedAtMs expiresAtMs : ℤ} (hexpires : c.expiresAtMs = c'.expiresAtMs)
    (hprofile : c.decayProfile = c'.decayProfile)
    (hnetwork : c.networkDestinations = c'.networkDestinations)
    (hinitial : initialAuthority c expiresAtMs = initialAuthority c' expiresAtMs) :
    decayProfileForCeiling c version issuedAtMs expiresAtMs =
      decayProfileForCeiling c' version issuedAtMs expiresAtMs := by
  simp only [decayProfileForCeiling, profileSteps, midpointStep, hexpires, hprofile, hnetwork,
    hinitial]

theorem exists_profile_plain :
    ∃ profile, decayProfileForCeiling plain "v1" 1000 31000 = .ok profile ∧
    Canonicalizes 0 profile.toDict ∧ Canonicalizes 0 profile.initialAuthority.toDict ∧
      Canonicalizes 0 (strArray profile.refreshRequirements) := by
  have hcheck : (match decayProfileForCeiling plain "v1" 1000 31000 with
    | .ok profile => decide (Canonicalizes 0 profile.toDict ∧
        Canonicalizes 0 profile.initialAuthority.toDict ∧
        Canonicalizes 0 (strArray profile.refreshRequirements))
    | .error _ => false) = true := by
    decide +kernel
  split at hcheck
  · rename_i profile hprofile
    exact ⟨profile, hprofile, of_decide_eq_true hcheck⟩
  · cases hcheck

/-- The ceiling of the sample, whatever the digests in it are. -/
def ceilingWith (t : ProviderTrustState) (f candidateDigest reductionsDigest x : String) :
    CompiledTaskPolicyCeiling :=
  { (Policy.Sample.compiler ["agent-1"]).ceiling (Policy.Sample.taskIn t)
      (Policy.Sample.candidateFor f) [] 0 [Policy.Sample.reduction] candidateDigest
      reductionsDigest with compiledDigest := x }

theorem exists_ceilingWith {C : CompiledTaskPolicyCeiling} (hC : Compiled C) :
    ∃ candidateDigest reductionsDigest x,
      C = ceilingWith trust fingerprint candidateDigest reductionsDigest x := by
  obtain ⟨-, candidateDigest, reductionsDigest, x, -, -, -, -, rfl⟩ :=
    TrustedPolicyCompiler.finish_eq_ok.mp (TrustedPolicyCompiler.compile_eq_ok.mp hC).2.2
  exact ⟨candidateDigest, reductionsDigest, x, rfl⟩

section CeilingWith

variable {t : ProviderTrustState} {f candidateDigest reductionsDigest x version : String}
  {issuedAtMs expiresAtMs : ℤ}

theorem expiresAtMs_ceilingWith (ht : Policy.Sample.Serves t) :
    (ceilingWith t f candidateDigest reductionsDigest x).expiresAtMs = 60000 := by
  have hexpiration := Policy.Sample.expiration_eq ht
  exact hexpiration

theorem decayProfileForCeiling_ceilingWith (ht : Policy.Sample.Serves t) :
    decayProfileForCeiling (ceilingWith t f candidateDigest reductionsDigest x) version issuedAtMs
      expiresAtMs = decayProfileForCeiling plain version issuedAtMs expiresAtMs := by
  refine decayProfileForCeiling_congr ?_ rfl rfl rfl
  exact (expiresAtMs_ceilingWith ht).trans (by decide +kernel)

end CeilingWith

theorem expiresAt_of_compiled {C : CompiledTaskPolicyCeiling} (hC : Compiled C) :
    broker.expiresAt (issuance C) 1000 = 31000 := by
  obtain ⟨candidateDigest, reductionsDigest, x, rfl⟩ := exists_ceilingWith hC
  rw [CapabilityBroker.expiresAt, show (issuance (ceilingWith trust fingerprint candidateDigest
    reductionsDigest x)).compiledCeiling.expiresAtMs =
    60000 from expiresAtMs_ceilingWith serves_trust]
  rfl

/-- A name for the capability. -/
def tokenHex : String := "000000000000000000000001"

/-- A capability is issued on the ceiling, a second after the epoch. -/
theorem exists_issue {C : CompiledTaskPolicyCeiling} (hC : Compiled C) :
    ∃ capability, broker.issue Policy.Sample.request (issuance C) tokenHex 1000 =
    .ok capability := by
  have hcompiled := TrustedPolicyCompiler.compiledFor hC
  have hlasting := expiresAt_of_compiled hC
  obtain ⟨profile, hprofile, hcanonical, hauthority, hrequirements⟩ := exists_profile_plain
  obtain ⟨candidateDigest, reductionsDigest, x, rfl⟩ := exists_ceilingWith hC
  have hexpires : (ceilingWith trust fingerprint candidateDigest reductionsDigest x).expiresAtMs =
      60000 := expiresAtMs_ceilingWith serves_trust
  rw [← decayProfileForCeiling_ceilingWith serves_trust] at hprofile
  exact CapabilityBroker.Issuable.exists_issue {
    isSealed := hcompiled.isSealed
    ceilingValid := hcompiled.valid
    ceilingNormal := hcompiled.normal
    permits := Policy.Sample.permits_request rfl rfl hC
    trustValid := postInit_trust
    attestation := rfl
    bundle := rfl
    key := rfl
    method := rfl
    trust := rfl
    fresh := (by decide : (1000 : ℤ) < 100000)
    guardianState := (by decide +kernel : isDigest guardianStateDigest = true)
    policyDigest := (by decide +kernel : isDigest policyDigest = true)
    deviceId := (by decide +kernel : IsText 256 "device-1")
    executorMeasurement := (by decide +kernel : isDigest measurement = true)
    audience := (by decide +kernel : IsText 256 "effect-executor")
    decayProfileVersion := (by decide +kernel : IsText 256 "v1")
    token := by decide +kernel
    begun := by decide
    lasting := by
      have hlt : (1000 : ℤ) < 60000 := by decide
      exact hexpires ▸ hlt
    outputLimit := (by decide : (0 : ℤ) < 1024 ∧ (1024 : ℤ) ≤ 1048576)
    arguments := (by decide : (Json.obj [("offset", .int 0)]).height < maxCanonicalDepth)
    derived := hlasting ▸ hprofile
    profileCanonical := hcanonical
    authorityCanonical := hauthority
    requirementsCanonical := hrequirements }

/-- The surroundings of the issuance. -/
def context (C : CompiledTaskPolicyCeiling) : Context where
  attestation := attestation
  deviceId := "device-1"
  executorMeasurement := measurement
  verifierPolicyDigest := trust.verifierPolicyDigest
  policyDigest := policyDigest
  audience := "effect-executor"
  tenant := C.tenant
  environment := C.environment

theorem matches_context (C : CompiledTaskPolicyCeiling) :
    Matches Policy.Sample.request (issuance C) (context C) where
  trust := ⟨"software", fromAttestation_attestation⟩
  attestedDevice := rfl
  attestedMeasurement := ⟨[("executor", .str measurement)], rfl, rfl⟩
  nonceContext := (by decide +kernel : (expectedNonceContext Policy.Sample.request).pyEq
    (expectedNonceContext Policy.Sample.request) = true)
  deviceId := rfl
  executorMeasurement := rfl
  verifierPolicyDigest := rfl
  policyDigest := rfl
  audience := rfl
  tenant := rfl
  environment := rfl

/-- A verifier on the stores of one process. -/
def verifier : CapabilityVerifier (Table String (String × ℤ)) (Table String Decay.DecayState) where
  publicKey := broker.publicKey
  consumptionStore := inMemoryConsumption
  decayStore := Decay.inMemory

theorem lawful_verifier :
    verifier.Lawful fun s capabilityId ↦ (s.get? capabilityId).isSome = true where
  consumption := inMemoryConsumption_lawful
  decay := Decay.inMemory_saves

/-- Nothing was recorded yet. -/
def start : VerifierState (Table String (String × ℤ)) (Table String Decay.DecayState) := ⟨[], []⟩

theorem fresh_start (capabilityId : String) :
    verifier.Fresh (fun s capabilityId ↦ (s.get? capabilityId).isSome =
    true) start capabilityId where
  consumption := Bool.noConfusion
  decay := rfl

/-- A verifier on the stores of a database. -/
def durable : CapabilityVerifier (Table (String × String × String) (String × ℤ × ℤ))
    (Table String (Json × String)) where
  publicKey := broker.publicKey
  consumptionStore := sqliteConsumption "lab" "broker"
  decayStore := Decay.sqlite

theorem lawful_durable : durable.Lawful fun s capabilityId ↦
    (s.get? ("lab", "broker", capabilityId)).isSome = true where
  consumption := sqliteConsumption_lawful "lab" "broker"
  decay := Decay.sqlite_saves

theorem fresh_durable (capabilityId : String) :
    durable.Fresh (fun s capabilityId ↦ (s.get? ("lab", "broker", capabilityId)).isSome = true)
      ⟨[], []⟩ capabilityId where
  consumption := Bool.noConfusion
  decay := rfl

/-- A capability on the ceiling of the sample. -/
theorem exists_issuedOnCeiling : ∃ C capability, Compiled C ∧
    IssuedOnCeiling verifier broker Policy.Sample.request (issuance C) tokenHex 1000 (context C)
      capability := by
  obtain ⟨C, hC⟩ := exists_compiled
  obtain ⟨capability, hcapability⟩ := exists_issue hC
  exact ⟨C, capability, hC, rfl, ⟨_, task, candidate, _, [], 0, hC, rfl⟩, matches_context C,
    hcapability⟩

end Sample

/-- The capability of the sample is accepted at the moment of its issuance, and then no more, by
either of the two verifiers. -/
theorem accepted_once_sample :
    let _ := pythonPlatform
    let _ := Sample.interpreter
    let _ := Sample.keyedHash
    ∃ (C : CompiledTaskPolicyCeiling) (capability : IssuedCapability),
      IssuedOnCeiling Sample.verifier Sample.broker Policy.Sample.request (Sample.issuance C)
        Sample.tokenHex 1000 (Sample.context C) capability ∧
      let a : Attempt := ⟨capability, Policy.Sample.request, Sample.context C, 1000⟩
      (Sample.verifier.attempt Sample.start a).2 = .ok capability.claims ∧
        (∃ e, Sample.verifier.attempt (Sample.verifier.run Sample.start [a]) a =
          (Sample.verifier.run Sample.start [a], .error e)) ∧
      (Sample.durable.attempt ⟨[], []⟩ a).2 = .ok capability.claims ∧
        ∃ e, Sample.durable.attempt (Sample.durable.run ⟨[], []⟩ [a]) a =
          (Sample.durable.run ⟨[], []⟩ [a], .error e) := by
  intro _ _ _
  obtain ⟨C, capability, hC, hissued⟩ := Sample.exists_issuedOnCeiling
  have hlasting : 1000 < capability.claims.expiresAt := by
    rw [hissued.expiresAt_eq.2, Sample.expiresAt_of_compiled hC]
    decide
  obtain ⟨hfirst, hlater⟩ := (hissued.accepted_once Sample.lawful_verifier (Sample.fresh_start _)
    (List.forall_mem_nil _)).1 1000 (by decide) (by decide) hlasting
  have hdurable : IssuedOnCeiling Sample.durable Sample.broker Policy.Sample.request
      (Sample.issuance C) Sample.tokenHex 1000 (Sample.context C) capability :=
    ⟨rfl, hissued.compiled, hissued.surroundings, hissued.issued⟩
  obtain ⟨hfirst', hlater'⟩ := (hdurable.accepted_once Sample.lawful_durable
    (Sample.fresh_durable _) (List.forall_mem_nil _)).1 1000 (by decide) (by decide) hlasting
  exact ⟨C, capability, hissued, hfirst, hlater [] _ _ _, hfirst', hlater' [] _ _ _⟩

/-- An attempt before the epoch fails, although it lies in the window of the capability. -/
theorem rejected_before_epoch :
    let _ := pythonPlatform
    let _ := Sample.interpreter
    let _ := Sample.keyedHash
    ∃ (C : CompiledTaskPolicyCeiling) (capability : IssuedCapability),
      IssuedOnCeiling Sample.verifier Sample.broker Policy.Sample.request (Sample.issuance C)
        Sample.tokenHex 1000 (Sample.context C) capability ∧
      (1000 - 5000 : ℤ) ≤ -1 ∧ -1 < capability.claims.expiresAt ∧
      ∃ e, Sample.verifier.attempt Sample.start
          ⟨capability, Policy.Sample.request, Sample.context C, -1⟩ = (Sample.start, .error e) := by
  intro _ _ _
  obtain ⟨C, capability, hC, hissued⟩ := Sample.exists_issuedOnCeiling
  refine ⟨C, capability, hissued, by decide, ?_, ?_⟩
  · rw [hissued.expiresAt_eq.2, Sample.expiresAt_of_compiled hC]
    decide
  · refine (CapabilityVerifier.attempt_cases _ _ _).resolve_right ?_
    rintro ⟨x, hx, -⟩
    obtain ⟨claimsDigest, -, hconsume⟩ := CapabilityVerifier.consumeOnce_eq_ok.mp hx
    obtain ⟨c, hc, -⟩ := bind_eq_ok.mp hconsume
    exact absurd (nonneg_of_validateTransition hc) (by decide : ¬(0 : ℤ) ≤ -1)

end Broker

end EventHorizon
