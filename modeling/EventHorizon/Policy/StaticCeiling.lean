import EventHorizon.Policy.Reductions

/-!
# Ceilings and the static policy

What a compiled ceiling permits, against what the static policy of its compiler allows. The compiler
looks at operations, resources and argument keys and intersects them with the rules of the policy.
It does not look at the agent and the executor: those of the task go into the ceiling as they are,
whether or not the policy allows them. And the policy answers with digests, so it answers only for
requests and policies that have them.
-/

namespace EventHorizon.Policy

section Requests

variable [Platform]

omit [Platform] in
theorem asInvalid_bind_eq_ok {α β : Type} {label : String} {x : Except Exn α} {f : α → Except Exn β}
    {b : β} : (asInvalid label x >>= f) = .ok b ↔ ∃ a, x = .ok a ∧ f a = .ok b := by
  rw [bind_eq_ok]
  cases x with
  | error e => simp [asInvalid]
  | ok a => simp [asInvalid]

theorem canonicalBytes_eq_ok {v : Json} : (∃ b, canonicalBytes v = .ok b) ↔ Canonicalizes 0 v := by
  rw [Canonicalizes]
  constructor
  · rintro ⟨b, hb⟩
    obtain ⟨v', hv, -⟩ := map_eq_ok.mp hb
    exact ⟨v', hv⟩
  · rintro ⟨v', hv⟩
    exact ⟨spell v', map_eq_ok.mpr ⟨v', hv, rfl⟩⟩

theorem validatedText_eq_ok {value name : String} :
    validatedText value name = .ok () ↔ IsText 256 value := by
  rw [validatedText, raiseIf_bind_eq_ok, asInvalid_bind_eq_ok, not_or, not_lt, IsText]
  constructor
  · rintro ⟨⟨hne, hle⟩, b, hb, -⟩
    exact ⟨hne, hle, (canonicalizes_str.mp (canonicalBytes_eq_ok.mp ⟨b, hb⟩)).2⟩
  · rintro ⟨hne, hle, hs⟩
    obtain ⟨b, hb⟩ := canonicalBytes_eq_ok.mpr (canonicalizes_str.mpr ⟨Nat.zero_le _, hs⟩)
    exact ⟨⟨hne, hle⟩, b, hb, rfl⟩

/-- What the constructor of a request has checked. -/
structure RequestFields.Valid (r : RequestFields) : Prop where
  requestId : IsText 256 r.requestId
  sessionId : IsText 256 r.sessionId
  agentId : IsText 256 r.agentId
  operation : IsText 256 r.operation
  resourceId : IsText 256 r.resourceId
  executorId : IsText 256 r.executorId
  purpose : IsCanonicalString r.purpose
  arguments : Canonicalizes 0 (.obj r.arguments)

theorem ActionRequest.isValid (r : ActionRequest) : r.toRequestFields.Valid := by
  have h := r.valid
  rw [RequestFields.postInit] at h
  obtain ⟨⟨⟩, h1, h⟩ := bind_eq_ok.mp h
  obtain ⟨⟨⟩, h2, h⟩ := bind_eq_ok.mp h
  obtain ⟨⟨⟩, h3, h⟩ := bind_eq_ok.mp h
  obtain ⟨⟨⟩, h4, h⟩ := bind_eq_ok.mp h
  obtain ⟨⟨⟩, h5, h⟩ := bind_eq_ok.mp h
  obtain ⟨⟨⟩, h6, h⟩ := bind_eq_ok.mp h
  obtain ⟨-, h⟩ := raiseIf_bind_eq_ok.mp h
  obtain ⟨b, hpurpose, h⟩ := asInvalid_bind_eq_ok.mp h
  obtain ⟨c, harguments, -⟩ := asInvalid_bind_eq_ok.mp h
  simp only [validatedText_eq_ok] at h1 h2 h3 h4 h5 h6
  exact ⟨h1, h2, h3, h4, h5, h6, (canonicalizes_str.mp (canonicalBytes_eq_ok.mp ⟨b, hpurpose⟩)).2,
    canonicalBytes_eq_ok.mp ⟨c, harguments⟩⟩

/-- A request has a digest when its arguments nest one level less than the limit: the request puts
them one level deeper than the check of its constructor. -/
theorem ActionRequest.exists_requestDigest (r : ActionRequest) :
    (∃ x, r.requestDigest = .ok x) ↔ (Json.obj r.arguments).height < maxCanonicalDepth := by
  have h := r.isValid
  have hdepth : Canonicalizes (0 + 1) (.obj r.arguments) ↔
      (Json.obj r.arguments).height < maxCanonicalDepth := by
    rw [canonicalizes_iff_height]
    exact ⟨fun h ↦ by omega, fun hlt ↦ ⟨h.arguments, by omega⟩⟩
  rw [requestDigest, exists_digest_eq_ok, canonicalPayload, ← hdepth]
  constructor
  · intro hpayload
    obtain ⟨-, -, hfields⟩ := canonicalizes_obj.mp hpayload
    exact (hfields ("arguments", .obj r.arguments) (by simp)).2.2
  · intro hargs
    have htext : ∀ {s : String}, IsText 256 s → Canonicalizes 1 (.str s) :=
      fun hs ↦ hs.canonicalizes (by decide)
    refine canonicalizes_obj_of_isAscii (by simp only [List.map_cons, List.map_nil]; rfl)
      (by repeat refine plainKeys_cons (by decide) ?_
          rfl) (by decide) (by decide) ?_
    simp only [List.forall_mem_cons]
    refine ⟨htext h.requestId, htext h.sessionId, htext h.agentId, htext h.operation,
      htext h.resourceId, htext h.executorId, hargs, ?_, by simp⟩
    exact canonicalizes_str.mpr ⟨by decide, h.purpose⟩

end Requests

theorem CompiledTaskPolicyCeiling.permits_withDigest [Platform] {c : CompiledTaskPolicyCeiling}
    {x : String} {r : ActionRequest} (h : verifyIntegrity { c with compiledDigest := x } = .ok ()) :
    permits { c with compiledDigest := x } r = .ok true ↔ r.agentId = c.subjectId ∧
      r.executorId = c.workloadIdentity ∧ r.operation ∈ c.actions ∧
      r.resourceId ∈ c.resourcesOf r.operation ∧
      keysOf r.arguments ⊆ c.argumentKeysOf r.operation := by
  rw [permits, h]
  exact ⟨fun h ↦ of_decide_eq_true (Except.ok.inj h), fun h ↦ congrArg Except.ok (decide_eq_true h)⟩

namespace TrustedPolicyCompiler

variable [Platform] {k : TrustedPolicyCompiler} {task : TaskDescription}
  {candidate : CandidateTaskPolicyCeiling} {rs : List AuthorityReduction}
  {approvedHumanGates : List String} {nowMs : ℤ} {C : CompiledTaskPolicyCeiling} {r : ActionRequest}

theorem permits_iff (hC : k.compile task candidate rs approvedHumanGates nowMs = .ok C) :
    C.permits r = .ok true ↔ r.agentId = task.requestingSubject ∧
      r.executorId = task.workloadIdentity ∧
      r.operation ∈ k.actionsLeft candidate.toCandidateFields rs ∧
      r.resourceId ∈ resourcesLeft candidate.toCandidateFields rs r.operation ∧
      keysOf r.arguments ⊆ proposedArguments candidate.toCandidateFields r.operation := by
  obtain ⟨-, cd, rd, x, -, -, -, hx, rfl⟩ := finish_eq_ok.mp (compile_eq_ok.mp hC).2.2
  rw [CompiledTaskPolicyCeiling.permits_withDigest (verifyIntegrity_withDigest hx)]
  constructor
  · rintro ⟨hagent, hexecutor, -, hresource, harguments⟩
    obtain ⟨hoperation, hresource⟩ := mem_resourcesOf_ceiling.mp hresource
    exact ⟨hagent, hexecutor, hoperation, hresource,
      fun key hkey ↦ (mem_argumentKeysOf_ceiling.mp (harguments hkey)).2⟩
  · rintro ⟨hagent, hexecutor, hoperation, hresource, harguments⟩
    refine ⟨hagent, hexecutor, ?_, mem_resourcesOf_ceiling.mpr ⟨hoperation, hresource⟩,
      fun key hkey ↦ mem_argumentKeysOf_ceiling.mpr ⟨hoperation, harguments hkey⟩⟩
    rwa [ceiling_actions]

/-- A request that a compiled ceiling permits is allowed by the static policy exactly when the
policy allows the task's subject as an agent and its workload identity as an executor, and the
digests that the policy answers with exist: that of the policy, and that of the request, whose
arguments must nest one level less than its constructor accepts. -/
theorem allows_iff_of_permits (hC : k.compile task candidate rs approvedHumanGates nowMs = .ok C)
    (hr : C.permits r = .ok true) :
    k.globalPolicy.Allows r ↔ task.requestingSubject ∈ k.globalPolicy.allowedAgents ∧
      task.workloadIdentity ∈ k.globalPolicy.allowedExecutors ∧
      (∃ x, k.globalPolicy.policyDigest = .ok x) ∧
      (Json.obj r.arguments).height < maxCanonicalDepth := by
  obtain ⟨hagent, hexecutor, hoperation, hresource, harguments⟩ := (permits_iff hC).mp hr
  obtain ⟨rule, hrule, hres, hargs, hdenied⟩ :=
    (compile_eq_ok.mp hC).1.covers r.operation (mem_actionsLeft.mp hoperation).1
  have hcovered : ∃ rule, k.globalPolicy.operations.get? r.operation = some rule ∧
      r.resourceId ∈ rule.resources ∧ ∀ key ∈ keysOf r.arguments,
        key ∉ k.globalPolicy.deniedArgumentKeys ∧ key ∈ rule.allowedArgumentKeys :=
    ⟨rule, hrule, hres (without_sublist.subset hresource), fun key hkey ↦
      ⟨hdenied key (harguments hkey), hargs (harguments hkey)⟩⟩
  rw [StaticPolicy.allows_iff, hagent, hexecutor, r.exists_requestDigest]
  constructor
  · rintro ⟨ha, he, -, hp, hh⟩
    exact ⟨ha, he, hp, hh⟩
  · rintro ⟨ha, he, hp, hh⟩
    exact ⟨ha, he, hcovered, hp, hh⟩

end TrustedPolicyCompiler

namespace Sample

open TrustedPolicyCompiler

attribute [local instance] pythonPlatform

/-- A request for what the candidate proposes. -/
def request : ActionRequest where
  requestId := "request-1"
  sessionId := "session-1"
  agentId := "agent-1"
  operation := "object.read"
  resourceId := "target"
  executorId := "executor-1"
  arguments := [("offset", .int 0)]
  purpose := "read"
  valid := by decide +kernel
  distinct := by decide

/-- Whatever the trust state is, the ceiling permits the request. -/
theorem permits_request {agents : List String} {C : CompiledTaskPolicyCeiling} {T : TaskDescription}
    {K : CandidateTaskPolicyCeiling} {t : ProviderTrustState} {f : String}
    (hT : T.toTaskFields = taskIn t) (hK : K.toCandidateFields = candidateFor f)
    (hC : (compiler agents).compile T K [reduction] [] 0 = .ok C) :
    C.permits request = .ok true := by
  rw [permits_iff hC, hT, hK]
  refine ⟨rfl, rfl, ?_, ?_, (by decide : ["offset"] ⊆ ["offset"])⟩
  · rw [actionsLeft_eq]
    exact List.mem_singleton.mpr rfl
  · rw [show request.operation = "object.read" from rfl, resourcesLeft_eq]
    exact List.mem_singleton.mpr rfl

end Sample

theorem allows_iff_of_permits_sample :
    let _ := pythonPlatform
    ∃ C, (Sample.compiler ["agent-1"]).compile Sample.task Sample.candidate
      [Sample.reduction] [] 0 =
        .ok C ∧ C.permits Sample.request = .ok true ∧
      (Sample.compiler ["agent-1"]).globalPolicy.Allows Sample.request := by
  intro _
  obtain ⟨C, hC⟩ := Sample.exists_compile ["agent-1"]
  have hpermits := Sample.permits_request rfl rfl hC
  refine ⟨C, hC, hpermits, (TrustedPolicyCompiler.allows_iff_of_permits hC hpermits).mpr ?_⟩
  have hpolicy : Canonicalizes 0 (Sample.policy ["agent-1"]).payload := by decide +kernel
  exact ⟨List.mem_singleton.mpr rfl, List.mem_singleton.mpr rfl, exists_digest_eq_ok.mpr hpolicy,
    (by decide : (Json.obj [("offset", .int 0)]).height < maxCanonicalDepth)⟩

/-- A ceiling permits a request of an agent that the static policy does not allow: the compiler
never looks at the agent. -/
theorem permits_not_allowed :
    let _ := pythonPlatform
    ∃ C, (Sample.compiler ["agent-2"]).compile Sample.task Sample.candidate
      [Sample.reduction] [] 0 =
        .ok C ∧ C.permits Sample.request = .ok true ∧
      ¬(Sample.compiler ["agent-2"]).globalPolicy.Allows Sample.request := by
  intro _
  obtain ⟨C, hC⟩ := Sample.exists_compile ["agent-2"]
  refine ⟨C, hC, Sample.permits_request rfl rfl hC, fun h ↦ ?_⟩
  have hagent : "agent-1" ∈ ["agent-2"] := (StaticPolicy.allows_iff.mp h).1
  exact absurd hagent (by decide)

end EventHorizon.Policy
