import EventHorizon.Policy.Ceiling

/-!
# The trusted policy compiler

`TrustedPolicyCompiler.compile` of `task_policy.py`. It has three parts. `prepare` checks the
candidate against the task, the static policy and the compiler's own limits, before it has looked at
any guardian. `reduce` takes from the authority what one guardian takes. `finish` prunes what is
left to the actions that still have a tool and a resource, and seals it into a ceiling.
-/

namespace EventHorizon.Policy

/-- A compiler. The collections are sets, and the tables are mappings. -/
structure TrustedPolicyCompiler where
  globalPolicy : StaticPolicy
  toolActions : Table String (List String)
  allowedTenantEnvironments : Table String (List String)
  allowedNetworkDestinations : List String := []
  allowedDataClasses : List String := ["public", "internal"]
  compilerVersion : String := "trusted-policy-compiler-v1"
  globalMaximumReadBytes : ℤ := 1048576
  globalMaximumWriteBytes : ℤ := 1048576
  globalMaximumCalls : ℤ := 256
  globalMaximumParallelism : ℤ := 16
  globalMaximumDurationSeconds : ℤ := 300
  mandatoryHumanApprovalGates : List String := []

/-- A `PolicyCompilationError`. -/
def refused (message : String) : Exn := ⟨.policyCompilationError, message⟩

/-- The local variables of `compile` that a reduction acts on. -/
structure Scope where
  tools : List String
  actions : List String
  network : List String
  actionResources : Table String (List String)
  maximumRead : ℤ
  maximumWrite : ℤ
  maximumCalls : ℤ
  maximumParallelism : ℤ
  maximumDuration : ℤ
  deriving DecidableEq

/-- The values `compile` has computed when it comes to the reductions. -/
structure Prepared where
  taskFingerprint : String
  actionResources : Table String (List String)
  argumentConstraints : Table String (List String)
  requiredGates : List String
  approved : List String
  deriving DecidableEq

namespace TrustedPolicyCompiler

variable (k : TrustedPolicyCompiler)

/-- `{resource for rule in operations.values() for resource in rule.resources}`. -/
def globalResources : List String := k.globalPolicy.operations.flatMap fun row ↦ row.2.resources

/-- `{action for tool in tools for action in self.tool_actions[tool]}`. The tools of a candidate
that got past its checks are all in the table. -/
def suppliedActions (tools : List String) : List String :=
  tools.flatMap fun tool ↦ (k.toolActions.get? tool).getD []

/-- The resources and the argument keys of one action of the candidate. -/
def constrain (candidate : CandidateFields) (action : String) :
    Except Exn (String × List String × List String) := do
  match k.globalPolicy.operations.get? action with
  | none => throw ⟨.keyError, action⟩
  | some rule =>
    let proposedResources := (candidate.actionResources.get? action).getD []
    raiseIf (¬proposedResources ⊆ rule.resources)
      (refused "candidate action-resource relationship exceeds global policy")
    let proposedArguments := (candidate.argumentConstraints.get? action).getD []
    raiseIf (¬proposedArguments ⊆ rule.allowedArgumentKeys)
      (refused "candidate argument constraints exceed global policy")
    raiseIf (∃ key ∈ proposedArguments, key ∈ k.globalPolicy.deniedArgumentKeys)
      (refused "candidate contains globally denied argument keys")
    return (action, sortUnique proposedResources, sortUnique proposedArguments)

/-- The human approval gates that must be satisfied. -/
def requiredGates (task : TaskFields) (candidate : CandidateFields) : List String :=
  task.humanApprovalRequirements ++ candidate.humanApprovalGates ++ k.mandatoryHumanApprovalGates

/-- The authority before any reduction. -/
def initialScope (candidate : CandidateFields) (p : Prepared) : Scope where
  tools := candidate.tools
  actions := candidate.actions
  network := candidate.networkDestinations
  actionResources := p.actionResources
  maximumRead := min candidate.maximumReadBytes k.globalMaximumReadBytes
  maximumWrite := min candidate.maximumWriteBytes k.globalMaximumWriteBytes
  maximumCalls := min candidate.maximumCalls k.globalMaximumCalls
  maximumParallelism := min candidate.maximumParallelism k.globalMaximumParallelism
  maximumDuration := min candidate.maximumDurationSeconds k.globalMaximumDurationSeconds

/-- The resources of the actions that are left: an action stays while some tool supplies it and some
resource is left to it. -/
def pruned (s : Scope) : Table String (List String) :=
  let actions := s.actions.filter (· ∈ k.suppliedActions s.tools)
  s.actionResources.filter fun row ↦ row.1 ∈ actions ∧ row.2 ≠ []

end TrustedPolicyCompiler

/-- The argument keys of the actions that are left. Every action has a row. -/
def argumentsOf (argumentConstraints : Table String (List String)) (actions : List String) :
    Table String (List String) :=
  (sortUnique actions).map fun action ↦ (action, (argumentConstraints.get? action).getD [])

/-- When the authority ends. -/
def expiration (task : TaskFields) (nowMs maximumDuration : ℤ) : ℤ :=
  min (min (nowMs + maximumDuration * 1000) task.requestedCompletionDeadlineMs)
    task.providerAttestedTrust.expiresAtMs

section Compile

variable [Platform]

/-- One turn of the loop over the guardian reductions. -/
def Scope.reduce (approved : List String) (s : Scope) (r : AuthorityReduction) :
    Except Exn Scope := do
  raiseIf (r.requireHumanApproval = true ∧ "guardian-review" ∉ approved)
    (refused "guardian-required human approval is unsatisfied")
  raiseIf (r.requireReattestation = true) (refused "guardian requires a fresh attestation flow")
  raiseIf (r.revoke = true) (refused "guardian revoked the candidate ceiling")
  return {
    tools := s.tools.filter (· ∉ r.removeTools)
    actions := s.actions.filter (· ∉ r.removeActions)
    network := s.network.filter (· ∉ r.removeNetworkDestinations)
    actionResources := s.actionResources.map fun row ↦
      (row.1, row.2.filter (· ∉ r.removeResources))
    maximumRead := capWith s.maximumRead r.maximumReadBytes
    maximumWrite := capWith s.maximumWrite r.maximumWriteBytes
    maximumCalls := capWith s.maximumCalls r.maximumCalls
    maximumParallelism := capWith s.maximumParallelism r.maximumParallelism
    maximumDuration := capWith s.maximumDuration r.maximumDurationSeconds }

namespace TrustedPolicyCompiler

variable (k : TrustedPolicyCompiler)

/-- The part of `compile` before the reductions. -/
def prepare (task : TaskDescription) (candidate : CandidateTaskPolicyCeiling)
    (approvedHumanGates : List String) (nowMs : ℤ) : Except Exn Prepared := do
  let _ ← nonnegative nowMs "compiler time" maxSafeInteger
  raiseIf (candidate.shadowOnly = true) (refused "shadow policy output is not executable authority")
  raiseIf (candidate.taskId ≠ task.taskId)
    (refused "candidate is not bound to the current task fingerprint")
  let taskFingerprint ← task.taskFingerprint
  raiseIf (candidate.taskFingerprint ≠ taskFingerprint)
    (refused "candidate is not bound to the current task fingerprint")
  raiseIf (candidate.policyVersion ≠ task.globalPolicyVersion)
    (refused "candidate policy version is stale or incompatible")
  raiseIf (task.globalPolicyVersion ≠ k.globalPolicy.policyId)
    (refused "task policy version does not match the global maximum")
  raiseIf (task.environment ∉ (k.allowedTenantEnvironments.get? task.tenant).getD [])
    (refused "tenant or environment is outside global policy")
  raiseIf (¬candidate.tools ⊆ keysOf k.toolActions) (refused "candidate contains an unknown tool")
  raiseIf (¬candidate.tools ⊆ task.availableTools)
    (refused "candidate contains a tool unavailable to the task")
  raiseIf (¬candidate.actions ⊆ keysOf k.globalPolicy.operations)
    (refused "candidate contains an unknown or globally prohibited action")
  raiseIf (¬candidate.actions ⊆ k.suppliedActions candidate.tools)
    (refused "candidate action is not supplied by its declared tool set")
  raiseIf (¬candidate.resources ⊆ k.globalResources)
    (refused "candidate contains an unknown or globally prohibited resource")
  raiseIf (¬candidate.resources ⊆ task.availableResources)
    (refused "candidate contains a resource unavailable to the task")
  raiseIf (¬candidate.networkDestinations ⊆ k.allowedNetworkDestinations)
    (refused "candidate contains an unknown network destination")
  raiseIf (¬candidate.dataClasses ⊆ k.allowedDataClasses)
    (refused "candidate contains an unknown data class")
  let rows ← candidate.actions.mapM (k.constrain candidate.toCandidateFields)
  raiseIf (task.providerAttestedTrust.effectiveTrust.order < candidate.requiredTrustTier.order)
    (refused "provider-derived trust is below the candidate requirement")
  raiseIf (task.providerAttestedTrust.expiresAtMs ≤ nowMs)
    (refused "provider-derived trust has expired")
  let approved ← strings approvedHumanGates "approved human gates"
  let requiredGates := k.requiredGates task.toTaskFields candidate.toCandidateFields
  raiseIf (¬requiredGates ⊆ approved) (refused "required human approval gate is unsatisfied")
  return {
    taskFingerprint := taskFingerprint
    actionResources := rows.map fun row ↦ (row.1, row.2.1)
    argumentConstraints := rows.map fun row ↦ (row.1, row.2.2)
    requiredGates := requiredGates
    approved := approved }

/-- The ceiling before its digest is computed. -/
def unsigned (task : TaskFields) (candidate : CandidateFields) (nowMs : ℤ) (p : Prepared)
    (s : Scope) (candidateDigest reductionsDigest : String) : CompiledTaskPolicyCeiling where
  schema := "event-horizon.compiled-task-ceiling.v1"
  ceilingId := candidate.ceilingId
  taskId := task.taskId
  taskFingerprint := p.taskFingerprint
  subjectId := task.requestingSubject
  workloadIdentity := task.workloadIdentity
  tenant := task.tenant
  environment := task.environment
  synthesizerVersion := candidate.synthesizerVersion
  compilerVersion := k.compilerVersion
  policyVersion := task.globalPolicyVersion
  candidateDigest := candidateDigest
  providerAttestationDigest := task.providerAttestedTrust.attestationDigest
  providerBundleDigest := task.providerAttestedTrust.bundleDigest
  providerKeyId := task.providerAttestedTrust.keyId
  providerMethod := task.providerAttestedTrust.method
  providerTrust := task.providerAttestedTrust.effectiveTrust
  requiredTrustTier := candidate.requiredTrustTier
  tools := sortUnique s.tools
  actions := sortUnique (keysOf (k.pruned s))
  actionResources := Json.sortFields (k.pruned s)
  argumentConstraints := argumentsOf p.argumentConstraints (keysOf (k.pruned s))
  networkDestinations := sortUnique s.network
  dataClasses := sortUnique candidate.dataClasses
  maximumReadBytes := s.maximumRead
  maximumWriteBytes := s.maximumWrite
  maximumCalls := s.maximumCalls
  maximumParallelism := s.maximumParallelism
  maximumDurationSeconds := s.maximumDuration
  requiredAttestations := sortUnique candidate.requiredAttestations
  humanApprovalGates := sortUnique p.requiredGates
  decayProfile := candidate.decayProfile
  guardianReductionsDigest := reductionsDigest
  issuedAtMs := nowMs
  expiresAtMs := expiration task nowMs s.maximumDuration
  compiledDigest := ""

/-- The part of `compile` after the reductions. -/
def finish (task : TaskDescription) (candidate : CandidateTaskPolicyCeiling)
    (guardianReductions : List AuthorityReduction) (nowMs : ℤ) (p : Prepared) (s : Scope) :
    Except Exn CompiledTaskPolicyCeiling := do
  raiseIf (expiration task.toTaskFields nowMs s.maximumDuration ≤ nowMs ∨ s.maximumCalls ≤ 0 ∨
      s.maximumParallelism ≤ 0 ∨ k.pruned s = [])
    (refused "compiled authority is empty or already expired")
  let candidateDigest ← digest candidate.toDict
  let reductionsDigest ← digest (.arr (guardianReductions.map fun r ↦ r.toDict))
  let unsigned := k.unsigned task.toTaskFields candidate.toCandidateFields nowMs p s
    candidateDigest reductionsDigest
  let compiledDigest ← digest unsigned.unsignedDict
  let compiled ← CompiledTaskPolicyCeiling.postInit
    { unsigned with compiledDigest := compiledDigest }
  compiled.verifyIntegrity
  return compiled

/-- `compile`. -/
def compile (task : TaskDescription) (candidate : CandidateTaskPolicyCeiling)
    (guardianReductions : List AuthorityReduction) (approvedHumanGates : List String) (nowMs : ℤ) :
    Except Exn CompiledTaskPolicyCeiling := do
  let p ← k.prepare task candidate approvedHumanGates nowMs
  let s ← guardianReductions.foldlM (Scope.reduce p.approved)
    (k.initialScope candidate.toCandidateFields p)
  k.finish task candidate guardianReductions nowMs p s

end TrustedPolicyCompiler

end Compile

end EventHorizon.Policy
