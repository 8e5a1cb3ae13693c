import EventHorizon.Policy.Static

/-!
# Tasks, candidates, reductions and ceilings

The records of `task_policy.py`. Each is checked and normalized by its constructor: `postInit` is
the code's `__post_init__`, and a record that was constructed is one that `postInit` returns as it
is. A candidate ceiling proposes authority for a task, guardians take from it by
`AuthorityReduction`s, and `CompiledTaskPolicyCeiling` is what the compiler makes of them.
-/

namespace EventHorizon.Policy

/-! ## Trust -/

inductive TrustTier
  | simulated
  | software
  | hardware
  deriving DecidableEq, Repr

/-- `TRUST_ORDER`. -/
def TrustTier.order : TrustTier → ℕ
  | .simulated => 0
  | .software => 1
  | .hardware => 2

def TrustTier.text : TrustTier → String
  | .simulated => "simulated"
  | .software => "software"
  | .hardware => "hardware"

structure ProviderTrustState where
  requestedTrust : TrustTier
  observedTrust : TrustTier
  providerAttestedTrust : TrustTier
  effectiveTrust : TrustTier
  method : String
  keyId : String
  attestationDigest : String
  bundleDigest : String
  verifierPolicyDigest : String
  verifiedAtMs : ℤ
  expiresAtMs : ℤ
  deriving DecidableEq

namespace ProviderTrustState

def toDict (t : ProviderTrustState) : Json := .obj [
  ("attestation_digest", .str t.attestationDigest), ("bundle_digest", .str t.bundleDigest),
  ("effective_trust", .str t.effectiveTrust.text), ("expires_at_ms", .int t.expiresAtMs),
  ("key_id", .str t.keyId), ("method", .str t.method),
  ("observed_trust", .str t.observedTrust.text),
  ("provider_attested_trust", .str t.providerAttestedTrust.text),
  ("requested_trust", .str t.requestedTrust.text), ("verified_at_ms", .int t.verifiedAtMs),
  ("verifier_policy_digest", .str t.verifierPolicyDigest)]

variable [Platform]

/-- `ProviderTrustState.__post_init__`. -/
def postInit (t : ProviderTrustState) : Except Exn Unit := do
  let _ ← Policy.text t.requestedTrust.text "requested_trust" 32
  let _ ← Policy.text t.observedTrust.text "observed_trust" 32
  let _ ← Policy.text t.providerAttestedTrust.text "provider_attested_trust" 32
  let _ ← Policy.text t.effectiveTrust.text "effective_trust" 32
  let _ ← Policy.text t.method "attestation method" 64
  let _ ← Policy.text t.keyId "attestation key ID" 128
  let _ ← digestText t.attestationDigest "attestation_digest"
  let _ ← digestText t.bundleDigest "bundle_digest"
  let _ ← digestText t.verifierPolicyDigest "verifier_policy_digest"
  let _ ← nonnegative t.verifiedAtMs "trust verification time" maxSafeInteger
  let _ ← positive t.expiresAtMs "trust expiration time"
  raiseIf (t.expiresAtMs ≤ t.verifiedAtMs)
    (invalid "provider trust expiration must follow verification")
  raiseIf (t.effectiveTrust.order ≠ min t.observedTrust.order t.providerAttestedTrust.order)
    (invalid "effective trust must equal the conservative observed/provider intersection")

end ProviderTrustState

/-! ## Tasks -/

structure TaskFields where
  taskId : String
  requestingSubject : String
  workloadIdentity : String
  naturalLanguageTask : String
  taskType : Option String
  tenant : String
  environment : String
  availableTools : List String
  availableResources : List String
  dataClassification : String
  userApprovedConstraints : List (String × Json)
  globalPolicyVersion : String
  providerAttestedTrust : ProviderTrustState
  previousApprovedTaskTemplates : List String
  approvedHistoricalTraces : List String
  requestedCompletionDeadlineMs : ℤ
  humanApprovalRequirements : List String
  deriving DecidableEq

/-- A value that may be `None`. -/
def optJson {α : Type} (f : α → Json) : Option α → Json
  | none => .null
  | some a => f a

def TaskFields.toDict (t : TaskFields) : Json := .obj [
  ("task_id", .str t.taskId), ("requesting_subject", .str t.requestingSubject),
  ("workload_identity", .str t.workloadIdentity),
  ("natural_language_task", .str t.naturalLanguageTask),
  ("task_type", optJson .str t.taskType), ("tenant", .str t.tenant),
  ("environment", .str t.environment), ("available_tools", strArray t.availableTools),
  ("available_resources", strArray t.availableResources),
  ("data_classification", .str t.dataClassification),
  ("user_approved_constraints", .obj t.userApprovedConstraints),
  ("global_policy_version", .str t.globalPolicyVersion),
  ("provider_attested_trust", t.providerAttestedTrust.toDict),
  ("previous_approved_task_templates", strArray t.previousApprovedTaskTemplates),
  ("approved_historical_traces", strArray t.approvedHistoricalTraces),
  ("requested_completion_deadline_ms", .int t.requestedCompletionDeadlineMs),
  ("human_approval_requirements", strArray t.humanApprovalRequirements)]

/-! ## Candidates -/

structure CandidateFields where
  ceilingId : String
  taskId : String
  taskFingerprint : String
  synthesizerVersion : String
  modelVersion : String
  policyVersion : String
  confidenceBps : ℤ
  tools : List String
  actions : List String
  resources : List String
  actionResources : Table String (List String)
  argumentConstraints : Table String (List String)
  networkDestinations : List String
  dataClasses : List String
  maximumReadBytes : ℤ
  maximumWriteBytes : ℤ
  maximumCalls : ℤ
  maximumParallelism : ℤ
  maximumDurationSeconds : ℤ
  requiredTrustTier : TrustTier
  requiredAttestations : List String
  humanApprovalGates : List String
  decayProfile : String
  rationaleCodes : List String
  evidenceRefs : List String
  fallbackUsed : Bool
  shadowOnly : Bool
  deriving DecidableEq

/-- A JSON object of arrays of strings. -/
def strArrays (m : Table String (List String)) : Json := .obj (m.map fun r ↦ (r.1, strArray r.2))

def CandidateFields.toDict (c : CandidateFields) : Json := .obj [
  ("ceiling_id", .str c.ceilingId), ("task_id", .str c.taskId),
  ("task_fingerprint", .str c.taskFingerprint),
  ("synthesizer_version", .str c.synthesizerVersion), ("model_version", .str c.modelVersion),
  ("policy_version", .str c.policyVersion), ("confidence_bps", .int c.confidenceBps),
  ("tools", strArray c.tools), ("actions", strArray c.actions),
  ("resources", strArray c.resources), ("action_resources", strArrays c.actionResources),
  ("argument_constraints", strArrays c.argumentConstraints),
  ("network_destinations", strArray c.networkDestinations),
  ("data_classes", strArray c.dataClasses), ("maximum_read_bytes", .int c.maximumReadBytes),
  ("maximum_write_bytes", .int c.maximumWriteBytes), ("maximum_calls", .int c.maximumCalls),
  ("maximum_parallelism", .int c.maximumParallelism),
  ("maximum_duration_seconds", .int c.maximumDurationSeconds),
  ("required_trust_tier", .str c.requiredTrustTier.text),
  ("required_attestations", strArray c.requiredAttestations),
  ("human_approval_gates", strArray c.humanApprovalGates), ("decay_profile", .str c.decayProfile),
  ("rationale_codes", strArray c.rationaleCodes), ("evidence_refs", strArray c.evidenceRefs),
  ("fallback_used", .bool c.fallbackUsed), ("shadow_only", .bool c.shadowOnly)]

/-! ## Reductions -/

structure ReductionFields where
  source : String
  removeTools : List String
  removeActions : List String
  removeResources : List String
  removeNetworkDestinations : List String
  maximumReadBytes : Option ℤ
  maximumWriteBytes : Option ℤ
  maximumCalls : Option ℤ
  maximumParallelism : Option ℤ
  maximumDurationSeconds : Option ℤ
  requireReattestation : Bool
  requireHumanApproval : Bool
  revoke : Bool
  deriving DecidableEq

def ReductionFields.toDict (r : ReductionFields) : Json := .obj [
  ("source", .str r.source), ("remove_tools", strArray r.removeTools),
  ("remove_actions", strArray r.removeActions), ("remove_resources", strArray r.removeResources),
  ("remove_network_destinations", strArray r.removeNetworkDestinations),
  ("maximum_read_bytes", optJson .int r.maximumReadBytes),
  ("maximum_write_bytes", optJson .int r.maximumWriteBytes),
  ("maximum_calls", optJson .int r.maximumCalls),
  ("maximum_parallelism", optJson .int r.maximumParallelism),
  ("maximum_duration_seconds", optJson .int r.maximumDurationSeconds),
  ("require_reattestation", .bool r.requireReattestation),
  ("require_human_approval", .bool r.requireHumanApproval), ("revoke", .bool r.revoke)]

section Constructors

variable [Platform]

/-- `_optional_text`. -/
def optionalText (value : Option String) (label : String) : Except Exn (Option String) :=
  match value with
  | none => .ok none
  | some s => (text s label 256).map some

/-- `TaskDescription.__post_init__`. -/
def TaskFields.postInit (t : TaskFields) : Except Exn TaskFields := do
  let _ ← text t.taskId "task ID" 256
  let _ ← text t.requestingSubject "requesting subject" 256
  let _ ← text t.workloadIdentity "workload identity" 256
  let _ ← text t.naturalLanguageTask "natural-language task" 4096
  let _ ← optionalText t.taskType "task type"
  let _ ← text t.tenant "tenant" 256
  let _ ← text t.environment "environment" 256
  let availableTools ← strings t.availableTools "available tools"
  let availableResources ← strings t.availableResources "available resources"
  let _ ← text t.dataClassification "data classification" 64
  let _ ← canonicalBytes (.obj t.userApprovedConstraints)
  let _ ← text t.globalPolicyVersion "global policy version" 256
  let templates ← strings t.previousApprovedTaskTemplates "approved task templates"
  let traces ← t.approvedHistoricalTraces.mapM fun item ↦
    digestText item "approved historical trace digest"
  let _ ← positive t.requestedCompletionDeadlineMs "task completion deadline"
  let requirements ← strings t.humanApprovalRequirements "human approval requirements"
  return { t with
    availableTools := availableTools
    availableResources := availableResources
    userApprovedConstraints := Json.sortFields t.userApprovedConstraints
    previousApprovedTaskTemplates := templates
    approvedHistoricalTraces := traces
    humanApprovalRequirements := requirements }

/-- A task that was constructed, around a trust state that was. -/
structure TaskDescription extends TaskFields where
  valid : toTaskFields.postInit = .ok toTaskFields
  trustValid : providerAttestedTrust.postInit = .ok ()

/-- `task_fingerprint`. -/
def TaskFields.taskFingerprint (t : TaskFields) : Except Exn String := digest t.toDict

/-- `CandidateTaskPolicyCeiling.__post_init__`. -/
def CandidateFields.postInit (c : CandidateFields) : Except Exn CandidateFields := do
  raiseIf (¬c.ceilingId.toList.take 5 = "ceil_".toList)
    (invalid "candidate ceiling ID is malformed")
  let _ ← text c.taskId "candidate task ID" 256
  let _ ← digestText c.taskFingerprint "task fingerprint"
  let _ ← text c.synthesizerVersion "synthesizer version" 256
  let _ ← text c.modelVersion "model version" 256
  let _ ← text c.policyVersion "candidate policy version" 256
  let _ ← nonnegative c.confidenceBps "candidate confidence" 10000
  let tools ← strings c.tools "tools"
  let actions ← strings c.actions "actions"
  let resources ← strings c.resources "resources"
  let networkDestinations ← strings c.networkDestinations "network_destinations"
  let dataClasses ← strings c.dataClasses "data_classes"
  let requiredAttestations ← strings c.requiredAttestations "required_attestations"
  let humanApprovalGates ← strings c.humanApprovalGates "human_approval_gates"
  let rationaleCodes ← strings c.rationaleCodes "rationale_codes"
  let evidenceRefs ← strings c.evidenceRefs "evidence_refs"
  let actionResources ← mappingOfStringArrays c.actionResources "action resources"
  let argumentConstraints ← mappingOfStringArrays c.argumentConstraints "argument constraints"
  let _ ← nonnegative c.maximumReadBytes "maximum_read_bytes" maxSafeInteger
  let _ ← nonnegative c.maximumWriteBytes "maximum_write_bytes" maxSafeInteger
  let _ ← nonnegative c.maximumCalls "maximum_calls" maxSafeInteger
  let _ ← nonnegative c.maximumParallelism "maximum_parallelism" maxSafeInteger
  let _ ← nonnegative c.maximumDurationSeconds "maximum_duration_seconds" maxSafeInteger
  let _ ← text c.decayProfile "decay profile" 256
  raiseIf (¬keysOf actionResources ⊆ actions)
    (invalid "candidate action-resource constraints name an undeclared action")
  raiseIf (¬keysOf argumentConstraints ⊆ actions)
    (invalid "candidate argument constraints name an undeclared action")
  raiseIf (¬actionResources.flatMap Prod.snd ⊆ resources)
    (invalid "candidate action-resource constraints name an undeclared resource")
  return { c with
    tools := tools
    actions := actions
    resources := resources
    networkDestinations := networkDestinations
    dataClasses := dataClasses
    requiredAttestations := requiredAttestations
    humanApprovalGates := humanApprovalGates
    rationaleCodes := rationaleCodes
    evidenceRefs := evidenceRefs
    actionResources := actionResources
    argumentConstraints := argumentConstraints }

/-- A candidate that was constructed. -/
structure CandidateTaskPolicyCeiling extends CandidateFields where
  valid : toCandidateFields.postInit = .ok toCandidateFields
  distinctResources : (keysOf actionResources).Nodup
  distinctArguments : (keysOf argumentConstraints).Nodup

omit [Platform] in
/-- A number that may be absent. -/
def optionalNonnegative (value : Option ℤ) (label : String) : Except Exn (Option ℤ) :=
  match value with
  | none => .ok none
  | some n => (nonnegative n label maxSafeInteger).map some

/-- `AuthorityReduction.__post_init__`. -/
def ReductionFields.postInit (r : ReductionFields) : Except Exn ReductionFields := do
  let _ ← text r.source "reduction source" 256
  let removeTools ← strings r.removeTools "remove_tools"
  let removeActions ← strings r.removeActions "remove_actions"
  let removeResources ← strings r.removeResources "remove_resources"
  let removeNetworkDestinations ← strings r.removeNetworkDestinations "remove_network_destinations"
  let _ ← optionalNonnegative r.maximumReadBytes "maximum_read_bytes"
  let _ ← optionalNonnegative r.maximumWriteBytes "maximum_write_bytes"
  let _ ← optionalNonnegative r.maximumCalls "maximum_calls"
  let _ ← optionalNonnegative r.maximumParallelism "maximum_parallelism"
  let _ ← optionalNonnegative r.maximumDurationSeconds "maximum_duration_seconds"
  return { r with
    removeTools := removeTools
    removeActions := removeActions
    removeResources := removeResources
    removeNetworkDestinations := removeNetworkDestinations }

/-- A reduction that was constructed. -/
structure AuthorityReduction extends ReductionFields where
  valid : toReductionFields.postInit = .ok toReductionFields

end Constructors

/-! ## Compiled ceilings -/

structure CompiledTaskPolicyCeiling where
  schema : String
  ceilingId : String
  taskId : String
  taskFingerprint : String
  subjectId : String
  workloadIdentity : String
  tenant : String
  environment : String
  synthesizerVersion : String
  compilerVersion : String
  policyVersion : String
  candidateDigest : String
  providerAttestationDigest : String
  providerBundleDigest : String
  providerKeyId : String
  providerMethod : String
  providerTrust : TrustTier
  requiredTrustTier : TrustTier
  tools : List String
  actions : List String
  actionResources : Table String (List String)
  argumentConstraints : Table String (List String)
  networkDestinations : List String
  dataClasses : List String
  maximumReadBytes : ℤ
  maximumWriteBytes : ℤ
  maximumCalls : ℤ
  maximumParallelism : ℤ
  maximumDurationSeconds : ℤ
  requiredAttestations : List String
  humanApprovalGates : List String
  decayProfile : String
  guardianReductionsDigest : String
  issuedAtMs : ℤ
  expiresAtMs : ℤ
  compiledDigest : String
  deriving DecidableEq

namespace CompiledTaskPolicyCeiling

/-- `unsigned_dict`. -/
def unsignedDict (c : CompiledTaskPolicyCeiling) : Json := .obj [
  ("schema", .str c.schema), ("ceiling_id", .str c.ceilingId), ("task_id", .str c.taskId),
  ("task_fingerprint", .str c.taskFingerprint), ("subject_id", .str c.subjectId),
  ("workload_identity", .str c.workloadIdentity), ("tenant", .str c.tenant),
  ("environment", .str c.environment), ("synthesizer_version", .str c.synthesizerVersion),
  ("compiler_version", .str c.compilerVersion), ("policy_version", .str c.policyVersion),
  ("candidate_digest", .str c.candidateDigest),
  ("provider_attestation_digest", .str c.providerAttestationDigest),
  ("provider_bundle_digest", .str c.providerBundleDigest),
  ("provider_key_id", .str c.providerKeyId), ("provider_method", .str c.providerMethod),
  ("provider_trust", .str c.providerTrust.text),
  ("required_trust_tier", .str c.requiredTrustTier.text), ("tools", strArray c.tools),
  ("actions", strArray c.actions), ("action_resources", strArrays c.actionResources),
  ("argument_constraints", strArrays c.argumentConstraints),
  ("network_destinations", strArray c.networkDestinations),
  ("data_classes", strArray c.dataClasses), ("maximum_read_bytes", .int c.maximumReadBytes),
  ("maximum_write_bytes", .int c.maximumWriteBytes), ("maximum_calls", .int c.maximumCalls),
  ("maximum_parallelism", .int c.maximumParallelism),
  ("maximum_duration_seconds", .int c.maximumDurationSeconds),
  ("required_attestations", strArray c.requiredAttestations),
  ("human_approval_gates", strArray c.humanApprovalGates), ("decay_profile", .str c.decayProfile),
  ("guardian_reductions_digest", .str c.guardianReductionsDigest),
  ("issued_at_ms", .int c.issuedAtMs), ("expires_at_ms", .int c.expiresAtMs)]

variable [Platform]

/-- `CompiledTaskPolicyCeiling.__post_init__`. -/
def postInit (c : CompiledTaskPolicyCeiling) : Except Exn CompiledTaskPolicyCeiling := do
  let _ ← text c.schema "schema" 256
  let _ ← text c.ceilingId "ceiling_id" 256
  let _ ← text c.taskId "task_id" 256
  let _ ← text c.subjectId "subject_id" 256
  let _ ← text c.workloadIdentity "workload_identity" 256
  let _ ← text c.tenant "tenant" 256
  let _ ← text c.environment "environment" 256
  let _ ← text c.synthesizerVersion "synthesizer_version" 256
  let _ ← text c.compilerVersion "compiler_version" 256
  let _ ← text c.policyVersion "policy_version" 256
  let _ ← text c.providerKeyId "provider_key_id" 256
  let _ ← text c.providerMethod "provider_method" 256
  let _ ← text c.decayProfile "decay_profile" 256
  let _ ← digestText c.taskFingerprint "task_fingerprint"
  let _ ← digestText c.candidateDigest "candidate_digest"
  let _ ← digestText c.providerAttestationDigest "provider_attestation_digest"
  let _ ← digestText c.providerBundleDigest "provider_bundle_digest"
  let _ ← digestText c.guardianReductionsDigest "guardian_reductions_digest"
  let _ ← digestText c.compiledDigest "compiled_digest"
  let tools ← strings c.tools "tools"
  let actions ← strings c.actions "actions"
  let networkDestinations ← strings c.networkDestinations "network_destinations"
  let dataClasses ← strings c.dataClasses "data_classes"
  let requiredAttestations ← strings c.requiredAttestations "required_attestations"
  let humanApprovalGates ← strings c.humanApprovalGates "human_approval_gates"
  let actionResources ← mappingOfStringArrays c.actionResources "action resources"
  let argumentConstraints ← mappingOfStringArrays c.argumentConstraints "argument constraints"
  let _ ← nonnegative c.maximumReadBytes "maximum_read_bytes" maxSafeInteger
  let _ ← nonnegative c.maximumWriteBytes "maximum_write_bytes" maxSafeInteger
  let _ ← nonnegative c.maximumCalls "maximum_calls" maxSafeInteger
  let _ ← nonnegative c.maximumParallelism "maximum_parallelism" maxSafeInteger
  let _ ← nonnegative c.maximumDurationSeconds "maximum_duration_seconds" maxSafeInteger
  let _ ← nonnegative c.issuedAtMs "issued_at_ms" maxSafeInteger
  let _ ← nonnegative c.expiresAtMs "expires_at_ms" maxSafeInteger
  raiseIf (c.expiresAtMs ≤ c.issuedAtMs)
    (invalid "compiled ceiling expiration must follow issuance")
  raiseIf (¬(keysOf actionResources ⊆ actions ∧ actions ⊆ keysOf actionResources))
    (invalid "compiled ceiling must bind resources for every action")
  raiseIf (¬(keysOf argumentConstraints ⊆ actions ∧ actions ⊆ keysOf argumentConstraints))
    (invalid "compiled ceiling must bind argument constraints for every action")
  return { c with
    tools := tools
    actions := actions
    networkDestinations := networkDestinations
    dataClasses := dataClasses
    requiredAttestations := requiredAttestations
    humanApprovalGates := humanApprovalGates
    actionResources := actionResources
    argumentConstraints := argumentConstraints }

/-- `verify_integrity`. -/
def verifyIntegrity (c : CompiledTaskPolicyCeiling) : Except Exn Unit := do
  raiseIf (c.schema ≠ "event-horizon.compiled-task-ceiling.v1")
    ⟨.policyCompilationError, "compiled ceiling schema is invalid"⟩
  let actual ← digest c.unsignedDict
  raiseIf (actual ≠ c.compiledDigest)
    ⟨.policyCompilationError, "compiled ceiling digest is invalid"⟩

/-- `permits`. -/
def permits (c : CompiledTaskPolicyCeiling) (r : ActionRequest) : Except Exn Bool := do
  c.verifyIntegrity
  return r.agentId = c.subjectId ∧ r.executorId = c.workloadIdentity ∧ r.operation ∈ c.actions ∧
    r.resourceId ∈ (c.actionResources.get? r.operation).getD [] ∧
    keysOf r.arguments ⊆ (c.argumentConstraints.get? r.operation).getD []

end CompiledTaskPolicyCeiling

end EventHorizon.Policy
