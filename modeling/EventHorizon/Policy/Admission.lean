import EventHorizon.Policy.Compiler

/-!
# What a compilation has passed

`compile` succeeds when its three parts do. `Admissible` lists the checks of `prepare` and
`CompiledTaskPolicyCeiling.Valid` those of the constructor of the ceiling; the values that the parts
compute are determined by their inputs.
-/

namespace EventHorizon.Policy

section Admission

variable [Platform]

/-! ## Constructed values -/

/-- What the constructor of a candidate has established of the parts that become authority. -/
structure CandidateFields.Normal (c : CandidateFields) : Prop where
  tools : IsStrings c.tools
  actions : IsStrings c.actions
  networkDestinations : IsStrings c.networkDestinations
  actionResources : IsMapping c.actionResources
  argumentConstraints : IsMapping c.argumentConstraints
  maximumReadBytes : 0 ≤ c.maximumReadBytes ∧ c.maximumReadBytes ≤ maxSafeInteger
  maximumWriteBytes : 0 ≤ c.maximumWriteBytes ∧ c.maximumWriteBytes ≤ maxSafeInteger
  maximumCalls : 0 ≤ c.maximumCalls ∧ c.maximumCalls ≤ maxSafeInteger
  maximumParallelism : 0 ≤ c.maximumParallelism ∧ c.maximumParallelism ≤ maxSafeInteger
  maximumDurationSeconds : 0 ≤ c.maximumDurationSeconds ∧ c.maximumDurationSeconds ≤ maxSafeInteger

theorem CandidateTaskPolicyCeiling.normal (c : CandidateTaskPolicyCeiling) :
    c.toCandidateFields.Normal := by
  have h := c.valid
  simp only [CandidateFields.postInit, raiseIf_bind_eq_ok, text_bind_eq_ok, digestText_bind_eq_ok,
    nonnegative_bind_eq_ok] at h
  obtain ⟨-, -, -, -, -, -, -, h⟩ := h
  obtain ⟨tools, htools, h⟩ := bind_eq_ok.mp h
  obtain ⟨actions, hactions, h⟩ := bind_eq_ok.mp h
  obtain ⟨resources, hresources, h⟩ := bind_eq_ok.mp h
  obtain ⟨network, hnetwork, h⟩ := bind_eq_ok.mp h
  obtain ⟨dataClasses, -, h⟩ := bind_eq_ok.mp h
  obtain ⟨attestations, -, h⟩ := bind_eq_ok.mp h
  obtain ⟨gates, -, h⟩ := bind_eq_ok.mp h
  obtain ⟨rationale, -, h⟩ := bind_eq_ok.mp h
  obtain ⟨evidence, -, h⟩ := bind_eq_ok.mp h
  obtain ⟨actionResources, har, h⟩ := bind_eq_ok.mp h
  obtain ⟨argumentConstraints, hac, h⟩ := bind_eq_ok.mp h
  simp only [nonnegative_bind_eq_ok, text_bind_eq_ok, raiseIf_bind_eq_ok] at h
  obtain ⟨hread, hwrite, hcalls, hparallel, hduration, -, -, -, -, h⟩ := h
  -- the constructor returned the fields as they were
  have hself := Except.ok.inj h
  have htools' : tools = c.tools := congrArg CandidateFields.tools hself
  have hactions' : actions = c.actions := congrArg CandidateFields.actions hself
  have hnetwork' : network = c.networkDestinations :=
    congrArg CandidateFields.networkDestinations hself
  have har' : actionResources = c.actionResources := congrArg CandidateFields.actionResources hself
  have hac' : argumentConstraints = c.argumentConstraints :=
    congrArg CandidateFields.argumentConstraints hself
  subst htools' hactions' hnetwork' har' hac'
  exact {
    tools := strings_eq_ok_self.mp htools
    actions := strings_eq_ok_self.mp hactions
    networkDestinations := strings_eq_ok_self.mp hnetwork
    actionResources := isMapping_of_eq_ok c.distinctResources har
    argumentConstraints := isMapping_of_eq_ok c.distinctArguments hac
    maximumReadBytes := hread
    maximumWriteBytes := hwrite
    maximumCalls := hcalls
    maximumParallelism := hparallel
    maximumDurationSeconds := hduration }

/-- The constructor of a task does not look into the trust state. -/
theorem TaskFields.postInit_withTrust {x : TaskFields} (t : ProviderTrustState)
    (h : x.postInit = .ok x) : TaskFields.postInit { x with providerAttestedTrust := t } =
      .ok { x with providerAttestedTrust := t } := by
  have hmap : TaskFields.postInit { x with providerAttestedTrust := t } =
      (fun y : TaskFields ↦ { y with providerAttestedTrust := t }) <$> x.postInit := by
    simp only [TaskFields.postInit, map_bind, map_pure]
  rw [hmap, h]
  rfl

/-- The constructor of a candidate asks of the fingerprint only that it is a digest. -/
theorem CandidateFields.postInit_withFingerprint {c : CandidateFields} {fingerprint : String}
    (hfingerprint : isDigest fingerprint = true) (h : c.postInit = .ok c) :
    CandidateFields.postInit { c with taskFingerprint := fingerprint } =
      .ok { c with taskFingerprint := fingerprint } := by
  simp only [CandidateFields.postInit, raiseIf_bind_eq_ok, text_bind_eq_ok, digestText_bind_eq_ok,
    nonnegative_bind_eq_ok] at h ⊢
  obtain ⟨h1, h2, -, h4, h5, h6, h7, h⟩ := h
  refine ⟨h1, h2, hfingerprint, h4, h5, h6, h7, ?_⟩
  obtain ⟨tools, htools, h⟩ := bind_eq_ok.mp h
  obtain ⟨actions, hactions, h⟩ := bind_eq_ok.mp h
  obtain ⟨resources, hresources, h⟩ := bind_eq_ok.mp h
  obtain ⟨network, hnetwork, h⟩ := bind_eq_ok.mp h
  obtain ⟨dataClasses, hdata, h⟩ := bind_eq_ok.mp h
  obtain ⟨attestations, hattestations, h⟩ := bind_eq_ok.mp h
  obtain ⟨gates, hgates, h⟩ := bind_eq_ok.mp h
  obtain ⟨rationale, hrationale, h⟩ := bind_eq_ok.mp h
  obtain ⟨evidence, hevidence, h⟩ := bind_eq_ok.mp h
  obtain ⟨actionResources, har, h⟩ := bind_eq_ok.mp h
  obtain ⟨argumentConstraints, hac, h⟩ := bind_eq_ok.mp h
  simp only [nonnegative_bind_eq_ok, text_bind_eq_ok, raiseIf_bind_eq_ok] at h
  obtain ⟨hread, hwrite, hcalls, hparallel, hduration, hdecay, hc1, hc2, hc3, h⟩ := h
  refine bind_eq_ok.mpr ⟨tools, htools, bind_eq_ok.mpr ⟨actions, hactions, bind_eq_ok.mpr
    ⟨resources, hresources, bind_eq_ok.mpr ⟨network, hnetwork, bind_eq_ok.mpr ⟨dataClasses, hdata,
    bind_eq_ok.mpr ⟨attestations, hattestations, bind_eq_ok.mpr ⟨gates, hgates, bind_eq_ok.mpr
    ⟨rationale, hrationale,
      bind_eq_ok.mpr ⟨evidence, hevidence, bind_eq_ok.mpr ⟨actionResources, har,
    bind_eq_ok.mpr ⟨argumentConstraints, hac, ?_⟩⟩⟩⟩⟩⟩⟩⟩⟩⟩⟩
  simp only [nonnegative_bind_eq_ok, text_bind_eq_ok, raiseIf_bind_eq_ok]
  refine ⟨hread, hwrite, hcalls, hparallel, hduration, hdecay, hc1, hc2, hc3, ?_⟩
  have hself := Except.ok.inj h
  exact congrArg
    (fun d : CandidateFields ↦ Except.ok { d with taskFingerprint := fingerprint }) hself

theorem TaskDescription.deadline_le (t : TaskDescription) :
    t.requestedCompletionDeadlineMs ≤ maxSafeInteger := by
  have h := t.valid
  simp only [TaskFields.postInit, text_bind_eq_ok] at h
  obtain ⟨-, -, -, -, h⟩ := h
  obtain ⟨_, -, h⟩ := bind_eq_ok.mp h
  obtain ⟨-, h⟩ := text_bind_eq_ok.mp h
  obtain ⟨-, h⟩ := text_bind_eq_ok.mp h
  obtain ⟨_, -, h⟩ := bind_eq_ok.mp h
  obtain ⟨_, -, h⟩ := bind_eq_ok.mp h
  obtain ⟨-, h⟩ := text_bind_eq_ok.mp h
  obtain ⟨_, -, h⟩ := bind_eq_ok.mp h
  obtain ⟨-, h⟩ := text_bind_eq_ok.mp h
  obtain ⟨_, -, h⟩ := bind_eq_ok.mp h
  obtain ⟨_, -, h⟩ := bind_eq_ok.mp h
  obtain ⟨hdeadline, -⟩ := positive_bind_eq_ok.mp h
  exact hdeadline.2

/-! ## Before the reductions -/

namespace TrustedPolicyCompiler

/-- The resources the candidate proposes for an action. -/
def proposedResources (candidate : CandidateFields) (action : String) : List String :=
  (candidate.actionResources.get? action).getD []

/-- The argument keys the candidate proposes for an action. -/
def proposedArguments (candidate : CandidateFields) (action : String) : List String :=
  (candidate.argumentConstraints.get? action).getD []

variable {k : TrustedPolicyCompiler} {candidate : CandidateTaskPolicyCeiling}

theorem isStrings_getD {m : Table String (List String)} (h : IsMapping m) (key : String) :
    IsStrings ((m.get? key).getD []) := by
  cases hget : m.get? key with
  | none => exact ⟨Nat.zero_le _, by simp, List.Pairwise.nil⟩
  | some xs => exact (h.2.1 _ (Table.mem_of_get? hget)).2

theorem isStrings_proposedResources (candidate : CandidateTaskPolicyCeiling) (action : String) :
    IsStrings (proposedResources candidate.toCandidateFields action) :=
  isStrings_getD candidate.normal.actionResources action

theorem isStrings_proposedArguments (candidate : CandidateTaskPolicyCeiling) (action : String) :
    IsStrings (proposedArguments candidate.toCandidateFields action) :=
  isStrings_getD candidate.normal.argumentConstraints action

/-- The static policy has a rule for the action that covers what the candidate proposes for it. -/
def Covers (k : TrustedPolicyCompiler) (candidate : CandidateFields) (action : String) : Prop :=
  ∃ rule, k.globalPolicy.operations.get? action = some rule ∧
    proposedResources candidate action ⊆ rule.resources ∧
    proposedArguments candidate action ⊆ rule.allowedArgumentKeys ∧
    ∀ key ∈ proposedArguments candidate action, key ∉ k.globalPolicy.deniedArgumentKeys

theorem constrain_eq_ok {action : String} {row : String × List String × List String} :
    k.constrain candidate.toCandidateFields action = .ok row ↔
      k.Covers candidate.toCandidateFields action ∧
        row = (action, proposedResources candidate.toCandidateFields action,
          proposedArguments candidate.toCandidateFields action) := by
  have hres := sortUnique_of_pairwise (isStrings_proposedResources candidate action).2.2
  have harg := sortUnique_of_pairwise (isStrings_proposedArguments candidate action).2.2
  rw [proposedResources] at hres
  rw [proposedArguments] at harg
  rw [constrain, Covers]
  cases hrule : k.globalPolicy.operations.get? action with
  | none => simp [throw, throwThe, MonadExceptOf.throw]
  | some rule =>
    simp only [raiseIf_bind_eq_ok, not_not, not_exists, not_and, Option.some.injEq,
      exists_eq_left', hres, harg, and_assoc]
    refine and_congr_right fun _ ↦ and_congr_right fun _ ↦ and_congr_right fun _ ↦ ?_
    exact ⟨fun h ↦ (Except.ok.inj h).symm, fun h ↦ h ▸ rfl⟩

/-- The checks of `prepare`. -/
structure Admissible (k : TrustedPolicyCompiler) (task : TaskDescription)
    (candidate : CandidateTaskPolicyCeiling) (approvedHumanGates : List String) (nowMs : ℤ) :
    Prop where
  now : 0 ≤ nowMs ∧ nowMs ≤ maxSafeInteger
  executable : ¬candidate.shadowOnly = true
  taskId : candidate.taskId = task.taskId
  fingerprint : task.taskFingerprint = .ok candidate.taskFingerprint
  candidateVersion : candidate.policyVersion = task.globalPolicyVersion
  policyVersion : task.globalPolicyVersion = k.globalPolicy.policyId
  environment : task.environment ∈ (k.allowedTenantEnvironments.get? task.tenant).getD []
  knownTools : candidate.tools ⊆ keysOf k.toolActions
  availableTools : candidate.tools ⊆ task.availableTools
  knownActions : candidate.actions ⊆ keysOf k.globalPolicy.operations
  suppliedActions : candidate.actions ⊆ k.suppliedActions candidate.tools
  knownResources : candidate.resources ⊆ k.globalResources
  availableResources : candidate.resources ⊆ task.availableResources
  networkDestinations : candidate.networkDestinations ⊆ k.allowedNetworkDestinations
  dataClasses : candidate.dataClasses ⊆ k.allowedDataClasses
  covers : ∀ action ∈ candidate.actions, k.Covers candidate.toCandidateFields action
  trust : candidate.requiredTrustTier.order ≤ task.providerAttestedTrust.effectiveTrust.order
  fresh : nowMs < task.providerAttestedTrust.expiresAtMs
  approvedLength : approvedHumanGates.length ≤ maxCollection
  approvedText : ∀ x ∈ approvedHumanGates, IsText 256 x
  approvedNodup : approvedHumanGates.Nodup
  gates : k.requiredGates task.toTaskFields candidate.toCandidateFields ⊆ approvedHumanGates

/-- What `prepare` computes. -/
def prepared (k : TrustedPolicyCompiler) (task : TaskFields) (candidate : CandidateFields)
    (approvedHumanGates : List String) : Prepared where
  taskFingerprint := candidate.taskFingerprint
  actionResources := Table.graph candidate.actions (proposedResources candidate)
  argumentConstraints := Table.graph candidate.actions (proposedArguments candidate)
  requiredGates := k.requiredGates task candidate
  approved := approvedHumanGates.insertionSort (· ≤ ·)

variable {task : TaskDescription} {approvedHumanGates : List String} {nowMs : ℤ} {p : Prepared}

theorem prepare_eq_ok : k.prepare task candidate approvedHumanGates nowMs = .ok p ↔
    k.Admissible task candidate approvedHumanGates nowMs ∧
      p = k.prepared task.toTaskFields candidate.toCandidateFields approvedHumanGates := by
  have hrows :
      ∀ {rows}, candidate.actions.mapM (k.constrain candidate.toCandidateFields) = .ok rows ↔
      (∀ action ∈ candidate.actions, k.Covers candidate.toCandidateFields action) ∧
        rows = candidate.actions.map fun action ↦
          (action, proposedResources candidate.toCandidateFields action,
            proposedArguments candidate.toCandidateFields action) :=
    mapM_map_eq_ok fun _ _ ↦ constrain_eq_ok
  rw [prepare]
  constructor
  · intro h
    simp only [nonnegative_bind_eq_ok, raiseIf_bind_eq_ok, not_not, ne_eq] at h
    obtain ⟨hnow, hexecutable, htask, h⟩ := h
    obtain ⟨fingerprint, hfingerprint, h⟩ := bind_eq_ok.mp h
    simp only [raiseIf_bind_eq_ok, not_not] at h
    obtain ⟨rfl, hcv, hpv, henv, hkt, hat, hka, hsa, hkr, har, hnet, hdata, h⟩ := h
    obtain ⟨rows, hr, h⟩ := bind_eq_ok.mp h
    obtain ⟨hcovers, rfl⟩ := hrows.mp hr
    simp only [raiseIf_bind_eq_ok, not_lt, not_le] at h
    obtain ⟨htrust, hfresh, h⟩ := h
    obtain ⟨approved, happroved, h⟩ := bind_eq_ok.mp h
    obtain ⟨hlen, htext, hnodup, rfl⟩ := strings_eq_ok.mp happroved
    obtain ⟨hgates, h⟩ := raiseIf_bind_eq_ok.mp h
    have hperm := List.perm_insertionSort (· ≤ ·) approvedHumanGates
    refine ⟨⟨hnow, hexecutable, htask, hfingerprint, hcv, hpv, henv, hkt, hat, hka, hsa, hkr, har,
      hnet, hdata, hcovers, htrust, hfresh, hlen, htext, hnodup, ?_⟩, ?_⟩
    · exact fun x hx ↦ hperm.mem_iff.mp (not_not.mp hgates hx)
    · rw [← Except.ok.inj h, List.map_map, List.map_map]
      rfl
  · rintro ⟨h, rfl⟩
    have hperm := List.perm_insertionSort (· ≤ ·) approvedHumanGates
    have happroved : strings approvedHumanGates "approved human gates" =
        .ok (approvedHumanGates.insertionSort (· ≤ ·)) :=
      strings_eq_ok.mpr ⟨h.approvedLength, h.approvedText, h.approvedNodup, rfl⟩
    simp only [nonnegative_bind_eq_ok, raiseIf_bind_eq_ok, not_not, ne_eq]
    refine ⟨h.now, h.executable, h.taskId, bind_eq_ok.mpr ⟨_, h.fingerprint, ?_⟩⟩
    simp only [raiseIf_bind_eq_ok, not_not]
    refine ⟨trivial, h.candidateVersion, h.policyVersion, h.environment, h.knownTools,
      h.availableTools, h.knownActions, h.suppliedActions, h.knownResources, h.availableResources,
      h.networkDestinations, h.dataClasses, bind_eq_ok.mpr ⟨_, hrows.mpr ⟨h.covers, rfl⟩, ?_⟩⟩
    simp only [raiseIf_bind_eq_ok, not_lt, not_le]
    refine ⟨h.trust, h.fresh, bind_eq_ok.mpr ⟨_, happroved, raiseIf_bind_eq_ok.mpr ⟨?_, ?_⟩⟩⟩
    · exact not_not.mpr fun x hx ↦ hperm.mem_iff.mpr (h.gates hx)
    · rw [List.map_map, List.map_map]
      rfl

end TrustedPolicyCompiler

/-! ## Canonical values -/

theorem IsText.canonicalizes {s : String} {maximum d : ℕ} (h : IsText maximum s)
    (hd : d ≤ maxCanonicalDepth) : Canonicalizes d (.str s) := canonicalizes_str.mpr ⟨hd, h.2.2⟩

theorem canonicalizes_bounded {n : ℤ} {d : ℕ} (h : 0 ≤ n ∧ n ≤ maxSafeInteger)
    (hd : d ≤ maxCanonicalDepth) : Canonicalizes d (.int n) :=
  canonicalizes_int.mpr ⟨hd, by omega⟩

theorem TrustTier.canonicalizes (t : TrustTier) {d : ℕ} (hd : d ≤ maxCanonicalDepth) :
    Canonicalizes d (.str t.text) := by
  refine canonicalizes_str.mpr ⟨hd, isCanonicalString_of_isAscii ?_ ?_⟩ <;> cases t <;>
    decide +kernel

omit [Platform] in
/-- A key that is written as a literal is plain ASCII, and so are those after it. -/
theorem plainKeys_cons {cs : List Char} {keys : List String}
    (h : (cs.all (fun c ↦ c.toNat < 128) && cs.length ≤ maxCanonicalStringBytes) = true)
    (hkeys : (keys.all fun key ↦
      isAscii key && key.toList.length ≤ maxCanonicalStringBytes) = true) :
    ((String.ofList cs :: keys).all fun key ↦
      isAscii key && key.toList.length ≤ maxCanonicalStringBytes) = true := by
  rw [List.all_cons, hkeys, isAscii, String.toList_ofList, h]
  rfl

/-- A string that is written as a literal is plain ASCII. -/
theorem canonicalizes_literal {cs : List Char} {d : ℕ} (hd : d ≤ maxCanonicalDepth)
    (h : (cs.all (fun c ↦ c.toNat < 128) && cs.length ≤ maxCanonicalStringBytes) = true) :
    Canonicalizes d (.str (String.ofList cs)) := by
  rw [Bool.and_eq_true, decide_eq_true_iff] at h
  refine canonicalizes_str.mpr ⟨hd, isCanonicalString_of_isAscii ?_ ?_⟩
  · rw [isAscii, String.toList_ofList]
    exact h.1
  · rw [String.toList_ofList]
    exact h.2

/-- An object whose keys are plain ASCII. -/
theorem canonicalizes_obj_of_isAscii {fields : List (String × Json)} {keys : List String} {d : ℕ}
    (hkeys : fields.map Prod.fst = keys)
    (hascii : (keys.all fun key ↦
      isAscii key && key.toList.length ≤ maxCanonicalStringBytes) = true)
    (hlen : keys.length ≤ maxCanonicalItems) (hd : d + 1 ≤ maxCanonicalDepth)
    (hvalues : ∀ f ∈ fields, Canonicalizes (d + 1) f.2) : Canonicalizes d (.obj fields) := by
  subst hkeys
  rw [List.length_map] at hlen
  refine canonicalizes_obj.mpr ⟨by omega, hlen, fun f hf ↦ ⟨hd, ?_, hvalues f hf⟩⟩
  have hkey := List.all_eq_true.mp hascii f.1 (List.mem_map_of_mem hf)
  rw [Bool.and_eq_true, decide_eq_true_iff] at hkey
  exact isCanonicalString_of_isAscii hkey.1 hkey.2

theorem canonicalizes_strArray {xs : List String} {d : ℕ} (h : IsStrings xs)
    (hd : d + 1 ≤ maxCanonicalDepth) : Canonicalizes d (strArray xs) := by
  rw [strArray, canonicalizes_arr]
  refine ⟨by omega, by rw [List.length_map]; exact h.1, fun x hx ↦ ?_⟩
  obtain ⟨s, hs, rfl⟩ := List.mem_map.mp hx
  exact canonicalizes_str.mpr ⟨hd, (h.2.1 s hs).2.2⟩

/-- A trust state that was constructed is within the canonical limits. -/
theorem ProviderTrustState.canonicalizes {t : ProviderTrustState} {d : ℕ} (h : t.postInit = .ok ())
    (hd : d + 1 ≤ maxCanonicalDepth) : Canonicalizes d t.toDict := by
  simp only [ProviderTrustState.postInit, text_bind_eq_ok, digestText_bind_eq_ok,
    nonnegative_bind_eq_ok, positive_bind_eq_ok] at h
  obtain ⟨-, -, -, -, hmethod, hkey, hattestation, hbundle, hverifier, hverified, hexpires, -⟩ := h
  have hdigest : ∀ {x : String}, isDigest x = true → Canonicalizes (d + 1) (.str x) :=
    fun hx ↦ (isText_of_isDigest hx).canonicalizes hd
  refine canonicalizes_obj_of_isAscii (by simp only [List.map_cons, List.map_nil]; rfl)
    (by repeat refine plainKeys_cons (by decide) ?_
        rfl) (by decide) hd ?_
  simp only [List.forall_mem_cons]
  refine ⟨hdigest hattestation, hdigest hbundle, t.effectiveTrust.canonicalizes hd,
    canonicalizes_bounded ⟨hexpires.1.le, hexpires.2⟩ hd, hkey.canonicalizes hd,
    hmethod.canonicalizes hd, t.observedTrust.canonicalizes hd,
    t.providerAttestedTrust.canonicalizes hd, t.requestedTrust.canonicalizes hd,
    canonicalizes_bounded hverified hd, hdigest hverifier, ?_⟩
  simp

theorem canonicalizes_strArrays {m : Table String (List String)} {d : ℕ} (h : IsMapping m)
    (hd : d + 2 ≤ maxCanonicalDepth) : Canonicalizes d (strArrays m) := by
  rw [strArrays, canonicalizes_obj]
  refine ⟨by omega, by rw [List.length_map]; exact h.1, fun f hf ↦ ?_⟩
  obtain ⟨r, hr, rfl⟩ := List.mem_map.mp hf
  obtain ⟨hkey, hitems⟩ := h.2.1 r hr
  exact ⟨by omega, hkey.2.2, canonicalizes_strArray hitems (by omega)⟩

/-! ## The ceiling -/

namespace CompiledTaskPolicyCeiling

/-- The collections are in the normal form of the constructor. -/
structure Normal (c : CompiledTaskPolicyCeiling) : Prop where
  tools : c.tools.Pairwise (· < ·)
  actions : c.actions.Pairwise (· < ·)
  networkDestinations : c.networkDestinations.Pairwise (· < ·)
  dataClasses : c.dataClasses.Pairwise (· < ·)
  requiredAttestations : c.requiredAttestations.Pairwise (· < ·)
  humanApprovalGates : c.humanApprovalGates.Pairwise (· < ·)
  actionResources : IsMapping c.actionResources
  argumentConstraints : IsMapping c.argumentConstraints

/-- The checks of the constructor, on all fields but the ceiling's own digest. -/
structure Valid (c : CompiledTaskPolicyCeiling) : Prop where
  schema : IsText 256 c.schema
  ceilingId : IsText 256 c.ceilingId
  taskId : IsText 256 c.taskId
  subjectId : IsText 256 c.subjectId
  workloadIdentity : IsText 256 c.workloadIdentity
  tenant : IsText 256 c.tenant
  environment : IsText 256 c.environment
  synthesizerVersion : IsText 256 c.synthesizerVersion
  compilerVersion : IsText 256 c.compilerVersion
  policyVersion : IsText 256 c.policyVersion
  providerKeyId : IsText 256 c.providerKeyId
  providerMethod : IsText 256 c.providerMethod
  decayProfile : IsText 256 c.decayProfile
  taskFingerprint : isDigest c.taskFingerprint = true
  candidateDigest : isDigest c.candidateDigest = true
  providerAttestationDigest : isDigest c.providerAttestationDigest = true
  providerBundleDigest : isDigest c.providerBundleDigest = true
  guardianReductionsDigest : isDigest c.guardianReductionsDigest = true
  tools : IsStrings c.tools
  actions : IsStrings c.actions
  networkDestinations : IsStrings c.networkDestinations
  dataClasses : IsStrings c.dataClasses
  requiredAttestations : IsStrings c.requiredAttestations
  humanApprovalGates : IsStrings c.humanApprovalGates
  maximumReadBytes : 0 ≤ c.maximumReadBytes ∧ c.maximumReadBytes ≤ maxSafeInteger
  maximumWriteBytes : 0 ≤ c.maximumWriteBytes ∧ c.maximumWriteBytes ≤ maxSafeInteger
  maximumCalls : 0 ≤ c.maximumCalls ∧ c.maximumCalls ≤ maxSafeInteger
  maximumParallelism : 0 ≤ c.maximumParallelism ∧ c.maximumParallelism ≤ maxSafeInteger
  maximumDurationSeconds : 0 ≤ c.maximumDurationSeconds ∧ c.maximumDurationSeconds ≤ maxSafeInteger
  issuedAtMs : 0 ≤ c.issuedAtMs ∧ c.issuedAtMs ≤ maxSafeInteger
  expiresAtMs : 0 ≤ c.expiresAtMs ∧ c.expiresAtMs ≤ maxSafeInteger
  issued_lt_expires : c.issuedAtMs < c.expiresAtMs
  boundResources : keysOf c.actionResources ⊆ c.actions ∧ c.actions ⊆ keysOf c.actionResources
  boundArguments : keysOf c.argumentConstraints ⊆ c.actions ∧
    c.actions ⊆ keysOf c.argumentConstraints

variable {c c' : CompiledTaskPolicyCeiling}

theorem Normal.withDigest {x : String} (h : c.Normal) : Normal { c with compiledDigest := x } :=
  { h with }

theorem Valid.withDigest {x : String} (h : c.Valid) : Valid { c with compiledDigest := x } :=
  { h with }

/-- A ceiling in normal form that passes the checks is constructed as it is. -/
theorem postInit_eq_ok (h : c.Normal) :
    c.postInit = .ok c' ↔ c.Valid ∧ isDigest c.compiledDigest = true ∧ c' = c := by
  simp only [postInit, text_bind_eq_ok, digestText_bind_eq_ok, nonnegative_bind_eq_ok,
    raiseIf_bind_eq_ok, strings_bind_eq_ok_of_pairwise h.tools,
    strings_bind_eq_ok_of_pairwise h.actions, strings_bind_eq_ok_of_pairwise h.networkDestinations,
    strings_bind_eq_ok_of_pairwise h.dataClasses,
    strings_bind_eq_ok_of_pairwise h.requiredAttestations,
    strings_bind_eq_ok_of_pairwise h.humanApprovalGates, h.actionResources.bind_eq,
    h.argumentConstraints.bind_eq, not_le, not_not]
  constructor
  · rintro ⟨h1, h2, h3, h4, h5, h6, h7, h8, h9, h10, h11, h12, h13, h14, h15, h16, h17,
      h18, hdigest, h19, h20, h21, h22, h23, h24, h25, h26, h27, h28, h29, h30, h31, h32, h33, h34,
      hc⟩
    exact
      ⟨⟨h1, h2, h3, h4, h5, h6, h7, h8, h9, h10, h11, h12, h13, h14, h15, h16, h17, h18, h19, h20,
      h21, h22, h23, h24, h25, h26, h27, h28, h29, h30, h31, h32, h33, h34⟩, hdigest,
      (Except.ok.inj hc).symm⟩
  · rintro ⟨⟨h1, h2, h3, h4, h5, h6, h7, h8, h9, h10, h11, h12, h13, h14, h15, h16, h17, h18, h19,
      h20, h21, h22, h23, h24, h25, h26, h27, h28, h29, h30, h31, h32, h33, h34⟩, hdigest, rfl⟩
    exact ⟨h1, h2, h3, h4, h5, h6, h7, h8, h9, h10, h11, h12, h13, h14, h15, h16, h17, h18, hdigest,
      h19, h20, h21, h22, h23, h24, h25, h26, h27, h28, h29, h30, h31, h32, h33, h34, rfl⟩

/-- A ceiling that passes the checks is within the canonical limits. -/
theorem Valid.canonicalizes (h : c.Valid) (hn : c.Normal) {d : ℕ} (hd : d + 3 ≤ maxCanonicalDepth) :
    Canonicalizes d c.unsignedDict := by
  have hleaf : d + 1 ≤ maxCanonicalDepth := by omega
  have hdigest : ∀ {x : String}, isDigest x = true → Canonicalizes (d + 1) (.str x) :=
    fun hx ↦ (isText_of_isDigest hx).canonicalizes hleaf
  refine canonicalizes_obj_of_isAscii (by simp only [List.map_cons, List.map_nil]; rfl)
    (by repeat refine plainKeys_cons (by decide) ?_
        rfl) (by decide) hleaf ?_
  simp only [List.forall_mem_cons]
  refine ⟨h.schema.canonicalizes hleaf, h.ceilingId.canonicalizes hleaf,
    h.taskId.canonicalizes hleaf, hdigest h.taskFingerprint,
    h.subjectId.canonicalizes hleaf, h.workloadIdentity.canonicalizes hleaf,
    h.tenant.canonicalizes hleaf, h.environment.canonicalizes hleaf,
    h.synthesizerVersion.canonicalizes hleaf, h.compilerVersion.canonicalizes hleaf,
    h.policyVersion.canonicalizes hleaf, hdigest h.candidateDigest,
    hdigest h.providerAttestationDigest, hdigest h.providerBundleDigest,
    h.providerKeyId.canonicalizes hleaf, h.providerMethod.canonicalizes hleaf,
    c.providerTrust.canonicalizes hleaf, c.requiredTrustTier.canonicalizes hleaf,
    canonicalizes_strArray h.tools (by omega), canonicalizes_strArray h.actions (by omega),
    canonicalizes_strArrays hn.actionResources (by omega),
    canonicalizes_strArrays hn.argumentConstraints (by omega),
    canonicalizes_strArray h.networkDestinations (by omega),
    canonicalizes_strArray h.dataClasses (by omega),
    canonicalizes_bounded h.maximumReadBytes hleaf,
    canonicalizes_bounded h.maximumWriteBytes hleaf,
    canonicalizes_bounded h.maximumCalls hleaf,
    canonicalizes_bounded h.maximumParallelism hleaf,
    canonicalizes_bounded h.maximumDurationSeconds hleaf,
    canonicalizes_strArray h.requiredAttestations (by omega),
    canonicalizes_strArray h.humanApprovalGates (by omega),
    h.decayProfile.canonicalizes hleaf, hdigest h.guardianReductionsDigest,
    canonicalizes_bounded h.issuedAtMs hleaf, canonicalizes_bounded h.expiresAtMs hleaf,
    ?_⟩
  simp

end CompiledTaskPolicyCeiling

end Admission

end EventHorizon.Policy
