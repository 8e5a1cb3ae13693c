import EventHorizon.Policy.Admission

/-!
# Guardian reductions

The loop over the guardian reductions has a closed form: what is left of each collection is what no
reduction removes, and what is left of each number is its least cap. So the outcome of a compilation
depends on the set of the reductions only, and a larger set leaves less. The pruning that follows
keeps this, because an action that has a tool and a resource under more reductions has them under
fewer.
-/

namespace EventHorizon.Policy

section Reductions

variable [Platform]

/-! ## The closed form -/

/-- The reduction does not end the compilation. -/
def AuthorityReduction.Passes (approved : List String) (r : AuthorityReduction) : Prop :=
  (r.requireHumanApproval = true → "guardian-review" ∈ approved) ∧
    ¬r.requireReattestation = true ∧ ¬r.revoke = true

/-- The scope after a list of reductions. -/
def Scope.reduced (s : Scope) (rs : List AuthorityReduction) : Scope where
  tools := without s.tools (rs.map (·.removeTools))
  actions := without s.actions (rs.map (·.removeActions))
  network := without s.network (rs.map (·.removeNetworkDestinations))
  actionResources := s.actionResources.map fun row ↦
    (row.1, without row.2 (rs.map (·.removeResources)))
  maximumRead := capped s.maximumRead (rs.map (·.maximumReadBytes))
  maximumWrite := capped s.maximumWrite (rs.map (·.maximumWriteBytes))
  maximumCalls := capped s.maximumCalls (rs.map (·.maximumCalls))
  maximumParallelism := capped s.maximumParallelism (rs.map (·.maximumParallelism))
  maximumDuration := capped s.maximumDuration (rs.map (·.maximumDurationSeconds))

variable {approved : List String} {s s' : Scope} {r : AuthorityReduction}
  {rs rs' : List AuthorityReduction}

theorem Scope.reduced_nil : s.reduced [] = s := by
  simp [reduced, without_nil, capped_nil]

theorem Scope.reduce_eq_ok : s.reduce approved r = .ok s' ↔
    r.Passes approved ∧ s' = s.reduced [r] := by
  have hone : ∀ (xs ys : List String), without xs [ys] = xs.filter (· ∉ ys) := by
    intro xs ys
    rw [without_cons, without_nil]
  simp only [reduce, raiseIf_bind_eq_ok, not_and, not_not, AuthorityReduction.Passes, and_assoc]
  refine and_congr_right fun _ ↦ and_congr_right fun _ ↦ and_congr_right fun _ ↦ ?_
  simp only [reduced, List.map_cons, List.map_nil, hone]
  exact ⟨fun h ↦ (Except.ok.inj h).symm, fun h ↦ h ▸ rfl⟩

theorem Scope.reduced_cons : (s.reduced [r]).reduced rs = s.reduced (r :: rs) := by
  have hone : ∀ (xs ys : List String) (zss : List (List String)),
      without (without xs [ys]) zss = without xs (ys :: zss) := by
    intro xs ys zss
    rw [without_cons, without_nil, without_cons]
  simp only [reduced, List.map_cons, List.map_nil, hone, List.map_map, Function.comp_def]
  rfl

/-- The loop over the reductions. -/
theorem foldlM_reduce_eq_ok : rs.foldlM (Scope.reduce approved) s = .ok s' ↔
    (∀ r ∈ rs, r.Passes approved) ∧ s' = s.reduced rs := by
  induction rs generalizing s with
  | nil =>
    rw [List.foldlM_nil, Scope.reduced_nil]
    exact ⟨fun h ↦ ⟨by simp, (Except.ok.inj h).symm⟩, fun h ↦ h.2 ▸ rfl⟩
  | cons r rs ih =>
    rw [List.foldlM_cons, bind_eq_ok, List.forall_mem_cons]
    constructor
    · rintro ⟨s₁, h₁, h⟩
      obtain ⟨hr, rfl⟩ := Scope.reduce_eq_ok.mp h₁
      obtain ⟨hrs, rfl⟩ := ih.mp h
      exact ⟨⟨hr, hrs⟩, Scope.reduced_cons⟩
    · rintro ⟨⟨hr, hrs⟩, rfl⟩
      exact ⟨_, Scope.reduce_eq_ok.mpr ⟨hr, rfl⟩, ih.mpr ⟨hrs, Scope.reduced_cons.symm⟩⟩

theorem mem_map_congr {β : Type} {f : AuthorityReduction → β} (h : ∀ r, r ∈ rs ↔ r ∈ rs') (b : β) :
    b ∈ rs.map f ↔ b ∈ rs'.map f := by
  simp only [List.mem_map, h]

/-- The order and the number of the reductions do not matter. -/
theorem Scope.reduced_congr (h : ∀ r, r ∈ rs ↔ r ∈ rs') : s.reduced rs = s.reduced rs' := by
  have hwithout : ∀ {f : AuthorityReduction → List String} (xs : List String),
      without xs (rs.map f) = without xs (rs'.map f) :=
    fun xs ↦ without_congr (mem_map_congr h)
  have hcapped : ∀ {f : AuthorityReduction → Option ℤ} (n : ℤ),
      capped n (rs.map f) = capped n (rs'.map f) :=
    fun n ↦ capped_congr (mem_map_congr h)
  simp only [reduced, hwithout, hcapped]

/-! ## What is left -/

namespace TrustedPolicyCompiler

variable {k : TrustedPolicyCompiler} {candidate : CandidateTaskPolicyCeiling} {a x : String}

/-- The resources that are left to an action. -/
def resourcesLeft (candidate : CandidateFields) (rs : List AuthorityReduction) (action : String) :
    List String :=
  without (proposedResources candidate action) (rs.map (·.removeResources))

/-- The tools that are left. -/
def toolsLeft (candidate : CandidateFields) (rs : List AuthorityReduction) : List String :=
  without candidate.tools (rs.map (·.removeTools))

/-- The actions that are left: not removed, supplied by a tool that is left, and with a resource. -/
def actionsLeft (k : TrustedPolicyCompiler) (candidate : CandidateFields)
    (rs : List AuthorityReduction) : List String :=
  candidate.actions.filter fun action ↦
    action ∈ (without candidate.actions (rs.map (·.removeActions))).filter
      (· ∈ k.suppliedActions (toolsLeft candidate rs)) ∧ resourcesLeft candidate rs action ≠ []

theorem mem_actionsLeft {candidate : CandidateFields} : a ∈ k.actionsLeft candidate rs ↔
    a ∈ candidate.actions ∧ (∀ r ∈ rs, a ∉ r.removeActions) ∧
      (∃ tool ∈ toolsLeft candidate rs, a ∈ (k.toolActions.get? tool).getD []) ∧
        resourcesLeft candidate rs a ≠ [] := by
  simp only [actionsLeft, suppliedActions, List.mem_filter, decide_eq_true_eq, mem_without,
    List.forall_mem_map, List.mem_flatMap]
  constructor
  · rintro ⟨ha, ⟨⟨-, hr⟩, hsupplied⟩, hres⟩
    exact ⟨ha, hr, hsupplied, hres⟩
  · rintro ⟨ha, hr, hsupplied, hres⟩
    exact ⟨ha, ⟨⟨ha, hr⟩, hsupplied⟩, hres⟩

theorem resourcesLeft_subset {candidate : CandidateFields} (h : rs' ⊆ rs) (a : String) :
    resourcesLeft candidate rs a ⊆ resourcesLeft candidate rs' a :=
  without_subset (List.map_subset _ h)

theorem toolsLeft_subset {candidate : CandidateFields} (h : rs' ⊆ rs) :
    toolsLeft candidate rs ⊆ toolsLeft candidate rs' := without_subset (List.map_subset _ h)

/-- Fewer reductions leave more actions, through the pruning too. -/
theorem actionsLeft_subset {candidate : CandidateFields} (h : rs' ⊆ rs) :
    k.actionsLeft candidate rs ⊆ k.actionsLeft candidate rs' := by
  intro a ha
  obtain ⟨hmem, hr, ⟨tool, htool, hsupplied⟩, hres⟩ := mem_actionsLeft.mp ha
  refine mem_actionsLeft.mpr ⟨hmem, fun r hr' ↦ hr r (h hr'),
    ⟨tool, toolsLeft_subset h htool, hsupplied⟩, fun hnil ↦ hres ?_⟩
  exact List.subset_nil.mp (hnil ▸ resourcesLeft_subset h a)

theorem isStrings_resourcesLeft (candidate : CandidateTaskPolicyCeiling)
    (rs : List AuthorityReduction) (a : String) :
    IsStrings (resourcesLeft candidate.toCandidateFields rs a) :=
  (isStrings_proposedResources candidate a).sublist without_sublist

theorem isStrings_toolsLeft (candidate : CandidateTaskPolicyCeiling)
    (rs : List AuthorityReduction) :
    IsStrings (toolsLeft candidate.toCandidateFields rs) :=
  candidate.normal.tools.sublist without_sublist

theorem isStrings_actionsLeft (k : TrustedPolicyCompiler)
    (candidate : CandidateTaskPolicyCeiling) (rs : List AuthorityReduction) :
    IsStrings (k.actionsLeft candidate.toCandidateFields rs) :=
  candidate.normal.actions.sublist List.filter_sublist

/-- A table over the actions that are left is in normal form. -/
theorem isMapping_graph {xs : List String} {f : String → List String} (hxs : IsStrings xs)
    (hf : ∀ x, IsStrings (f x)) : IsMapping (Table.graph xs f) := by
  refine ⟨?_, fun r hr ↦ ?_, ?_⟩
  · rw [Table.graph, List.length_map]
    exact hxs.1
  · obtain ⟨hx, hvalue⟩ := Table.mem_graph.mp hr
    exact ⟨hxs.2.1 _ hx, hvalue ▸ hf _⟩
  · rw [Table.keys_graph]
    exact hxs.2.2

/-! ## The ceiling -/

variable {task : TaskDescription} {approvedHumanGates : List String} {nowMs : ℤ}

/-- The scope when the loop over the reductions has ended. -/
def scope (k : TrustedPolicyCompiler) (task : TaskFields) (candidate : CandidateFields)
    (approvedHumanGates : List String) (rs : List AuthorityReduction) : Scope :=
  (k.initialScope candidate (k.prepared task candidate approvedHumanGates)).reduced rs

/-- The ceiling before its own digest is computed. -/
def ceiling (k : TrustedPolicyCompiler) (task : TaskFields) (candidate : CandidateFields)
    (approvedHumanGates : List String) (nowMs : ℤ) (rs : List AuthorityReduction)
    (candidateDigest reductionsDigest : String) : CompiledTaskPolicyCeiling :=
  k.unsigned task candidate nowMs (k.prepared task candidate approvedHumanGates)
    (k.scope task candidate approvedHumanGates rs) candidateDigest reductionsDigest

theorem pruned_scope (k : TrustedPolicyCompiler) (task : TaskFields) (candidate : CandidateFields)
    (approvedHumanGates : List String) (rs : List AuthorityReduction) :
    k.pruned (k.scope task candidate approvedHumanGates rs) =
      Table.graph (k.actionsLeft candidate rs) (resourcesLeft candidate rs) := by
  have hrows : (k.scope task candidate approvedHumanGates rs).actionResources =
      Table.graph candidate.actions (resourcesLeft candidate rs) := by
    simp only [scope, Scope.reduced, initialScope, prepared, Table.graph, List.map_map]
    rfl
  rw [pruned, hrows, Table.filter_graph]
  rfl

section Ceiling

variable {candidateDigest reductionsDigest : String}

theorem ceiling_tools : (k.ceiling task.toTaskFields candidate.toCandidateFields approvedHumanGates
    nowMs rs candidateDigest reductionsDigest).tools = toolsLeft candidate.toCandidateFields rs :=
  sortUnique_of_pairwise (isStrings_toolsLeft candidate rs).2.2

theorem ceiling_actions :
    (k.ceiling task.toTaskFields candidate.toCandidateFields approvedHumanGates
    nowMs rs candidateDigest reductionsDigest).actions =
      k.actionsLeft candidate.toCandidateFields rs := by
  rw [ceiling, unsigned, pruned_scope, keysOf, Table.keys_graph]
  exact sortUnique_of_pairwise (isStrings_actionsLeft k candidate rs).2.2

theorem ceiling_actionResources : (k.ceiling task.toTaskFields candidate.toCandidateFields
    approvedHumanGates nowMs rs candidateDigest reductionsDigest).actionResources =
      Table.graph (k.actionsLeft candidate.toCandidateFields rs)
        (resourcesLeft candidate.toCandidateFields rs) := by
  rw [ceiling, unsigned, pruned_scope]
  have hm := isMapping_graph (isStrings_actionsLeft k candidate rs)
    (isStrings_resourcesLeft candidate rs)
  exact Json.sortFields_of_sorted ((List.pairwise_map.mp hm.2.2).imp le_of_lt)

theorem ceiling_argumentConstraints : (k.ceiling task.toTaskFields candidate.toCandidateFields
    approvedHumanGates nowMs rs candidateDigest reductionsDigest).argumentConstraints =
      Table.graph (k.actionsLeft candidate.toCandidateFields rs)
        (proposedArguments candidate.toCandidateFields) := by
  rw [ceiling, unsigned, pruned_scope, keysOf, Table.keys_graph, argumentsOf,
    sortUnique_of_pairwise (isStrings_actionsLeft k candidate rs).2.2]
  refine List.map_congr_left fun a ha ↦ ?_
  have hmem := (mem_actionsLeft.mp ha).1
  rw [prepared, Table.get?_graph, if_pos hmem]
  rfl

theorem ceiling_networkDestinations : (k.ceiling task.toTaskFields candidate.toCandidateFields
    approvedHumanGates nowMs rs candidateDigest reductionsDigest).networkDestinations =
      without candidate.networkDestinations (rs.map (·.removeNetworkDestinations)) :=
  sortUnique_of_pairwise (candidate.normal.networkDestinations.sublist without_sublist).2.2

theorem ceiling_normal : (k.ceiling task.toTaskFields candidate.toCandidateFields approvedHumanGates
    nowMs rs candidateDigest reductionsDigest).Normal where
  tools := pairwise_lt_sortUnique _
  actions := pairwise_lt_sortUnique _
  networkDestinations := pairwise_lt_sortUnique _
  dataClasses := pairwise_lt_sortUnique _
  requiredAttestations := pairwise_lt_sortUnique _
  humanApprovalGates := pairwise_lt_sortUnique _
  actionResources := by
    rw [ceiling_actionResources]
    exact isMapping_graph (isStrings_actionsLeft k candidate rs)
      (isStrings_resourcesLeft candidate rs)
  argumentConstraints := by
    rw [ceiling_argumentConstraints]
    exact isMapping_graph (isStrings_actionsLeft k candidate rs)
      (isStrings_proposedArguments candidate)

end Ceiling

/-! ## When a compilation succeeds -/

/-- There is authority left, and time to use it. -/
structure Alive (k : TrustedPolicyCompiler) (task : TaskFields) (candidate : CandidateFields)
    (approvedHumanGates : List String) (nowMs : ℤ) (rs : List AuthorityReduction) : Prop where
  time :
    nowMs < expiration task nowMs (k.scope task candidate approvedHumanGates rs).maximumDuration
  calls : 0 < (k.scope task candidate approvedHumanGates rs).maximumCalls
  parallelism : 0 < (k.scope task candidate approvedHumanGates rs).maximumParallelism
  actions : k.actionsLeft candidate rs ≠ []

variable {C C' : CompiledTaskPolicyCeiling}

/-- A ceiling that carries its digest passes its own check. -/
theorem verifyIntegrity_withDigest {candidateDigest reductionsDigest x : String}
    (hx : digest (k.ceiling task.toTaskFields candidate.toCandidateFields approvedHumanGates nowMs
      rs candidateDigest reductionsDigest).unsignedDict = .ok x) :
    CompiledTaskPolicyCeiling.verifyIntegrity { k.ceiling task.toTaskFields
      candidate.toCandidateFields approvedHumanGates nowMs rs candidateDigest reductionsDigest with
        compiledDigest := x } = .ok () :=
  raiseIf_bind_eq_ok.mpr ⟨not_not.mpr rfl, bind_eq_ok.mpr ⟨x, hx,
    raiseIf_eq_ok.mpr (not_not.mpr rfl)⟩⟩

theorem finish_eq_ok : k.finish task candidate rs nowMs
      (k.prepared task.toTaskFields candidate.toCandidateFields approvedHumanGates)
      (k.scope task.toTaskFields candidate.toCandidateFields approvedHumanGates rs) = .ok C ↔
    k.Alive task.toTaskFields candidate.toCandidateFields approvedHumanGates nowMs rs ∧
      ∃ candidateDigest reductionsDigest compiledDigest,
        digest candidate.toDict = .ok candidateDigest ∧
        digest (.arr (rs.map fun r ↦ r.toDict)) = .ok reductionsDigest ∧
        (k.ceiling task.toTaskFields candidate.toCandidateFields approvedHumanGates nowMs rs
          candidateDigest reductionsDigest).Valid ∧
        digest (k.ceiling task.toTaskFields candidate.toCandidateFields approvedHumanGates nowMs rs
          candidateDigest reductionsDigest).unsignedDict = .ok compiledDigest ∧
        C = { k.ceiling task.toTaskFields candidate.toCandidateFields approvedHumanGates nowMs rs
          candidateDigest reductionsDigest with compiledDigest := compiledDigest } := by
  have hempty :
      k.pruned (k.scope task.toTaskFields candidate.toCandidateFields approvedHumanGates rs)
      = [] ↔ k.actionsLeft candidate.toCandidateFields rs = [] := by
    rw [pruned_scope, Table.graph, List.map_eq_nil_iff]
  rw [finish, raiseIf_bind_eq_ok, hempty]
  refine and_congr ⟨fun h ↦ ?_, fun h ↦ ?_⟩ ?_
  · simp only [not_or, not_le] at h
    exact ⟨h.1, h.2.1, h.2.2.1, h.2.2.2⟩
  · simp only [not_or, not_le]
    exact ⟨h.time, h.calls, h.parallelism, h.actions⟩
  constructor
  · intro h
    obtain ⟨cd, hcd, h⟩ := bind_eq_ok.mp h
    obtain ⟨rd, hrd, h⟩ := bind_eq_ok.mp h
    obtain ⟨x, hx, h⟩ := bind_eq_ok.mp h
    obtain ⟨c, hc, h⟩ := bind_eq_ok.mp h
    obtain ⟨-, -, h⟩ := bind_eq_ok.mp h
    obtain ⟨hvalid, -, rfl⟩ :=
      (CompiledTaskPolicyCeiling.postInit_eq_ok ceiling_normal.withDigest).mp hc
    exact ⟨cd, rd, x, hcd, hrd, hvalid.withDigest, hx, (Except.ok.inj h).symm⟩
  · rintro ⟨cd, rd, x, hcd, hrd, hvalid, hx, rfl⟩
    refine bind_eq_ok.mpr ⟨cd, hcd, bind_eq_ok.mpr ⟨rd, hrd, bind_eq_ok.mpr ⟨x, hx,
      bind_eq_ok.mpr ⟨_, ?_, bind_eq_ok.mpr ⟨(), verifyIntegrity_withDigest hx, rfl⟩⟩⟩⟩⟩
    exact (CompiledTaskPolicyCeiling.postInit_eq_ok ceiling_normal.withDigest).mpr
      ⟨hvalid.withDigest, isDigest_of_digest_eq_ok hx, rfl⟩

theorem compile_eq_ok : k.compile task candidate rs approvedHumanGates nowMs = .ok C ↔
    k.Admissible task candidate approvedHumanGates nowMs ∧
      (∀ r ∈ rs, r.Passes approvedHumanGates) ∧
      k.finish task candidate rs nowMs
        (k.prepared task.toTaskFields candidate.toCandidateFields approvedHumanGates)
        (k.scope task.toTaskFields candidate.toCandidateFields approvedHumanGates rs) = .ok C := by
  have hpasses : ∀ r : AuthorityReduction,
      r.Passes (approvedHumanGates.insertionSort (· ≤ ·)) ↔ r.Passes approvedHumanGates := by
    intro r
    rw [AuthorityReduction.Passes, AuthorityReduction.Passes, List.mem_insertionSort]
  rw [compile, bind_eq_ok]
  constructor
  · rintro ⟨p, hp, h⟩
    obtain ⟨hadmissible, rfl⟩ := prepare_eq_ok.mp hp
    obtain ⟨s, hs, h⟩ := bind_eq_ok.mp h
    obtain ⟨hrs, rfl⟩ := foldlM_reduce_eq_ok.mp hs
    exact ⟨hadmissible, fun r hr ↦ (hpasses r).mp (hrs r hr), h⟩
  · rintro ⟨hadmissible, hrs, h⟩
    refine ⟨_, prepare_eq_ok.mpr ⟨hadmissible, rfl⟩, bind_eq_ok.mpr ⟨_, ?_, h⟩⟩
    exact foldlM_reduce_eq_ok.mpr ⟨fun r hr ↦ (hpasses r).mpr (hrs r hr), rfl⟩

/-! ## Order and containment of ceilings -/

end TrustedPolicyCompiler

namespace CompiledTaskPolicyCeiling

/-- The resources a ceiling allows an action. -/
def resourcesOf (c : CompiledTaskPolicyCeiling) (action : String) : List String :=
  (c.actionResources.get? action).getD []

/-- The argument keys a ceiling allows an action. -/
def argumentKeysOf (c : CompiledTaskPolicyCeiling) (action : String) : List String :=
  (c.argumentConstraints.get? action).getD []

/-- The authority of one ceiling is contained in that of another. -/
structure Within (c d : CompiledTaskPolicyCeiling) : Prop where
  tools : c.tools ⊆ d.tools
  actions : c.actions ⊆ d.actions
  resources : ∀ action, c.resourcesOf action ⊆ d.resourcesOf action
  argumentKeys : ∀ action, c.argumentKeysOf action ⊆ d.argumentKeysOf action
  networkDestinations : c.networkDestinations ⊆ d.networkDestinations
  maximumReadBytes : c.maximumReadBytes ≤ d.maximumReadBytes
  maximumWriteBytes : c.maximumWriteBytes ≤ d.maximumWriteBytes
  maximumCalls : c.maximumCalls ≤ d.maximumCalls
  maximumParallelism : c.maximumParallelism ≤ d.maximumParallelism
  maximumDurationSeconds : c.maximumDurationSeconds ≤ d.maximumDurationSeconds
  expiresAtMs : c.expiresAtMs ≤ d.expiresAtMs

omit [Platform] in
theorem Within.withDigest {c d : CompiledTaskPolicyCeiling} {x y : String} (h : c.Within d) :
    Within { c with compiledDigest := x } { d with compiledDigest := y } := { h with }

/-- The two ceilings differ at most in the digest of the reductions and their own. -/
def SameAuthority (c d : CompiledTaskPolicyCeiling) : Prop :=
  d = { c with
    guardianReductionsDigest := d.guardianReductionsDigest
    compiledDigest := d.compiledDigest }

end CompiledTaskPolicyCeiling

namespace TrustedPolicyCompiler

/-- A ceiling within the candidate's, the static policy's and the compiler's limits. -/
structure Limits (k : TrustedPolicyCompiler) (task : TaskFields) (candidate : CandidateFields)
    (nowMs : ℤ) (c : CompiledTaskPolicyCeiling) : Prop where
  tools : c.tools ⊆ candidate.tools ∧ c.tools ⊆ keysOf k.toolActions
  actions : c.actions ⊆ candidate.actions
  rules : ∀ action ∈ c.actions, ∃ rule, k.globalPolicy.operations.get? action = some rule ∧
    c.resourcesOf action ⊆ rule.resources ∧ c.argumentKeysOf action ⊆ rule.allowedArgumentKeys
  resources : ∀ action, c.resourcesOf action ⊆ proposedResources candidate action
  argumentKeys : ∀ action, c.argumentKeysOf action ⊆ proposedArguments candidate action
  networkDestinations : c.networkDestinations ⊆ candidate.networkDestinations ∧
    c.networkDestinations ⊆ k.allowedNetworkDestinations
  maximumReadBytes : c.maximumReadBytes ≤ candidate.maximumReadBytes ∧
    c.maximumReadBytes ≤ k.globalMaximumReadBytes
  maximumWriteBytes : c.maximumWriteBytes ≤ candidate.maximumWriteBytes ∧
    c.maximumWriteBytes ≤ k.globalMaximumWriteBytes
  maximumCalls : c.maximumCalls ≤ candidate.maximumCalls ∧ c.maximumCalls ≤ k.globalMaximumCalls
  maximumParallelism : c.maximumParallelism ≤ candidate.maximumParallelism ∧
    c.maximumParallelism ≤ k.globalMaximumParallelism
  maximumDurationSeconds : c.maximumDurationSeconds ≤ candidate.maximumDurationSeconds ∧
    c.maximumDurationSeconds ≤ k.globalMaximumDurationSeconds
  expiresAtMs : c.expiresAtMs ≤ nowMs + candidate.maximumDurationSeconds * 1000 ∧
    c.expiresAtMs ≤ nowMs + k.globalMaximumDurationSeconds * 1000 ∧
    c.expiresAtMs ≤ task.requestedCompletionDeadlineMs ∧
    c.expiresAtMs ≤ task.providerAttestedTrust.expiresAtMs

omit [Platform] in
theorem Limits.withDigest {k : TrustedPolicyCompiler} {task : TaskFields}
    {candidate : CandidateFields} {nowMs : ℤ} {c : CompiledTaskPolicyCeiling} {x : String}
    (h : k.Limits task candidate nowMs c) :
    k.Limits task candidate nowMs { c with compiledDigest := x } := { h with }

/-- Every action has a resource and a tool. -/
def Supplies (k : TrustedPolicyCompiler) (c : CompiledTaskPolicyCeiling) : Prop :=
  ∀ action ∈ c.actions, c.resourcesOf action ≠ [] ∧
    ∃ tool ∈ c.tools, action ∈ (k.toolActions.get? tool).getD []

omit [Platform] in
theorem Supplies.withDigest {k : TrustedPolicyCompiler} {c : CompiledTaskPolicyCeiling} {x : String}
    (h : k.Supplies c) : k.Supplies { c with compiledDigest := x } := h

section Order

variable {k : TrustedPolicyCompiler} {candidate : CandidateTaskPolicyCeiling} {a x : String}
  {task : TaskDescription} {approvedHumanGates : List String} {nowMs : ℤ}
  {C C' : CompiledTaskPolicyCeiling}
  {candidateDigest reductionsDigest candidateDigest' reductionsDigest' : String}

theorem mem_resourcesOf_ceiling : x ∈ (k.ceiling task.toTaskFields candidate.toCandidateFields
      approvedHumanGates nowMs rs candidateDigest reductionsDigest).resourcesOf a ↔
    a ∈ k.actionsLeft candidate.toCandidateFields rs ∧
      x ∈ resourcesLeft candidate.toCandidateFields rs a := by
  rw [CompiledTaskPolicyCeiling.resourcesOf, ceiling_actionResources, Table.get?_graph]
  by_cases ha : a ∈ k.actionsLeft candidate.toCandidateFields rs <;> simp [ha]

theorem mem_argumentKeysOf_ceiling : x ∈ (k.ceiling task.toTaskFields candidate.toCandidateFields
      approvedHumanGates nowMs rs candidateDigest reductionsDigest).argumentKeysOf a ↔
    a ∈ k.actionsLeft candidate.toCandidateFields rs ∧
      x ∈ proposedArguments candidate.toCandidateFields a := by
  rw [CompiledTaskPolicyCeiling.argumentKeysOf, ceiling_argumentConstraints, Table.get?_graph]
  by_cases ha : a ∈ k.actionsLeft candidate.toCandidateFields rs <;> simp [ha]

omit [Platform] in
theorem expiration_le_expiration {task : TaskFields} {d d' : ℤ} (h : d ≤ d') :
    expiration task nowMs d ≤ expiration task nowMs d' := by
  rw [expiration, expiration]
  omega

theorem capped_map_le {f : AuthorityReduction → Option ℤ} {n : ℤ} (h : rs' ⊆ rs) :
    capped n (rs.map f) ≤ capped n (rs'.map f) := capped_le_capped (List.map_subset _ h)

/-- More reductions leave a smaller ceiling. -/
theorem ceiling_within (h : rs' ⊆ rs) :
    (k.ceiling task.toTaskFields candidate.toCandidateFields approvedHumanGates nowMs rs
      candidateDigest reductionsDigest).Within
    (k.ceiling task.toTaskFields candidate.toCandidateFields approvedHumanGates nowMs rs'
      candidateDigest' reductionsDigest') where
  tools := by
    rw [ceiling_tools, ceiling_tools]
    exact toolsLeft_subset h
  actions := by
    rw [ceiling_actions, ceiling_actions]
    exact actionsLeft_subset h
  resources a x hx := by
    obtain ⟨ha, hx⟩ := mem_resourcesOf_ceiling.mp hx
    exact mem_resourcesOf_ceiling.mpr ⟨actionsLeft_subset h ha, resourcesLeft_subset h a hx⟩
  argumentKeys a x hx := by
    obtain ⟨ha, hx⟩ := mem_argumentKeysOf_ceiling.mp hx
    exact mem_argumentKeysOf_ceiling.mpr ⟨actionsLeft_subset h ha, hx⟩
  networkDestinations := by
    rw [ceiling_networkDestinations, ceiling_networkDestinations]
    exact without_subset (List.map_subset _ h)
  maximumReadBytes := capped_map_le h
  maximumWriteBytes := capped_map_le h
  maximumCalls := capped_map_le h
  maximumParallelism := capped_map_le h
  maximumDurationSeconds := capped_map_le h
  expiresAtMs := expiration_le_expiration (capped_map_le h)

theorem ceiling_limits (h : k.Admissible task candidate approvedHumanGates nowMs) :
    k.Limits task.toTaskFields candidate.toCandidateFields nowMs
      (k.ceiling task.toTaskFields candidate.toCandidateFields approvedHumanGates nowMs rs
        candidateDigest reductionsDigest) := by
  have htools : toolsLeft candidate.toCandidateFields rs ⊆ candidate.tools :=
    without_sublist.subset
  have hresources : ∀ a, (k.ceiling task.toTaskFields candidate.toCandidateFields approvedHumanGates
      nowMs rs candidateDigest reductionsDigest).resourcesOf a ⊆
        proposedResources candidate.toCandidateFields a :=
    fun a x hx ↦ without_sublist.subset (mem_resourcesOf_ceiling.mp hx).2
  have harguments : ∀ a, (k.ceiling task.toTaskFields candidate.toCandidateFields approvedHumanGates
      nowMs rs candidateDigest reductionsDigest).argumentKeysOf a ⊆
        proposedArguments candidate.toCandidateFields a :=
    fun a x hx ↦ (mem_argumentKeysOf_ceiling.mp hx).2
  have hnetwork : without candidate.networkDestinations (rs.map (·.removeNetworkDestinations)) ⊆
      candidate.networkDestinations := without_sublist.subset
  have hcap : ∀ {f : AuthorityReduction → Option ℤ} {m n : ℤ},
      capped (min m n) (rs.map f) ≤ m ∧ capped (min m n) (rs.map f) ≤ n :=
    ⟨le_trans capped_le (min_le_left _ _), le_trans capped_le (min_le_right _ _)⟩
  have hduration := hcap (f := (·.maximumDurationSeconds)) (m := candidate.maximumDurationSeconds)
    (n := k.globalMaximumDurationSeconds)
  constructor
  case tools => exact ceiling_tools ▸ ⟨htools, fun t ht ↦ h.knownTools (htools ht)⟩
  case actions => exact ceiling_actions ▸ fun a ha ↦ (mem_actionsLeft.mp ha).1
  case rules =>
    intro a ha
    rw [ceiling_actions] at ha
    obtain ⟨rule, hrule, hres, harg, -⟩ := h.covers a (mem_actionsLeft.mp ha).1
    exact ⟨rule, hrule, fun x hx ↦ hres (hresources a hx), fun x hx ↦ harg (harguments a hx)⟩
  case resources => exact hresources
  case argumentKeys => exact harguments
  case networkDestinations =>
    rw [ceiling_networkDestinations]
    exact ⟨hnetwork, fun x hx ↦ h.networkDestinations (hnetwork hx)⟩
  case maximumReadBytes => exact hcap
  case maximumWriteBytes => exact hcap
  case maximumCalls => exact hcap
  case maximumParallelism => exact hcap
  case maximumDurationSeconds => exact hcap
  case expiresAtMs =>
    have hexp : ∀ d, d ≤ candidate.maximumDurationSeconds → d ≤ k.globalMaximumDurationSeconds →
        expiration task.toTaskFields nowMs d ≤ nowMs + candidate.maximumDurationSeconds * 1000 ∧
        expiration task.toTaskFields nowMs d ≤ nowMs + k.globalMaximumDurationSeconds * 1000 ∧
        expiration task.toTaskFields nowMs d ≤ task.requestedCompletionDeadlineMs ∧
        expiration task.toTaskFields nowMs d ≤ task.providerAttestedTrust.expiresAtMs := by
      intro d hd hd'
      rw [expiration]
      omega
    exact hexp _ hduration.1 hduration.2

theorem ceiling_supplies : k.Supplies (k.ceiling task.toTaskFields candidate.toCandidateFields
    approvedHumanGates nowMs rs candidateDigest reductionsDigest) := by
  intro a ha
  rw [ceiling_actions] at ha
  obtain ⟨-, -, htool, hres⟩ := mem_actionsLeft.mp ha
  refine ⟨?_, ceiling_tools ▸ htool⟩
  rwa [CompiledTaskPolicyCeiling.resourcesOf, ceiling_actionResources, Table.get?_graph, if_pos ha]

/-- The checks of the constructor pass under fewer reductions when they pass under more. -/
theorem ceiling_valid (h : rs' ⊆ rs)
    (halive : k.Alive task.toTaskFields candidate.toCandidateFields approvedHumanGates nowMs rs)
    (hdigest : isDigest reductionsDigest' = true)
    (hvalid : (k.ceiling task.toTaskFields candidate.toCandidateFields approvedHumanGates nowMs rs
      candidateDigest reductionsDigest).Valid) :
    (k.ceiling task.toTaskFields candidate.toCandidateFields approvedHumanGates nowMs rs'
      candidateDigest reductionsDigest').Valid := by
  have hcap : ∀ {f : AuthorityReduction → Option ℤ} {m n : ℤ},
      0 ≤ capped (min m n) (rs.map f) ∧ capped (min m n) (rs.map f) ≤ maxSafeInteger →
      m ≤ maxSafeInteger →
      0 ≤ capped (min m n) (rs'.map f) ∧ capped (min m n) (rs'.map f) ≤ maxSafeInteger :=
    fun h0 hm ↦
      ⟨le_trans h0.1 (capped_map_le h), le_trans (le_trans capped_le (min_le_left _ _)) hm⟩
  have hexpires : nowMs < expiration task.toTaskFields nowMs (k.scope task.toTaskFields
      candidate.toCandidateFields approvedHumanGates rs').maximumDuration :=
    lt_of_lt_of_le halive.time (expiration_le_expiration (capped_map_le h))
  have hdeadline : ∀ d, expiration task.toTaskFields nowMs d ≤ maxSafeInteger := by
    intro d
    have := task.deadline_le
    rw [expiration]
    omega
  have hnormal := candidate.normal
  exact { hvalid with
    guardianReductionsDigest := hdigest
    tools := ceiling_tools ▸ isStrings_toolsLeft candidate rs'
    actions := ceiling_actions ▸ isStrings_actionsLeft k candidate rs'
    networkDestinations :=
      ceiling_networkDestinations ▸ hnormal.networkDestinations.sublist without_sublist
    maximumReadBytes := hcap hvalid.maximumReadBytes hnormal.maximumReadBytes.2
    maximumWriteBytes := hcap hvalid.maximumWriteBytes hnormal.maximumWriteBytes.2
    maximumCalls := hcap hvalid.maximumCalls hnormal.maximumCalls.2
    maximumParallelism := hcap hvalid.maximumParallelism hnormal.maximumParallelism.2
    maximumDurationSeconds := hcap hvalid.maximumDurationSeconds hnormal.maximumDurationSeconds.2
    expiresAtMs := ⟨le_of_lt (lt_of_le_of_lt hvalid.issuedAtMs.1 hexpires), hdeadline _⟩
    issued_lt_expires := hexpires
    boundResources := by
      rw [ceiling_actions, ceiling_actionResources, keysOf, Table.keys_graph]
      exact ⟨List.Subset.refl _, List.Subset.refl _⟩
    boundArguments := by
      rw [ceiling_actions, ceiling_argumentConstraints, keysOf, Table.keys_graph]
      exact ⟨List.Subset.refl _, List.Subset.refl _⟩ }

theorem alive_of_subset (h : rs' ⊆ rs)
    (halive : k.Alive task.toTaskFields candidate.toCandidateFields approvedHumanGates nowMs rs) :
    k.Alive task.toTaskFields candidate.toCandidateFields approvedHumanGates nowMs rs' where
  time := lt_of_lt_of_le halive.time (expiration_le_expiration (capped_map_le h))
  calls := lt_of_lt_of_le halive.calls (capped_map_le h)
  parallelism := lt_of_lt_of_le halive.parallelism (capped_map_le h)
  actions hnil := halive.actions (List.subset_nil.mp (hnil ▸ actionsLeft_subset h))

/-- The payloads of fewer reductions have a digest, if there are not too many of them. -/
theorem digest_payloads_of_subset (h : rs' ⊆ rs) (hlen : rs'.length ≤ maxCanonicalItems)
    (hdigest : digest (.arr (rs.map fun r ↦ r.toDict)) = .ok reductionsDigest) :
    ∃ x, digest (.arr (rs'.map fun r ↦ r.toDict)) = .ok x := by
  obtain ⟨-, -, hitems⟩ := canonicalizes_arr.mp (exists_digest_eq_ok.mp ⟨_, hdigest⟩)
  rw [exists_digest_eq_ok, canonicalizes_arr, List.length_map]
  exact ⟨Nat.zero_le _, hlen, fun x hx ↦ hitems x (List.map_subset _ h hx)⟩

/-- A compilation that succeeds under some reductions succeeds under fewer, with more authority. -/
theorem compile_of_subset (h : rs' ⊆ rs) (hlen : rs'.length ≤ maxCanonicalItems)
    (hC : k.compile task candidate rs approvedHumanGates nowMs = .ok C) :
    ∃ C', k.compile task candidate rs' approvedHumanGates nowMs = .ok C' ∧ C.Within C' := by
  obtain ⟨hadmissible, hpasses, hfinish⟩ := compile_eq_ok.mp hC
  obtain ⟨halive, cd, rd, x, hcd, hrd, hvalid, hx, rfl⟩ := finish_eq_ok.mp hfinish
  obtain ⟨rd', hrd'⟩ := digest_payloads_of_subset h hlen hrd
  have hvalid' := ceiling_valid h halive (isDigest_of_digest_eq_ok hrd') hvalid
  obtain ⟨x', hx'⟩ := exists_digest_eq_ok.mpr (hvalid'.canonicalizes ceiling_normal (by decide))
  refine ⟨_, compile_eq_ok.mpr ⟨hadmissible, fun r hr ↦ hpasses r (h hr), finish_eq_ok.mpr
    ⟨alive_of_subset h halive, cd, rd', x', hcd, hrd', hvalid', hx', rfl⟩⟩, ?_⟩
  exact (ceiling_within h).withDigest

/-- The reductions of a ceiling fit one canonical array. -/
theorem length_le_of_compile (hC : k.compile task candidate rs approvedHumanGates nowMs = .ok C) :
    rs.length ≤ maxCanonicalItems := by
  obtain ⟨-, cd, rd, x, -, hrd, -⟩ := finish_eq_ok.mp (compile_eq_ok.mp hC).2.2
  obtain ⟨-, hlen, -⟩ := canonicalizes_arr.mp (exists_digest_eq_ok.mp ⟨_, hrd⟩)
  rwa [List.length_map] at hlen

/-- Reductions with the same members make ceilings with the same authority. -/
theorem sameAuthority_of_mem_iff (h : ∀ r, r ∈ rs ↔ r ∈ rs')
    (hC : k.compile task candidate rs approvedHumanGates nowMs = .ok C)
    (hC' : k.compile task candidate rs' approvedHumanGates nowMs = .ok C') :
      C.SameAuthority C' := by
  obtain ⟨-, cd, rd, x, hcd, -, -, -, rfl⟩ := finish_eq_ok.mp (compile_eq_ok.mp hC).2.2
  obtain ⟨-, cd', rd', x', hcd', -, -, -, rfl⟩ := finish_eq_ok.mp (compile_eq_ok.mp hC').2.2
  obtain rfl := Except.ok.inj (hcd.symm.trans hcd')
  have hscope : k.scope task.toTaskFields candidate.toCandidateFields approvedHumanGates rs =
      k.scope task.toTaskFields candidate.toCandidateFields approvedHumanGates rs' :=
    Scope.reduced_congr h
  rw [CompiledTaskPolicyCeiling.SameAuthority, ceiling, ceiling, hscope]
  rfl

end Order

variable (k : TrustedPolicyCompiler) (task : TaskDescription)
  (candidate : CandidateTaskPolicyCeiling)
  (approvedHumanGates : List String) (nowMs : ℤ) (rs : List AuthorityReduction)

/-- Guardian reductions only subtract, in any order. A compilation under reductions succeeds without
them too, its ceiling is contained in the one without them and in the limits of the candidate, the
static policy and the compiler, and every action has a resource and a tool left. One more reduction
never makes a compilation succeed. Permuting the reductions, or repeating them while they fit the
array whose digest the ceiling carries, changes nothing but the digests. -/
theorem compile_reductions :
    (∀ C, k.compile task candidate rs approvedHumanGates nowMs = .ok C →
      (∃ C₀, k.compile task candidate [] approvedHumanGates nowMs = .ok C₀ ∧ C.Within C₀) ∧
        k.Limits task.toTaskFields candidate.toCandidateFields nowMs C ∧ k.Supplies C) ∧
    (∀ r, (∃ C, k.compile task candidate (rs ++ [r]) approvedHumanGates nowMs = .ok C) →
      ∃ C, k.compile task candidate rs approvedHumanGates nowMs = .ok C) ∧
    ∀ rs', (rs.Perm rs' ∨ (∀ r, r ∈ rs ↔ r ∈ rs') ∧ rs.length ≤ maxCanonicalItems ∧
        rs'.length ≤ maxCanonicalItems) →
      ((∃ C, k.compile task candidate rs approvedHumanGates nowMs = .ok C) ↔
        ∃ C', k.compile task candidate rs' approvedHumanGates nowMs = .ok C') ∧
      ∀ C C', k.compile task candidate rs approvedHumanGates nowMs = .ok C →
        k.compile task candidate rs' approvedHumanGates nowMs = .ok C' → C.SameAuthority C' := by
  have hsame : ∀ {ts us : List AuthorityReduction}, (∀ r, r ∈ ts ↔ r ∈ us) →
      us.length ≤ maxCanonicalItems →
      (∃ C, k.compile task candidate ts approvedHumanGates nowMs = .ok C) →
      ∃ C', k.compile task candidate us approvedHumanGates nowMs = .ok C' := by
    rintro ts us h hlen ⟨C, hC⟩
    obtain ⟨C', hC', -⟩ := compile_of_subset (fun r hr ↦ (h r).mpr hr) hlen hC
    exact ⟨C', hC'⟩
  refine ⟨fun C hC ↦ ?_, ?_, ?_⟩
  · refine ⟨compile_of_subset (List.nil_subset _) (Nat.zero_le _) hC, ?_⟩
    obtain ⟨hadmissible, -, hfinish⟩ := compile_eq_ok.mp hC
    obtain ⟨-, cd, rd, x, -, -, -, -, rfl⟩ := finish_eq_ok.mp hfinish
    exact ⟨(ceiling_limits hadmissible).withDigest, ceiling_supplies.withDigest⟩
  · rintro r ⟨C, hC⟩
    have hlen := length_le_of_compile hC
    rw [List.length_append] at hlen
    obtain ⟨C', hC', -⟩ := compile_of_subset (List.subset_append_left rs [r]) (by omega) hC
    exact ⟨C', hC'⟩
  · rintro rs' (hperm | ⟨hmem, hlen, hlen'⟩)
    · have hmem : ∀ r, r ∈ rs ↔ r ∈ rs' := fun r ↦ hperm.mem_iff
      refine ⟨⟨fun h ↦ ?_, fun h ↦ ?_⟩, fun C C' ↦ sameAuthority_of_mem_iff hmem⟩
      · exact hsame hmem (hperm.length_eq ▸ length_le_of_compile h.choose_spec) h
      · exact hsame (fun r ↦ (hmem r).symm) (hperm.length_eq ▸ length_le_of_compile h.choose_spec) h
    · exact ⟨⟨hsame hmem hlen', hsame (fun r ↦ (hmem r).symm) hlen⟩,
        fun C C' ↦ sameAuthority_of_mem_iff hmem⟩

end TrustedPolicyCompiler

end Reductions

/-! ## A small task

One agent reads one object. The compiler is the same for every set of agents that the static policy
allows. -/

namespace Sample

open TrustedPolicyCompiler

attribute [local instance] pythonPlatform

def trust : ProviderTrustState where
  requestedTrust := .software
  observedTrust := .software
  providerAttestedTrust := .software
  effectiveTrust := .software
  method := "tpm"
  keyId := "key-1"
  attestationDigest := "aaaaaaaaaaaaaaaaaaaaaaaaaaaaaaaaaaaaaaaaaaaaaaaaaaaaaaaaaaaaaaaa"
  bundleDigest := "bbbbbbbbbbbbbbbbbbbbbbbbbbbbbbbbbbbbbbbbbbbbbbbbbbbbbbbbbbbbbbbb"
  verifierPolicyDigest := "cccccccccccccccccccccccccccccccccccccccccccccccccccccccccccccccc"
  verifiedAtMs := 0
  expiresAtMs := 100000

def taskFields : TaskFields where
  taskId := "task-1"
  requestingSubject := "agent-1"
  workloadIdentity := "executor-1"
  naturalLanguageTask := "read the target"
  taskType := none
  tenant := "tenant-1"
  environment := "lab"
  availableTools := ["reader"]
  availableResources := ["target"]
  dataClassification := "public"
  userApprovedConstraints := []
  globalPolicyVersion := "policy-1"
  providerAttestedTrust := trust
  previousApprovedTaskTemplates := []
  approvedHistoricalTraces := []
  requestedCompletionDeadlineMs := 100000
  humanApprovalRequirements := []

def task : TaskDescription := ⟨taskFields, by decide +kernel, by decide +kernel⟩

/-- The fingerprint of the task. -/
@[irreducible] def fingerprint : String := taskFields.taskFingerprint.toOption.getD ""

theorem eq_ok_getD {x : Except Exn String} (h : ∃ a, x = .ok a) : x = .ok (x.toOption.getD "") := by
  obtain ⟨a, rfl⟩ := h
  rfl

theorem postInit_trust : trust.postInit = .ok () := by decide +kernel

/-- The fields of the task are within the canonical limits, in any state of trust. -/
theorem canonicalizes_withTrust {t : ProviderTrustState} (ht : t.postInit = .ok ()) :
    Canonicalizes 0 { taskFields with providerAttestedTrust := t }.toDict := by
  have htext : ∀ {cs : List Char},
      (cs.all (fun c ↦ c.toNat < 128) && cs.length ≤ maxCanonicalStringBytes) = true →
        Canonicalizes 1 (.str (String.ofList cs)) := canonicalizes_literal (by decide)
  have hitems : ∀ {cs : List Char},
      (cs.all (fun c ↦ c.toNat < 128) && cs.length ≤ maxCanonicalStringBytes) = true →
        Canonicalizes 1 (strArray [String.ofList cs]) := fun h ↦
    canonicalizes_arr.mpr ⟨by decide, (by decide : 1 ≤ maxCanonicalItems),
      List.forall_mem_singleton.mpr (canonicalizes_literal (by decide) h)⟩
  have hempty : Canonicalizes 1 (strArray []) :=
    canonicalizes_arr.mpr ⟨by decide, by decide, List.forall_mem_nil _⟩
  refine canonicalizes_obj_of_isAscii (by simp only [List.map_cons, List.map_nil]; rfl)
    (by repeat refine plainKeys_cons (by decide) ?_
        rfl) (by decide) (by decide) ?_
  simp only [List.forall_mem_cons]
  refine ⟨htext (by decide), htext (by decide), htext (by decide), htext (by decide),
    (by decide : Canonicalizes 1 .null), htext (by decide), htext (by decide), hitems (by decide),
    hitems (by decide), htext (by decide),
    canonicalizes_obj.mpr ⟨by decide, by decide, List.forall_mem_nil _⟩, htext (by decide),
    ProviderTrustState.canonicalizes ht (by decide), hempty, hempty,
    canonicalizes_int.mpr ⟨by decide, by decide⟩, hempty, List.forall_mem_nil _⟩

theorem taskFingerprint_eq : taskFields.taskFingerprint = .ok fingerprint := by
  unfold fingerprint
  exact eq_ok_getD (exists_digest_eq_ok.mpr (canonicalizes_withTrust postInit_trust))

def candidateFields : CandidateFields where
  ceilingId := "ceil_1"
  taskId := "task-1"
  taskFingerprint := "dddddddddddddddddddddddddddddddddddddddddddddddddddddddddddddddd"
  synthesizerVersion := "synthesizer-1"
  modelVersion := "model-1"
  policyVersion := "policy-1"
  confidenceBps := 10000
  tools := ["reader"]
  actions := ["object.read"]
  resources := ["target"]
  actionResources := [("object.read", ["target"])]
  argumentConstraints := [("object.read", ["offset"])]
  networkDestinations := []
  dataClasses := ["public"]
  maximumReadBytes := 1024
  maximumWriteBytes := 0
  maximumCalls := 4
  maximumParallelism := 1
  maximumDurationSeconds := 60
  requiredTrustTier := .software
  requiredAttestations := []
  humanApprovalGates := []
  decayProfile := "default"
  rationaleCodes := []
  evidenceRefs := []
  fallbackUsed := false
  shadowOnly := false

theorem postInit_candidateFields : candidateFields.postInit = .ok candidateFields := by
  decide +kernel

def candidate : CandidateTaskPolicyCeiling where
  toCandidateFields := { candidateFields with taskFingerprint := fingerprint }
  valid := CandidateFields.postInit_withFingerprint (isDigest_of_digest_eq_ok taskFingerprint_eq)
    postInit_candidateFields
  distinctResources := by decide
  distinctArguments := by decide

def reduction : AuthorityReduction where
  source := "behavioral"
  removeTools := []
  removeActions := []
  removeResources := []
  removeNetworkDestinations := []
  maximumReadBytes := none
  maximumWriteBytes := none
  maximumCalls := some 1
  maximumParallelism := none
  maximumDurationSeconds := none
  requireReattestation := false
  requireHumanApproval := false
  revoke := false
  valid := by decide +kernel

def policy (agents : List String) : StaticPolicy where
  policyId := "policy-1"
  operations := [("object.read", ⟨["target"], ["offset"], 65536⟩)]
  allowedAgents := agents
  allowedExecutors := ["executor-1"]
  deniedArgumentKeys := defaultDeniedArgumentKeys
  distinct := by decide

def compiler (agents : List String) : TrustedPolicyCompiler where
  globalPolicy := policy agents
  toolActions := [("reader", ["object.read"])]
  allowedTenantEnvironments := [("tenant-1", ["lab"])]

/-- The task of the sample in another state of trust. -/
def taskIn (t : ProviderTrustState) : TaskFields := { taskFields with providerAttestedTrust := t }

/-- The candidate of the sample for another fingerprint. -/
def candidateFor (fingerprint : String) : CandidateFields :=
  { candidateFields with taskFingerprint := fingerprint }

/-- A trust state that serves as well as that of the sample. -/
structure Serves (t : ProviderTrustState) : Prop where
  effectiveTrust : t.effectiveTrust = .software
  expiresAtMs : t.expiresAtMs = 100000
  method : IsText 256 t.method
  keyId : IsText 256 t.keyId
  attestationDigest : isDigest t.attestationDigest = true
  bundleDigest : isDigest t.bundleDigest = true

theorem serves_trust : Serves trust where
  effectiveTrust := rfl
  expiresAtMs := rfl
  method := by decide +kernel
  keyId := by decide +kernel
  attestationDigest := by decide +kernel
  bundleDigest := by decide +kernel

section Compile

variable {t : ProviderTrustState} {f : String} {T : TaskDescription}
  {K : CandidateTaskPolicyCeiling}

theorem admissible (agents : List String) (ht : Serves t) (hT : T.toTaskFields = taskIn t)
    (hK : K.toCandidateFields = candidateFor f) (hf : (taskIn t).taskFingerprint = .ok f) :
    (compiler agents).Admissible T K [] 0 := by
  obtain ⟨_, _, _⟩ := T
  obtain ⟨_, _, _, _⟩ := K
  subst hT hK
  exact {
    now := by decide
    executable := (by decide : ¬false = true)
    taskId := rfl
    fingerprint := hf
    candidateVersion := rfl
    policyVersion := rfl
    environment := (by decide : "lab" ∈ ["lab"])
    knownTools := (by decide : ["reader"] ⊆ ["reader"])
    availableTools := (by decide : ["reader"] ⊆ ["reader"])
    knownActions := (by decide : ["object.read"] ⊆ ["object.read"])
    suppliedActions := (by decide : ["object.read"] ⊆ ["object.read"])
    knownResources := (by decide : ["target"] ⊆ ["target"])
    availableResources := (by decide : ["target"] ⊆ ["target"])
    networkDestinations := List.nil_subset _
    dataClasses := (by decide : ["public"] ⊆ ["public", "internal"])
    covers := by
      intro action haction
      obtain rfl := List.mem_singleton.mp haction
      exact ⟨⟨["target"], ["offset"], 65536⟩, rfl, (by decide : ["target"] ⊆ ["target"]),
        (by decide : ["offset"] ⊆ ["offset"]),
        (by decide : ∀ key ∈ ["offset"], key ∉ defaultDeniedArgumentKeys)⟩
    trust := ht.effectiveTrust ▸ Nat.le_refl _
    fresh := ht.expiresAtMs ▸ (by decide : (0 : ℤ) < 100000)
    approvedLength := Nat.zero_le _
    approvedText := by simp
    approvedNodup := List.nodup_nil
    gates := List.Subset.refl _ }

theorem resourcesLeft_eq : resourcesLeft (candidateFor f) [reduction] "object.read" = ["target"] :=
  (by decide +kernel : resourcesLeft candidateFields [reduction] "object.read" = ["target"])

theorem actionsLeft_eq (agents : List String) :
    (compiler agents).actionsLeft (candidateFor f) [reduction] = ["object.read"] :=
  (by decide +kernel : (compiler []).actionsLeft candidateFields [reduction] = ["object.read"])

theorem expiration_eq (ht : Serves t) : expiration (taskIn t) 0 60 = 60000 := by
  rw [expiration, show (taskIn t).providerAttestedTrust = t from rfl, ht.expiresAtMs]
  rfl

theorem alive (agents : List String) (ht : Serves t) :
    (compiler agents).Alive (taskIn t) (candidateFor f) [] 0 [reduction] where
  time := by
    have hlt : 0 < expiration (taskIn t) 0 60 := by
      rw [expiration_eq ht]
      decide
    exact hlt
  calls := (by decide : (0 : ℤ) < 1)
  parallelism := (by decide : (0 : ℤ) < 1)
  actions := by
    rw [actionsLeft_eq]
    decide

theorem valid (agents : List String) {candidateDigest reductionsDigest : String} (ht : Serves t)
    (hT : T.toTaskFields = taskIn t) (hK : K.toCandidateFields = candidateFor f)
    (hf : isDigest f = true) (hc : isDigest candidateDigest = true)
    (hr : isDigest reductionsDigest = true) :
    ((compiler agents).ceiling T.toTaskFields K.toCandidateFields [] 0 [reduction] candidateDigest
      reductionsDigest).Valid := by
  let C := (compiler agents).ceiling T.toTaskFields K.toCandidateFields [] 0 [reduction]
    candidateDigest reductionsDigest
  have htools : IsStrings C.tools := ceiling_tools ▸ isStrings_toolsLeft K [reduction]
  have hactions : IsStrings C.actions :=
    ceiling_actions ▸ isStrings_actionsLeft (compiler agents) K [reduction]
  have hresources :
      keysOf C.actionResources ⊆ C.actions ∧ C.actions ⊆ keysOf C.actionResources := by
    rw [ceiling_actions, ceiling_actionResources, keysOf, Table.keys_graph]
    exact ⟨List.Subset.refl _, List.Subset.refl _⟩
  have harguments : keysOf C.argumentConstraints ⊆ C.actions ∧
      C.actions ⊆ keysOf C.argumentConstraints := by
    rw [ceiling_actions, ceiling_argumentConstraints, keysOf, Table.keys_graph]
    exact ⟨List.Subset.refl _, List.Subset.refl _⟩
  obtain ⟨_, _, _⟩ := T
  obtain ⟨_, _, _, _⟩ := K
  subst hT hK
  exact {
    schema := (by decide +kernel : IsText 256 "event-horizon.compiled-task-ceiling.v1")
    ceilingId := (by decide +kernel : IsText 256 "ceil_1")
    taskId := (by decide +kernel : IsText 256 "task-1")
    subjectId := (by decide +kernel : IsText 256 "agent-1")
    workloadIdentity := (by decide +kernel : IsText 256 "executor-1")
    tenant := (by decide +kernel : IsText 256 "tenant-1")
    environment := (by decide +kernel : IsText 256 "lab")
    synthesizerVersion := (by decide +kernel : IsText 256 "synthesizer-1")
    compilerVersion := (by decide +kernel : IsText 256 "trusted-policy-compiler-v1")
    policyVersion := (by decide +kernel : IsText 256 "policy-1")
    providerKeyId := ht.keyId
    providerMethod := ht.method
    decayProfile := (by decide +kernel : IsText 256 "default")
    taskFingerprint := hf
    candidateDigest := hc
    providerAttestationDigest := ht.attestationDigest
    providerBundleDigest := ht.bundleDigest
    guardianReductionsDigest := hr
    tools := htools
    actions := hactions
    networkDestinations := (by decide +kernel : IsStrings [])
    dataClasses := (by decide +kernel : IsStrings (sortUnique ["public"]))
    requiredAttestations := (by decide +kernel : IsStrings (sortUnique []))
    humanApprovalGates := (by decide +kernel : IsStrings (sortUnique []))
    maximumReadBytes := (by decide : (0 : ℤ) ≤ 1024 ∧ (1024 : ℤ) ≤ maxSafeInteger)
    maximumWriteBytes := (by decide : (0 : ℤ) ≤ 0 ∧ (0 : ℤ) ≤ maxSafeInteger)
    maximumCalls := (by decide : (0 : ℤ) ≤ 1 ∧ (1 : ℤ) ≤ maxSafeInteger)
    maximumParallelism := (by decide : (0 : ℤ) ≤ 1 ∧ (1 : ℤ) ≤ maxSafeInteger)
    maximumDurationSeconds := (by decide : (0 : ℤ) ≤ 60 ∧ (60 : ℤ) ≤ maxSafeInteger)
    issuedAtMs := (by decide : (0 : ℤ) ≤ 0 ∧ (0 : ℤ) ≤ maxSafeInteger)
    expiresAtMs := by
      have hbounds :
          0 ≤ expiration (taskIn t) 0 60 ∧ expiration (taskIn t) 0 60 ≤ maxSafeInteger := by
        rw [expiration_eq ht]
        decide
      exact hbounds
    issued_lt_expires := (alive agents ht).time
    boundResources := hresources
    boundArguments := harguments }

theorem canonicalizes_taskIn (ht : t.postInit = .ok ()) : Canonicalizes 0 (taskIn t).toDict :=
  canonicalizes_withTrust ht

theorem canonicalizes_candidateFor (hf : isDigest f = true) :
    Canonicalizes 0 (candidateFor f).toDict := by
  have hplain : Canonicalizes 0 candidateFields.toDict := by decide +kernel
  obtain ⟨hd, -, hfields⟩ := canonicalizes_obj.mp hplain
  obtain ⟨hid, hfields⟩ := List.forall_mem_cons.mp hfields
  obtain ⟨htask, hfields⟩ := List.forall_mem_cons.mp hfields
  obtain ⟨⟨hd', hkey, -⟩, hfields⟩ := List.forall_mem_cons.mp hfields
  have hdigest : Canonicalizes 1 (.str f) := (isText_of_isDigest hf).canonicalizes (by decide)
  -- the number of fields is given, so that the two fingerprints are never compared
  refine canonicalizes_obj.mpr ⟨hd, (by decide : 27 ≤ maxCanonicalItems), ?_⟩
  exact List.forall_mem_cons.mpr ⟨hid, List.forall_mem_cons.mpr
    ⟨htask, List.forall_mem_cons.mpr ⟨⟨hd', hkey, hdigest⟩, hfields⟩⟩⟩

/-- The candidate compiles under the reduction, in any state of trust that serves. -/
theorem exists_compile_of_serves (agents : List String) (ht : Serves t)
    (hT : T.toTaskFields = taskIn t) (hK : K.toCandidateFields = candidateFor f)
    (hf : (taskIn t).taskFingerprint = .ok f) :
    ∃ C, (compiler agents).compile T K [reduction] [] 0 = .ok C := by
  have hpayload : Canonicalizes 0 (.arr [reduction.toDict]) := by decide +kernel
  have hfingerprint := isDigest_of_digest_eq_ok hf
  obtain ⟨cd, hcd⟩ := exists_digest_eq_ok.mpr (canonicalizes_candidateFor hfingerprint)
  obtain ⟨rd, hrd⟩ := exists_digest_eq_ok.mpr hpayload
  have hvalid := valid agents ht hT hK hfingerprint (isDigest_of_digest_eq_ok hcd)
    (isDigest_of_digest_eq_ok hrd)
  have halive := alive (f := f) agents ht
  rw [← hT, ← hK] at halive
  rw [← hK] at hcd
  obtain ⟨x, hx⟩ := exists_digest_eq_ok.mpr (hvalid.canonicalizes ceiling_normal (by decide))
  refine ⟨_, compile_eq_ok.mpr ⟨admissible agents ht hT hK hf, ?_, finish_eq_ok.mpr
    ⟨halive, cd, rd, x, hcd, hrd, hvalid, hx, rfl⟩⟩⟩
  intro r hr
  obtain rfl := List.mem_singleton.mp hr
  exact ⟨fun h ↦ (by cases h), by decide, by decide⟩

end Compile

/-- The candidate compiles under the reduction. -/
theorem exists_compile (agents : List String) :
    ∃ C, (compiler agents).compile task candidate [reduction] [] 0 = .ok C :=
  exists_compile_of_serves agents serves_trust rfl rfl taskFingerprint_eq

end Sample

/-- Repeating a reduction until there are more of them than an array may have makes a compilation
fail that succeeds with it once: the digest of the reductions is refused. -/
theorem compile_fails_of_repetition :
    let _ := pythonPlatform
    (∃ C, (Sample.compiler ["agent-1"]).compile Sample.task Sample.candidate
      [Sample.reduction] [] 0 =
      .ok C) ∧
    ¬∃ C, (Sample.compiler ["agent-1"]).compile Sample.task Sample.candidate
      (List.replicate 257 Sample.reduction) [] 0 = .ok C := by
  intro _
  refine ⟨Sample.exists_compile _, ?_⟩
  rintro ⟨C, hC⟩
  have hlen := TrustedPolicyCompiler.length_le_of_compile hC
  rw [List.length_replicate] at hlen
  exact absurd hlen (by decide)

/-- The candidate of the sample, and what the reduction leaves of its ceiling. -/
theorem compile_reductions_sample :
    let _ := pythonPlatform
    ∃ C C₀, (Sample.compiler ["agent-1"]).compile Sample.task Sample.candidate
      [Sample.reduction] [] 0 =
        .ok C ∧
      (Sample.compiler ["agent-1"]).compile Sample.task Sample.candidate [] [] 0 = .ok C₀ ∧
      C.Within C₀ := by
  intro _
  obtain ⟨C, hC⟩ := Sample.exists_compile ["agent-1"]
  obtain ⟨⟨C₀, hC₀, hwithin⟩, -⟩ := (TrustedPolicyCompiler.compile_reductions
    (Sample.compiler ["agent-1"]) Sample.task Sample.candidate [] 0 [Sample.reduction]).1 C hC
  exact ⟨C, C₀, hC, hC₀, hwithin⟩

end EventHorizon.Policy
