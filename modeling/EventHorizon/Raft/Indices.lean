import EventHorizon.Raft.Sections

/-!
# Index discipline

What a node's indices, tables and memory have to do with each other whenever its lock is free
(`IndexDiscipline`), and that the commit index never decreases.

Two of the three places that write the commit index raise it: `append_entries` tests that the new
value is larger, and a rollback reads back what was committed before. The commit section of
`propose` writes its position whatever the commit index is. It can be behind: the node may have lost
the leadership while the call was replicating, followed another leader past the position, and won a
later term before the call goes on. `commitsForward` is the guard that no commit section does this;
it is exactly what the other sections need of it, and under it the discipline holds in every
reachable state.
-/

namespace EventHorizon.Raft

section Discipline

variable [Platform] (M : Membership)

/-- The indices, tables and memory of a node whose lock is free. -/
structure IndexDiscipline (i : NodeId) (n : Node) : Prop where
  applied_le : n.appliedIndex ≤ n.commitIndex
  commit_le : n.commitIndex ≤ n.db.lastIndex
  term : n.term = n.db.term
  votedFor : n.votedFor = n.db.votedFor
  commitIndex : n.commitIndex = n.db.commitIndex
  appliedIndex : n.appliedIndex = n.db.appliedIndex
  /-- One row for every applied index, and no other. -/
  resultRows : n.db.replayResults.map Prod.fst = List.range' 1 n.appliedIndex
  /-- No gap in the log. -/
  logRows : n.db.raftLog.map Prod.fst = List.range' 1 n.db.lastIndex
  /-- The database opens again. -/
  reopens : ∃ n', Node.open i M.members n.db = .ok n'

/-- The guard of the commit section: a section that goes on to write the commit index does not
write it behind its present value. -/
def commitsForward (c : Cluster) (a : Action) : Prop :=
  ∀ id ∈ a.commit?, ∀ p ∈ c.propose? id,
    (c.node p.node).commits p.position = true → (c.node p.node).commitIndex ≤ p.position

instance (c : Cluster) (a : Action) : Decidable (commitsForward c a) :=
  inferInstanceAs (Decidable (∀ id ∈ a.commit?, ∀ p ∈ c.propose? id,
    (c.node p.node).commits p.position = true → (c.node p.node).commitIndex ≤ p.position))

end Discipline

theorem commitsForward_of_call {c : Cluster} {id : ℕ} {p : ProposeCall}
    (hok : commitsForward c (.commit id)) (hcall : c.calls.get? id = some (.propose p)) :
    (c.node p.node).commits p.position = true → (c.node p.node).commitIndex ≤ p.position :=
  hok id rfl p (Cluster.propose?_eq_some.mpr hcall)

/-! ## Consistency along runs -/

section Runs

variable [Platform] {M : Membership} {c c' : Cluster} {a : Action} {i : NodeId} {n n' : Node}

theorem Node.Consistent.indexDiscipline (h : n.Consistent M.pinned M.members i)
    (hi : i ∈ M.members) : IndexDiscipline M i n where
  applied_le := Nat.le_of_eq h.applied_eq
  commit_le := h.lastIndex_eq ▸ h.commit_le
  term := h.term.symm
  votedFor := h.votedFor.symm
  commitIndex := h.commitIndex.symm
  appliedIndex := h.appliedIndex.symm
  resultRows := by
    rw [h.db.resultRows, map_fst_numberedFrom, h.db.length_results, h.applied_eq, h.commitIndex]
  logRows := by rw [h.lastIndex_eq, h.db.rows, map_fst_numberedFrom, Node.log]
  reopens := ⟨n.restarted, h.open_eq hi⟩

/-- Every node of the cluster is consistent. -/
def Cluster.Consistent (M : Membership) (c : Cluster) : Prop :=
  ∀ i, (c.node i).Consistent M.pinned M.members i

/-- A consistent successor that has committed at least as much, and the same entries. -/
structure Node.Advances (M : Membership) (i : NodeId) (n n' : Node) : Prop where
  consistent : n'.Consistent M.pinned M.members i
  commit_le : n.commitIndex ≤ n'.commitIndex
  committed : n'.log.take n.commitIndex = n.log.take n.commitIndex

theorem Node.Advances.restarted {m : Node} (hm : n.Advances M i m) : n.Advances M i m.restarted :=
  ⟨hm.consistent.restarted, hm.commit_le, hm.committed⟩

namespace Node.Consistent

variable (h : n.Consistent M.pinned M.members i)
include h

theorem advances_self : n.Advances M i n := ⟨h, Nat.le_refl _, rfl⟩

theorem advances_withVote (t : ℕ) (v : NodeId) (r : Role) (x : Option NodeId) :
    n.Advances M i (n.withVote t v r x) := ⟨h.withVote t v r x, Nat.le_refl _, rfl⟩

theorem advances_requestVote (t : ℤ) (candidate : NodeId) (li lt : ℤ) :
    n.Advances M i (n.requestVote t candidate li lt).1 := by
  rcases h.requestVote_cases t candidate li lt with hr | ⟨-, -, r, x, -, ⟨-, -, hr⟩ | hr⟩ <;>
    rw [hr]
  · exact h.advances_self
  · exact h.advances_withVote _ _ _ _
  · exact h.advances_withVote _ _ _ _

theorem advances_appendEntries (args : AppendArgs) :
    n.Advances M i (n.appendEntries args).1 := by
  rcases h.appendEntries_cases args with hr |
    ⟨-, -, m, rfl, ⟨r, hr, -⟩ | ⟨prev, es, l', rs, k, -, -, -, hl, hle, hlen, hrep, hr⟩⟩ <;> rw [hr]
  · exact h.advances_self
  · exact h.advances_withVote _ _ _ _
  · refine ⟨(h.withVote _ _ _ _).withLog hlen hrep, hle, ?_⟩
    rw [Node.log, withLog_log]
    exact (hl.take_commit h.commit_le).1

theorem advances_replicateSettle (peer : NodeId) (m : Message) (r : AppendReply) :
    n.Advances M i (n.replicateSettle peer m r).1 := by
  rcases h.replicateSettle_cases peer m r with ⟨-, hr⟩ | hr | ⟨-, -, -, hr⟩ | ⟨-, hr⟩ <;>
    rw [hr]
  · exact h.advances_withVote _ _ _ _
  · exact h.advances_self
  · exact ⟨h.volatile _ _ _ _, Nat.le_refl _, rfl⟩
  · exact ⟨h.volatile _ _ _ _, Nat.le_refl _, rfl⟩

theorem advances_electCount (electionTerm votes theirTerm : ℕ) (grant : Bool) :
    n.Advances M i (n.electCount electionTerm votes theirTerm grant).1 := by
  rcases h.electCount_cases electionTerm votes theirTerm grant with
    ⟨-, hr⟩ | hr | ⟨-, -, -, hr⟩ <;> rw [hr]
  · exact h.advances_withVote _ _ _ _
  · exact h.advances_self
  · exact h.advances_self

theorem advances_electFinish (peers : List NodeId) (votes : ℕ) :
    n.Advances M i (n.electFinish peers votes) := by
  rw [electFinish]
  split
  · exact ⟨h.volatile _ _ _ _, Nat.le_refl _, rfl⟩
  · exact h.advances_self

theorem advances_proposeCommit {position : ℕ}
    (hpos : n.commits position = true → n.commitIndex ≤ position) :
    n.Advances M i (n.proposeCommit position).1 := by
  rcases h.proposeCommit_cases hpos with ⟨e, hr⟩ | ⟨e, hr⟩ | ⟨hc, hlen, rs, k, hrep, hr⟩ <;> rw [hr]
  · exact h.advances_self
  · exact h.advances_withVote _ _ _ _
  · refine ⟨h.withLog hlen hrep, hpos hc, ?_⟩
    rw [Node.log, withLog_log]

theorem advances_append (e : Entry) :
    n.Advances M i (n.withLog (n.log ++ [e]) n.commitIndex n.db.results n.db.consumed) := by
  refine ⟨h.withLog ?_ ?_, Nat.le_refl _, ?_⟩
  · rw [List.length_append]
    exact Nat.le_add_right_of_le h.commit_le
  · rw [List.take_append_of_le_length h.commit_le]
    exact h.replayed
  · rw [Node.log, withLog_log, List.take_append_of_le_length h.commit_le]

theorem advances_mayAdopt {m : Node} {t : ℕ} (hm : n.MayAdopt t m) : n.Advances M i m := by
  rcases hm with rfl | ⟨-, r, x, rfl⟩
  · exact h.advances_self
  · exact h.advances_withVote _ _ _ _

end Node.Consistent

theorem Cluster.Consistent.advances_setNode {c₀ : Cluster} (hc : c.Consistent M)
    (hnode : c₀.node = c.node) (hn : (c.node i).Advances M i n) (j : NodeId) :
    (c.node j).Advances M j ((c₀.setNode i n).node j) := by
  by_cases hj : j = i
  · subst hj
    rw [Cluster.setNode_node_self]
    exact hn
  · rw [Cluster.setNode_node_ne hj, hnode]
    exact (hc j).advances_self

/-- One step: every node advances, provided that the commit section commits forward. -/
theorem Move.advances (hc : c.Consistent M) (hok : commitsForward c a) (h : Move M c a c')
    (j : NodeId) : (c.node j).Advances M j (c'.node j) := by
  have hstay : (c.node j).Advances M j (c.node j) := (hc j).advances_self
  -- only the node that the step is about changes, and its sections are taken one by one
  cases h with
  | elect hi hid hn =>
    rw [(hc _).electStart_eq, Except.ok.injEq] at hn
    subst hn
    exact hc.advances_setNode rfl ((hc _).advances_withVote _ _ _ _) j
  | electCrash hm ho =>
    rw [(hc _).electStepDown_eq, Except.ok.injEq] at hm
    subst hm
    rw [((hc _).withVote _ _ _ _).reopens ho]
    exact hc.advances_setNode rfl ((hc _).advances_withVote _ _ _ _).restarted j
  | askLost => exact hstay
  | askCrash _ _ _ ho =>
    obtain ⟨m, hm, rfl⟩ := (hc _).reopens_requestVote ho
    exact hc.advances_setNode rfl ((hc _).advances_mayAdopt hm).restarted j
  | @ask _ _ e p _ n _ _ _ _ hn =>
    have hadv := (hc p).advances_requestVote e.electionTerm e.node e.lastIndex e.lastTerm
    rw [hn] at hadv
    exact hc.advances_setNode rfl hadv j
  | @count _ e theirTerm _ grant _ _ _ hn =>
    have hadv := (hc e.node).advances_electCount e.electionTerm e.votes theirTerm grant
    rw [hn] at hadv
    exact hc.advances_setNode rfl hadv j
  | @countLost _ e theirTerm grant _ _ _ hn =>
    have hadv := (hc e.node).advances_electCount e.electionTerm e.votes theirTerm grant
    rw [hn] at hadv
    exact hc.advances_setNode rfl hadv j
  | finish => exact hc.advances_setNode rfl ((hc _).advances_electFinish _ _) j
  | propose hi hid hfree hn =>
    obtain ⟨-, -, stored, -, rfl⟩ := (hc _).proposeAppend_ok hn
    exact hc.advances_setNode rfl ((hc _).advances_append _) j
  | proposeRefused => exact hstay
  | enter => exact hstay
  | sendDone => exact hstay
  | sendFail => exact hstay
  | send => exact hstay
  | deliverLost => exact hstay
  | deliverCrash _ _ ho =>
    obtain ⟨m, hm, rfl⟩ := (hc _).reopens_append ho
    exact hc.advances_setNode rfl ((hc _).advances_mayAdopt hm).restarted j
  | @deliver _ _ peer _ m _ _ _ _ hn =>
    have hadv := (hc peer).advances_appendEntries m.args
    rw [hn] at hadv
    exact hc.advances_setNode rfl hadv j
  | @deliverFail _ _ peer _ m _ _ _ _ hn =>
    have hadv := (hc peer).advances_appendEntries m.args
    rw [hn] at hadv
    exact hc.advances_setNode rfl hadv j
  | deliverReplyLost => exact hc.advances_setNode rfl ((hc _).advances_appendEntries _) j
  | @settle _ p peer _ m r _ _ _ _ hn =>
    have hadv := (hc p.node).advances_replicateSettle peer m r
    rw [hn] at hadv
    exact hc.advances_setNode rfl hadv j
  | @commit _ p _ _ hcall _ _ _ hn =>
    -- here the condition is needed: the section sets the commit index to its position
    have hadv := (hc p.node).advances_proposeCommit (commitsForward_of_call hok hcall)
    rw [hn] at hadv
    exact hc.advances_setNode rfl hadv j
  | @commitFail _ p _ _ hcall _ hn =>
    have hadv := (hc p.node).advances_proposeCommit (commitsForward_of_call hok hcall)
    rw [hn] at hadv
    exact hc.advances_setNode rfl hadv j
  | answer => exact hstay
  | answerFail => exact hstay
  | abandon => exact hstay
  | restart ho =>
    rw [(hc _).reopens ho]
    exact hc.advances_setNode rfl (Node.Advances.restarted (hc _).advances_self) j
  | @requestVote i term candidateId li lt _ _ _ hn =>
    have hadv := (hc i).advances_requestVote term candidateId li lt
    rw [hn] at hadv
    exact hc.advances_setNode rfl hadv j
  | appendEntries => exact hc.advances_setNode rfl ((hc _).advances_appendEntries _) j

theorem Cluster.initial_consistent : (Cluster.initial M).Consistent M := fun _ ↦
  { nodeId := rfl
    members := rfl
    db := ⟨rfl, rfl, rfl, Nat.le_refl _, rfl, rfl⟩
    term := rfl
    votedFor := rfl
    commitIndex := rfl
    appliedIndex := rfl }

theorem Cluster.Consistent.step (hc : c.Consistent M) (hok : commitsForward c a)
    (h : (machine M).step c a = some c') : c'.Consistent M :=
  fun j ↦ ((step_move h).advances hc hok j).consistent

theorem consistent_of_reach (h : (machine M).Reach commitsForward c) : c.Consistent M :=
  h.invariant Cluster.initial_consistent fun hc hok hstep ↦ hc.step hok hstep

theorem commitIndex_le_of_path (hc : c.Consistent M) (h : (machine M).Path commitsForward c c')
    (j : NodeId) : (c.node j).commitIndex ≤ (c'.node j).commitIndex := by
  have hboth : c'.Consistent M ∧ (c.node j).commitIndex ≤ (c'.node j).commitIndex := by
    refine h.invariant (P := fun d ↦ d.Consistent M ∧
      (c.node j).commitIndex ≤ (d.node j).commitIndex) ⟨hc, Nat.le_refl _⟩ ?_
    rintro x y a ⟨hx, hle⟩ hok hstep
    exact
      ⟨hx.step hok hstep, Nat.le_trans hle ((Cluster.step_move hstep).advances hx hok j).commit_le⟩
  exact hboth.2

end Runs

/-! ## The discipline -/

/-- The guard of the discipline. -/
def commitsForwardSpelled (c : Cluster) (a : Action) : Prop := commitsForward c a ∧ termsSpelled c a

instance (c : Cluster) (a : Action) : Decidable (commitsForwardSpelled c a) :=
  inferInstanceAs (Decidable (_ ∧ _))

/-- In every run whose commit sections commit forward, and which is brought only terms that `str`
spells, every node keeps the index discipline in every state, and its commit index never decreases
from there. -/
theorem index_discipline_of_commitsForward [Platform] (M : Membership) {c c' : Cluster}
    (h : (machine M).Reach commitsForwardSpelled c)
    (h' : (machine M).Path commitsForwardSpelled c c') {i : NodeId} (hi : i ∈ M.members) :
    IndexDiscipline M i (c.node i) ∧ (c.node i).commitIndex ≤ (c'.node i).commitIndex := by
  have hc : c.Consistent M := consistent_of_reach (h.mono fun hok ↦ hok.1)
  exact ⟨(hc i).indexDiscipline hi, commitIndex_le_of_path hc (h'.mono fun hok ↦ hok.1) i⟩

/-- A run in which `a` and `b` have committed an entry. -/
theorem index_discipline_of_one_commit : ∃ c, (@machine pythonPlatform laboratory).Reach
    commitsForwardSpelled c ∧ (c.node "a").commitIndex = 1 ∧
      @IndexDiscipline pythonPlatform laboratory "a" (c.node "a") := by
  let := pythonPlatform
  have hrun : ((machine laboratory).runIf commitsForwardSpelled (machine laboratory).init
      (overtaken.take 28)).map (fun c ↦ (c.node "a").commitIndex) = some 1 := by decide +kernel
  obtain ⟨c, hc, hcommit⟩ := Option.map_eq_some_iff.mp hrun
  have hreach : (machine laboratory).Reach commitsForwardSpelled c := Machine.path_of_runIf hc
  exact ⟨c, hreach, hcommit,
    (index_discipline_of_commitsForward laboratory hreach .refl (by decide)).1⟩

/-- The commit section of a proposal that was overtaken sets the commit index of `a` back from two
to one, behind what is applied: the database does not open again. -/
theorem index_discipline_fails_overtaken : ¬∀ {c c' : Cluster},
    (@machine pythonPlatform laboratory).Reach anyInterleaving c →
    (@machine pythonPlatform laboratory).Path anyInterleaving c c' →
    ∀ {i : NodeId}, i ∈ (@Membership.members pythonPlatform laboratory) →
      @IndexDiscipline pythonPlatform laboratory i (c.node i) ∧
        (c.node i).commitIndex ≤ (c'.node i).commitIndex := by
  let := pythonPlatform
  intro hall
  have hrun : ((machine laboratory).runIf anyInterleaving (machine laboratory).init
      overtaken).map (fun c ↦ ((c.node "a").commitIndex, (c.node "a").appliedIndex)) =
        some (1, 2) := by decide +kernel
  obtain ⟨c, hc, hindex⟩ := Option.map_eq_some_iff.mp hrun
  have hreach : (machine laboratory).Reach anyInterleaving c := Machine.path_of_runIf hc
  obtain ⟨hdisc, -⟩ := hall hreach .refl (i := "a") (by decide)
  have hle := hdisc.applied_le
  have hcommit : (c.node "a").commitIndex = 1 := congrArg Prod.fst hindex
  have happlied : (c.node "a").appliedIndex = 2 := congrArg Prod.snd hindex
  omega

end EventHorizon.Raft
