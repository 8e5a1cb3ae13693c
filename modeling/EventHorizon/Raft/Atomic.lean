import EventHorizon.Raft.Consumption
import EventHorizon.Raft.Indices

/-!
# `append_entries` is atomic

A call of `append_entries` runs its writes in one transaction, and reads the indices again when the
transaction fails. Reading them again restores the memory of the node only because memory and
database agree whenever the lock of the node is free. `Mirrors` says that they do; every section
keeps it, also a commit section that sets the commit index back, and also a rollback that then finds
the indices inconsistent. So nothing else is needed of the run that leads to the call.
-/

namespace EventHorizon.Raft

/-! ## What the transaction keeps -/

/-- Nothing that is recorded up to an index has changed. -/
structure Database.Keeps (k : ℕ) (db db' : Database) : Prop where
  log : ∀ j ≤ k, ∀ e, db.raftLog.get? j = some e → db'.raftLog.get? j = some e
  results : ∀ j r, db.replayResults.get? j = some r → db'.replayResults.get? j = some r
  consumed : ∀ key claim, db.consumed.get? key = some claim → db'.consumed.get? key = some claim

namespace Database

variable {k index : ℕ} {db db' db'' : Database} {e : Entry} {es : List Entry}

theorem Keeps.refl (k : ℕ) (db : Database) : db.Keeps k db :=
  ⟨fun _ _ _ h ↦ h, fun _ _ h ↦ h, fun _ _ h ↦ h⟩

theorem Keeps.trans (h : db.Keeps k db') (h' : db'.Keeps k db'') : db.Keeps k db'' :=
  ⟨fun j hj e he ↦ h'.log j hj e (h.log j hj e he), fun j r hr ↦ h'.results j r (h.results j r hr),
    fun key claim hc ↦ h'.consumed key claim (h.consumed key claim hc)⟩

/-- The indices of a database. -/
def indices (db : Database) : ℕ × ℕ := (db.commitIndex, db.appliedIndex)

theorem get?_deleteFrom (db : Database) {j : ℕ} (h : j < index) :
    (db.deleteFrom index).raftLog.get? j = db.raftLog.get? j := by
  rw [deleteFrom]
  induction db.raftLog with
  | nil => rfl
  | cons r t ih =>
    by_cases hr : r.1 < index
    · rw [List.filter_cons_of_pos (by simpa using hr), Table.get?_cons, Table.get?_cons, ih]
    · rw [List.filter_cons_of_neg (by simpa using hr), Table.get?_cons, if_neg (by omega), ih]

theorem maxKey_append {ν : Type*} (s t : Table ℕ ν) :
    maxKey (s ++ t) = max (maxKey s) (maxKey t) := by
  induction s with
  | nil => exact (Nat.zero_max _).symm
  | cons r s ih =>
    have hcons : ∀ u, maxKey (r :: u) = max r.1 (maxKey u) := fun _ ↦ rfl
    rw [List.cons_append, hcons, hcons, ih, max_assoc]

section Append

variable [Platform]

/-- The last index after an insertion. -/
theorem insertEntry_lastIndex (h : db.insertEntry index e = .ok db') :
    db'.lastIndex = max db.lastIndex index := by
  obtain ⟨command, -, h⟩ := bind_eq_ok.mp h
  obtain ⟨-, h⟩ := throw_if_eq_ok.mp h
  obtain ⟨-, h⟩ := throw_if_eq_ok.mp h
  cases h
  rw [lastIndex, maxKey_append]
  exact congrArg (max _) (Nat.max_zero index)

theorem insertEntry_keeps (h : db.insertEntry index e = .ok db') :
    db.Keeps k db' ∧ db'.indices = db.indices := by
  obtain ⟨command, -, h⟩ := bind_eq_ok.mp h
  obtain ⟨-, h⟩ := throw_if_eq_ok.mp h
  obtain ⟨-, h⟩ := throw_if_eq_ok.mp h
  cases h
  refine ⟨⟨fun j _ old hold ↦ ?_, fun _ _ h ↦ h, fun _ _ h ↦ h⟩, rfl⟩
  rw [Table.get?_append, hold]
  rfl

/-- An item overwrites the log only above the commit index. -/
theorem appendItem_keeps (h : db.appendItem k index e = .ok db') :
    db.Keeps k db' ∧ db'.indices = db.indices ∧ (k ≤ db.lastIndex → k ≤ db'.lastIndex) := by
  rw [appendItem] at h
  split at h
  · obtain ⟨hkeeps, hindices⟩ := insertEntry_keeps (k := k) h
    refine ⟨hkeeps, hindices, fun hk ↦ ?_⟩
    rw [insertEntry_lastIndex h]
    exact Nat.le_trans hk (Nat.le_max_left _ _)
  split at h
  · split at h
    · cases h
    case isFalse hk =>
      obtain ⟨hkeeps, hindices⟩ := insertEntry_keeps (k := k) h
      have hdelete : db.Keeps k (db.deleteFrom index) := by
        refine ⟨fun j hj old hold ↦ ?_, fun _ _ h ↦ h, fun _ _ h ↦ h⟩
        rw [get?_deleteFrom db (Nat.lt_of_le_of_lt hj (Nat.not_le.mp hk)), hold]
      refine ⟨hdelete.trans hkeeps, hindices, fun _ ↦ ?_⟩
      rw [insertEntry_lastIndex h]
      exact Nat.le_trans (Nat.le_of_not_le hk) (Nat.le_max_right _ _)
  · cases h
    exact ⟨Keeps.refl _ _, rfl, id⟩

theorem appendItems_keeps (h : appendItems k db index es = .ok db') :
    db.Keeps k db' ∧ db'.indices = db.indices ∧ (k ≤ db.lastIndex → k ≤ db'.lastIndex) := by
  induction es generalizing db index with
  | nil =>
    cases h
    exact ⟨Keeps.refl _ _, rfl, id⟩
  | cons e es ih =>
    obtain ⟨db₁, h₁, h⟩ := bind_eq_ok.mp h
    obtain ⟨hkeeps, hindices, hlast⟩ := appendItem_keeps h₁
    obtain ⟨hkeeps', hindices', hlast'⟩ := ih h
    exact ⟨hkeeps.trans hkeeps', hindices'.trans hindices, hlast' ∘ hlast⟩

end Append

end Database

/-! ## Memory and database -/

namespace Node

variable {n n' : Node} {k : ℕ}

/-- Whenever the lock of a node is free, the indices in memory are those of the database. -/
structure Mirrors (n : Node) : Prop where
  commitIndex : n.commitIndex = n.db.commitIndex
  appliedIndex : n.appliedIndex = n.db.appliedIndex

/-- One committed entry more is replayed. -/
theorem applyNext_keeps (h : n.applyNext = .ok n') :
    n.db.Keeps k n'.db ∧ n'.commitIndex = n.commitIndex ∧ (n.Mirrors → n'.Mirrors) := by
  rw [applyNext] at h
  split at h
  · cases h
  obtain ⟨⟨r, consumed⟩, hreplay, h⟩ := bind_eq_ok.mp h
  cases h
  refine ⟨⟨fun _ _ _ h ↦ h, fun j old hold ↦ ?_, fun key claim hclaim ↦ ?_⟩, rfl, fun hm ↦ ?_⟩
  · rw [Table.get?_insertNew]
    split
    case isTrue hj => rw [← hj, hold]; rfl
    case isFalse => exact hold
  · rcases replayCommand_cases hreplay with ⟨-, -, rfl⟩ | ⟨key', claim', -, rfl, -⟩
    · exact hclaim
    · rw [Table.get?_insertNew]
      split
      case isTrue hkey => rw [← hkey, hclaim]; rfl
      case isFalse => exact hclaim
  · exact ⟨hm.commitIndex, rfl⟩

theorem applyLoop_keeps {fuel : ℕ} (h : applyLoop fuel n = .ok n') :
    n.db.Keeps k n'.db ∧ n'.commitIndex = n.commitIndex ∧ (n.Mirrors → n'.Mirrors) := by
  induction fuel generalizing n with
  | zero =>
    cases h
    exact ⟨.refl _ _, rfl, id⟩
  | succ fuel ih =>
    rw [applyLoop] at h
    split at h
    · obtain ⟨n₁, h₁, h⟩ := bind_eq_ok.mp h
      obtain ⟨hkeeps, hcommit, hm⟩ := applyNext_keeps h₁
      obtain ⟨hkeeps', hcommit', hm'⟩ := ih h
      exact ⟨hkeeps.trans hkeeps', hcommit'.trans hcommit, hm' ∘ hm⟩
    · cases h
      exact ⟨.refl _ _, rfl, id⟩

/-- A rollback reads the indices of the database, whether they are consistent or not. -/
theorem rollback_fst (n : Node) (e : Exn) : (n.rollback e).1 =
    { n with commitIndex := n.db.commitIndex, appliedIndex := n.db.appliedIndex } := by
  rw [rollback, restoreCommittedIndices]
  dsimp only
  by_cases h : n.db.appliedIndex ≤ n.db.commitIndex ∧ n.db.commitIndex ≤ n.db.lastIndex
  · rw [if_pos h]
  · rw [if_neg h]

theorem rollback_mirrors (n : Node) (e : Exn) : (n.rollback e).1.Mirrors := by
  rw [rollback_fst]
  exact ⟨rfl, rfl⟩

theorem setCommitIndex_mirrors (h : n.Mirrors) (k : ℕ) : (n.setCommitIndex k).Mirrors :=
  ⟨rfl, h.appliedIndex⟩

section Append

variable [Platform] {es : List Entry} {first : ℕ} {leaderCommit : ℤ}

/-- A transaction that is committed. -/
theorem appendTransaction_keeps (h : n.appendTransaction first es leaderCommit = .ok n') :
    n.db.Keeps n.commitIndex n'.db ∧ (n.commitIndex ≤ n.db.lastIndex →
      n.commitIndex ≤ n'.commitIndex) ∧ (n.Mirrors → n'.Mirrors) := by
  obtain ⟨db, hdb, h⟩ := bind_eq_ok.mp h
  obtain ⟨hitems, hindices, hlast⟩ := Database.appendItems_keeps hdb
  have hm : n.Mirrors → Node.Mirrors { n with db := db } := fun hm ↦
    ⟨hm.commitIndex.trans (congrArg Prod.fst hindices).symm,
      hm.appliedIndex.trans (congrArg Prod.snd hindices).symm⟩
  dsimp only at h
  split at h
  case isTrue hlt =>
    obtain ⟨hkeeps, hcommit, hm'⟩ := applyLoop_keeps (k := n.commitIndex) h
    have hset : db.Keeps n.commitIndex
        (Node.setCommitIndex { n with db := db } (min leaderCommit.toNat db.lastIndex)).db :=
      ⟨fun _ _ _ h ↦ h, fun _ _ h ↦ h, fun _ _ h ↦ h⟩
    refine ⟨(hitems.trans hset).trans hkeeps, fun hle ↦ ?_,
      fun h ↦ hm' (setCommitIndex_mirrors (hm h) _)⟩
    rw [hcommit]
    exact Nat.le_min.mpr ⟨by omega, hlast hle⟩
  case isFalse =>
    obtain ⟨hkeeps, hcommit, hm'⟩ := applyLoop_keeps (k := n.commitIndex) h
    exact ⟨hitems.trans hkeeps, fun _ ↦ Nat.le_of_eq hcommit.symm, hm' ∘ hm⟩

end Append

/-- Nothing has changed but the term, the vote, the role and the leader hint. -/
def SameButVote (n n' : Node) : Prop :=
  ∃ term votedFor role leaderId durableTerm durableVote,
    n' = { n with
      term := term
      votedFor := votedFor
      role := role
      leaderId := leaderId
      db := { n.db with term := durableTerm, votedFor := durableVote } }

theorem SameButVote.refl (n : Node) : n.SameButVote n :=
  ⟨n.term, n.votedFor, n.role, n.leaderId, n.db.term, n.db.votedFor, rfl⟩

theorem SameButVote.keeps (h : n.SameButVote n') : n.db.Keeps k n'.db := by
  obtain ⟨_, _, _, _, _, _, rfl⟩ := h
  exact ⟨fun _ _ _ h ↦ h, fun _ _ h ↦ h, fun _ _ h ↦ h⟩

theorem SameButVote.mirrors (h : n.SameButVote n') (hm : n.Mirrors) : n'.Mirrors := by
  obtain ⟨_, _, _, _, _, _, rfl⟩ := h
  exact ⟨hm.commitIndex, hm.appliedIndex⟩

theorem stepDown_sameButVote {term : ℕ} {leader : Option NodeId}
    (h : n.stepDown term leader = .ok n') : n.SameButVote n' := by
  rw [stepDown] at h
  split at h
  · cases h
  · cases h
    rw [adoptTerm]
    split
    · exact ⟨_, _, _, _, _, _, rfl⟩
    · exact ⟨_, _, _, _, _, _, rfl⟩

theorem appendStepDown_sameButVote {term : ℤ} {leaderId : NodeId}
    (h : n.appendStepDown term leaderId = .ok n') : n.SameButVote n' := by
  rw [appendStepDown] at h
  split at h
  · exact stepDown_sameButVote h
  · cases h
    exact ⟨_, _, _, _, _, _, rfl⟩

/-! ## The other sections -/

theorem electStart_mirrors (hm : n.Mirrors) (h : n.electStart = .ok n') : n'.Mirrors := by
  obtain ⟨n₁, h₁, h⟩ := bind_eq_ok.mp h
  cases h
  have hm₁ := (stepDown_sameButVote h₁).mirrors hm
  exact ⟨hm₁.commitIndex, hm₁.appliedIndex⟩

theorem requestVote_mirrors (hm : n.Mirrors) (t : ℤ) (candidate : NodeId) (li lt : ℤ) :
    (n.requestVote t candidate li lt).1.Mirrors := by
  obtain ⟨m, hm'⟩ := n.requestVoteStepDown_ok t
  have hmirrors : m.Mirrors := by
    rw [requestVoteStepDown] at hm'
    split at hm'
    · exact (stepDown_sameButVote hm').mirrors hm
    · cases hm'
      exact hm
  rw [requestVote, hm']
  split
  · exact hm
  split
  · exact hm
  · dsimp only
    rw [requestVoteGrant]
    split
    · exact ⟨hmirrors.commitIndex, hmirrors.appliedIndex⟩
    · exact hmirrors

theorem electCount_mirrors (hm : n.Mirrors) (electionTerm votes theirTerm : ℕ) (grant : Bool) :
    (n.electCount electionTerm votes theirTerm grant).1.Mirrors := by
  rw [electCount]
  split
  · split
    · exact hm
    next n₁ h₁ => exact (stepDown_sameButVote h₁).mirrors hm
  split
  · exact hm
  · exact hm

theorem electFinish_mirrors (hm : n.Mirrors) (peers : List NodeId) (votes : ℕ) :
    (n.electFinish peers votes).Mirrors := by
  rw [electFinish]
  split
  · exact ⟨hm.commitIndex, hm.appliedIndex⟩
  · exact hm

theorem replicateSettle_mirrors (hm : n.Mirrors) (peer : NodeId) (m : Message) (r : AppendReply) :
    (n.replicateSettle peer m r).1.Mirrors := by
  rw [replicateSettle]
  split
  · split
    · exact hm
    next n₁ h₁ => exact (stepDown_sameButVote h₁).mirrors hm
  split
  · exact hm
  split
  · exact ⟨hm.commitIndex, hm.appliedIndex⟩
  split
  · exact hm
  · exact ⟨hm.commitIndex, hm.appliedIndex⟩

theorem proposeCommit_mirrors (hm : n.Mirrors) (position : ℕ) :
    (n.proposeCommit position).1.Mirrors := by
  rw [proposeCommit]
  split
  · exact hm
  split
  · exact hm
  split
  next e he =>
    have hr := n.rollback_mirrors e
    dsimp only
    rcases n.giveUp_fst e with heq | heq <;> rw [heq]
    · exact hr
    · exact ⟨hr.commitIndex, hr.appliedIndex⟩
  next n₁ h₁ => exact (applyLoop_keeps (k := 0) h₁).2.2 (setCommitIndex_mirrors hm position)

/-! ## A call -/

/-- `0 <= applied_index <= commit_index <= last_index`. -/
def IndicesConsistent (n : Node) : Prop :=
  n.appliedIndex ≤ n.commitIndex ∧ n.commitIndex ≤ n.db.lastIndex

/-- What a call may do to a node: if it returns, then nothing has changed that was recorded up to
the commit index, and the commit index has not decreased; if it raises, then nothing has changed but
the term, the vote, the role and the leader hint. -/
def AtomicAt (n : Node) (r : Node × Except Exn AppendReply) : Prop :=
  match r.2 with
  | .ok _ => n.db.Keeps n.commitIndex r.1.db ∧ n.commitIndex ≤ r.1.commitIndex
  | .error _ => n.SameButVote r.1

variable [Platform]

/-- The indices in memory come back with the database when the transaction fails. -/
theorem appendAccept_cases (n : Node) (hm : n.Mirrors) (a : AppendArgs) :
    (n.appendAccept a).1 = n ∨
      ∃ es reply, n.appendTransaction (a.prevIndex.toNat + 1) es a.leaderCommit =
        .ok (n.appendAccept a).1 ∧ (n.appendAccept a).2 = .ok reply := by
  rw [appendAccept]
  split
  · split <;> exact .inl rfl
  split
  · exact .inl rfl
  split
  · exact .inl rfl
  next es hes =>
    split
    next e he =>
      left
      change (n.rollback e).1 = n
      rw [rollback_fst, ← hm.commitIndex, ← hm.appliedIndex]
    next n' hn' => exact .inr ⟨es, _, hn', rfl⟩

theorem appendEntries_atomic (hm : n.Mirrors) (hindices : n.IndicesConsistent) (a : AppendArgs) :
    n.AtomicAt (n.appendEntries a) := by
  rw [appendEntries]
  split
  · exact ⟨.refl _ _, Nat.le_refl _⟩
  split
  · exact ⟨.refl _ _, Nat.le_refl _⟩
  split
  · exact SameButVote.refl n
  next n₁ hn₁ =>
    have hsame := appendStepDown_sameButVote hn₁
    have hcommit : n₁.commitIndex = n.commitIndex ∧ n₁.db.lastIndex = n.db.lastIndex := by
      obtain ⟨_, _, _, _, _, _, rfl⟩ := hsame
      exact ⟨rfl, rfl⟩
    rcases appendAccept_cases n₁ (hsame.mirrors hm) a with heq | ⟨es, reply, htx, hreply⟩
    · rw [AtomicAt, heq]
      split
      · exact ⟨hsame.keeps, Nat.le_of_eq hcommit.1.symm⟩
      · exact hsame
    · obtain ⟨hkeeps, hle, -⟩ := appendTransaction_keeps htx
      rw [AtomicAt, hreply]
      refine ⟨(hsame.keeps (k := n.commitIndex)).trans (hcommit.1 ▸ hkeeps), ?_⟩
      rw [← hcommit.1]
      exact hle (by rw [hcommit.1, hcommit.2]; exact hindices.2)

theorem appendEntries_mirrors (hm : n.Mirrors) (a : AppendArgs) :
    (n.appendEntries a).1.Mirrors := by
  rw [appendEntries]
  split
  · exact hm
  split
  · exact hm
  split
  · exact hm
  next n₁ hn₁ =>
    have hm₁ := (appendStepDown_sameButVote hn₁).mirrors hm
    rcases appendAccept_cases n₁ hm₁ a with heq | ⟨es, reply, htx, -⟩
    · rw [heq]
      exact hm₁
    · exact (appendTransaction_keeps htx).2.2 hm₁

end Node

/-! ## Every run -/

section Runs

variable [Platform] {M : Membership} {c c' : Cluster} {a : Action} {i : NodeId} {n n' : Node}

namespace Node

/-- Opening a database applies what is committed in it. -/
theorem applyCommitted_of_open {db : Database} (h : Node.open i M.members db = .ok n) :
    ∃ pinned, Node.applyCommitted
      { nodeId := i
        members := M.members
        db := { db with membership := some pinned }
        term := db.term
        votedFor := db.votedFor
        commitIndex := db.commitIndex
        appliedIndex := db.appliedIndex
        role := .follower
        leaderId := none
        next := []
        matched := [] } = .ok n := by
  rw [Node.open] at h
  obtain ⟨-, h⟩ := throw_if_eq_ok.mp h
  obtain ⟨-, h⟩ := throw_if_eq_ok.mp h
  obtain ⟨pinned, -, h⟩ := bind_eq_ok.mp h
  refine ⟨pinned, ?_⟩
  cases hold : db.membership with
  | none =>
    simp only [hold] at h
    obtain ⟨-, h⟩ := throw_if_eq_ok.mp h
    exact (throw_if_eq_ok.mp h).2
  | some old =>
    simp only [hold] at h
    obtain ⟨-, h⟩ := throw_if_eq_ok.mp h
    obtain ⟨-, h⟩ := throw_if_eq_ok.mp h
    exact (throw_if_eq_ok.mp h).2

theorem open_mirrors {db : Database} (h : Node.open i M.members db = .ok n) : n.Mirrors := by
  obtain ⟨pinned, h⟩ := applyCommitted_of_open h
  exact (applyLoop_keeps (k := 0) h).2.2 ⟨rfl, rfl⟩

theorem proposeAppend_mirrors {command : Command} (hm : n.Mirrors)
    (h : n.proposeAppend command = .ok n') : n'.Mirrors := by
  obtain ⟨-, -, h⟩ := bind_eq_ok.mp h
  obtain ⟨-, h⟩ := throw_if_eq_ok.mp h
  obtain ⟨db, hdb, h⟩ := bind_eq_ok.mp h
  cases h
  have hindices := (Database.insertEntry_keeps (k := 0) hdb).2
  exact ⟨hm.commitIndex.trans (congrArg Prod.fst hindices).symm,
    hm.appliedIndex.trans (congrArg Prod.snd hindices).symm⟩

end Node

/-- The memory of every node agrees with its database. -/
def Cluster.Mirrored (c : Cluster) : Prop := ∀ j, (c.node j).Mirrors

omit [Platform] in
theorem Cluster.Mirrored.setNode {c₀ : Cluster} (hc : c.Mirrored) (hnode : c₀.node = c.node)
    (hn : n.Mirrors) : (c₀.setNode i n).Mirrored := by
  intro j
  by_cases hj : j = i
  · rw [hj, Cluster.setNode_node_self]
    exact hn
  · rw [Cluster.setNode_node_ne hj, hnode]
    exact hc j

theorem Cluster.Mirrored.reopens {c₀ : Cluster} {db : Database} (hc : c.Mirrored)
    (h : Reopens M c₀ i db c') (hnode : c₀.node = c.node) : c'.Mirrored := by
  obtain ⟨n, hopen, rfl⟩ := h
  exact hc.setNode hnode (Node.open_mirrors hopen)

/-- One step, in any interleaving. -/
theorem Move.mirrored (hc : c.Mirrored) (h : Move M c a c') : c'.Mirrored := by
  cases h with
  | elect _ _ hn => exact hc.setNode rfl (Node.electStart_mirrors (hc _) hn)
  | electCrash _ ho => exact hc.reopens ho rfl
  | askLost => exact hc
  | askCrash _ _ _ ho => exact hc.reopens ho rfl
  | @ask _ _ e p _ n _ _ _ _ hn =>
    have hm := Node.requestVote_mirrors (hc p) e.electionTerm e.node e.lastIndex e.lastTerm
    rw [hn] at hm
    exact hc.setNode rfl hm
  | @count _ e theirTerm _ grant _ _ _ hn =>
    have hm := Node.electCount_mirrors (hc e.node) e.electionTerm e.votes theirTerm grant
    rw [hn] at hm
    exact hc.setNode rfl hm
  | @countLost _ e theirTerm grant _ _ _ hn =>
    have hm := Node.electCount_mirrors (hc e.node) e.electionTerm e.votes theirTerm grant
    rw [hn] at hm
    exact hc.setNode rfl hm
  | finish => exact hc.setNode rfl (Node.electFinish_mirrors (hc _) _ _)
  | propose _ _ _ hn => exact hc.setNode rfl (Node.proposeAppend_mirrors (hc _) hn)
  | proposeRefused => exact hc
  | enter => exact hc
  | sendDone => exact hc
  | sendFail => exact hc
  | send => exact hc
  | deliverLost => exact hc
  | deliverCrash _ _ ho => exact hc.reopens ho rfl
  | @deliver _ _ peer _ m _ _ _ _ hn =>
    have hm := Node.appendEntries_mirrors (hc peer) m.args
    rw [hn] at hm
    exact hc.setNode rfl hm
  | @deliverFail _ _ peer _ m _ _ _ _ hn =>
    have hm := Node.appendEntries_mirrors (hc peer) m.args
    rw [hn] at hm
    exact hc.setNode rfl hm
  | deliverReplyLost => exact hc.setNode rfl (Node.appendEntries_mirrors (hc _) _)
  | @settle _ p peer _ m r _ _ _ _ hn =>
    have hm := Node.replicateSettle_mirrors (hc p.node) peer m r
    rw [hn] at hm
    exact hc.setNode rfl hm
  | @commit _ p _ _ _ _ _ _ hn =>
    have hm := Node.proposeCommit_mirrors (hc p.node) p.position
    rw [hn] at hm
    exact hc.setNode rfl hm
  | @commitFail _ p _ _ _ _ hn =>
    have hm := Node.proposeCommit_mirrors (hc p.node) p.position
    rw [hn] at hm
    exact hc.setNode rfl hm
  | answer => exact hc
  | answerFail => exact hc
  | abandon => exact hc
  | restart ho => exact hc.reopens ho rfl
  | @requestVote i term candidateId li lt _ _ _ hn =>
    have hm := Node.requestVote_mirrors (hc i) term candidateId li lt
    rw [hn] at hm
    exact hc.setNode rfl hm
  | appendEntries => exact hc.setNode rfl (Node.appendEntries_mirrors (hc _) _)

/-- In every reachable state, whatever the interleaving. -/
theorem mirrored_of_reach (h : (machine M).Reach anyInterleaving c) : c.Mirrored :=
  h.invariant (fun _ ↦ ⟨rfl, rfl⟩) fun hc _ hstep ↦ (Cluster.step_move hstep).mirrored hc

end Runs

/-- **`append_entries` is atomic.** In every state that a cluster can reach, with any interleaving
of the sections of its calls, a call on a node whose indices are consistent keeps what is committed
if it returns, and changes nothing but the term, the vote, the role and the leader hint if it
raises, whatever its arguments are. -/
theorem appendEntries_atomicAt [Platform] (M : Membership) {c : Cluster}
    (h : (machine M).Reach anyInterleaving c) {i : NodeId}
    (hindices : (c.node i).IndicesConsistent) (a : AppendArgs) :
    (c.node i).AtomicAt ((c.node i).appendEntries a) :=
  Node.appendEntries_atomic (mirrored_of_reach h i) hindices a

/-- Any call on a node that has committed an entry. -/
theorem appendEntries_atomicAt_sample : ∃ c, (@machine pythonPlatform laboratory).Reach
    anyInterleaving c ∧ (c.node "a").commitIndex = 1 ∧
      ∀ a, (c.node "a").AtomicAt (@Node.appendEntries pythonPlatform (c.node "a") a) := by
  let := pythonPlatform
  have hrun : ((machine laboratory).runIf commitsForward (machine laboratory).init
      (overtaken.take 28)).map (fun c ↦ (c.node "a").commitIndex) = some 1 := by decide +kernel
  obtain ⟨c, hc, hcommit⟩ := Option.map_eq_some_iff.mp hrun
  have hforward : (machine laboratory).Reach commitsForward c := Machine.path_of_runIf hc
  have hreach : (machine laboratory).Reach anyInterleaving c :=
    Machine.Path.mono hforward fun _ ↦ trivial
  have hcons := consistent_of_reach hforward "a"
  exact ⟨c, hreach, hcommit, fun a ↦ appendEntries_atomicAt laboratory hreach
    ⟨Nat.le_of_eq hcons.applied_eq, hcons.lastIndex_eq ▸ hcons.commit_le⟩ a⟩

end EventHorizon.Raft
