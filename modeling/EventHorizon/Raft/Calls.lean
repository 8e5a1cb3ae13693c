import EventHorizon.Raft.Replication

/-!
# Calls in one piece

`_replicate` and `propose` on a cluster in which every peer answers and no other call is in
progress: the sections of `EventHorizon.Raft.Node` one after the other, with the loops around them.
The lemmas say what a leader with a log without a gap sends, what it makes of the reply, and what a
follower writes at the end of its log.
-/

namespace EventHorizon.Raft

/-! ## Calls without interruption -/

section Propose

variable [Platform]

/-- What is left of the loop of `_replicate` on a node. -/
def replicateLoop (i peer : NodeId) :
    ℕ → (NodeId → Node) → Except Exn Unit × (NodeId → Node)
  | 0, nodes => (.ok (), nodes)
  | turns + 1, nodes =>
    match (nodes i).replicateSend peer with
    | .error e => (.error e, nodes)
    | .ok none => (.ok (), nodes)
    | .ok (some m) =>
      let (n, answer) := (nodes peer).appendEntries m.args
      let nodes := Function.update nodes peer n
      match answer with
      | .error e => if e.cls = .raftCoreUnavailable then (.ok (), nodes) else (.error e, nodes)
      | .ok r =>
        let (n, again) := (nodes i).replicateSettle peer m r
        let nodes := Function.update nodes i n
        match again with
        | .error e => (.error e, nodes)
        | .ok false => (.ok (), nodes)
        | .ok true => replicateLoop i peer turns nodes

/-- `_replicate`. -/
def replicate (i peer : NodeId) (nodes : NodeId → Node) : Except Exn Unit × (NodeId → Node) :=
  replicateLoop i peer ((nodes i).db.lastIndex + 1) nodes

/-- `for peer_id in self.peers: self._replicate(peer_id)`. -/
def replicateAll (i : NodeId) :
    List NodeId → (NodeId → Node) → Except Exn Unit × (NodeId → Node)
  | [], nodes => (.ok (), nodes)
  | peer :: peers, nodes =>
    match replicate i peer nodes with
    | (.error e, nodes) => (.error e, nodes)
    | (.ok (), nodes) => replicateAll i peers nodes

/-- `propose`. -/
def propose (peers : List NodeId) (i : NodeId) (nodes : NodeId → Node) (command : Command) :
    Except Exn Bool × (NodeId → Node) :=
  match (nodes i).proposeAppend command with
  | .error e => (.error e, nodes)
  | .ok n =>
    let position := n.db.lastIndex
    match replicateAll i peers (Function.update nodes i n) with
    | (.error e, nodes) => (.error e, nodes)
    | (.ok (), nodes) =>
      match (nodes i).proposeCommit position with
      | (n, .error e) => (.error e, Function.update nodes i n)
      | (n, .ok row) =>
        match replicateAll i peers (Function.update nodes i n) with
        | (.error e, nodes) => (.error e, nodes)
        | (.ok (), nodes) => (Node.proposeAnswer row, nodes)

end Propose

/-! ## Entries that a follower writes -/

section Follower

variable [Platform] {l es : List Entry} {k : ℕ}

/-- The entry is one that the loop of `append_entries` writes as it is. -/
structure Entry.Storable (e : Entry) : Prop where
  command : canonicalCommand e.command = .ok e.command
  term_pos : 0 < e.term
  term_lt : e.term < 2 ^ 63

omit [Platform] in
theorem parseItems_wireFrom_eq_ok (hes : ∀ e ∈ es, 0 < e.term) :
    parseItems k (wireFrom (k + 1) es) = .ok es := by
  induction es generalizing k with
  | nil => rfl
  | cons e es ih =>
    obtain ⟨he, hes⟩ := List.forall_mem_cons.mp hes
    have hitem : parseItem k (wireItem (k + 1) e) = some e := by
      have hparse : parseItem k (wireItem (k + 1) e) =
          if 1 ≤ (e.term : ℤ) ∧ ((k + 1 : ℕ) : ℤ) = k + 1 then some e else none := rfl
      rw [hparse, if_pos ⟨by omega, by omega⟩]
    rw [wireFrom, parseItems, hitem]
    exact bind_eq_ok.mpr ⟨es, ih hes, rfl⟩

theorem Database.appendItems_end {db : Database} (h : db.raftLog = numberedFrom 1 l) (commit : ℕ)
    (hes : ∀ e ∈ es, e.Storable) : appendItems commit db (l.length + 1) es =
      .ok { db with raftLog := numberedFrom 1 (l ++ es) } := by
  induction es generalizing db l with
  | nil =>
    rw [appendItems, List.append_nil, ← h]
  | cons e es ih =>
    obtain ⟨he, hes⟩ := List.forall_mem_cons.mp hes
    have hnone : db.entry (l.length + 1) = none := by
      rw [entry_succ h, List.getElem?_eq_none (Nat.le_refl _)]
    have hget : db.raftLog.get? (l.length + 1) = none := by
      rwa [entry, if_neg (Nat.succ_ne_zero _)] at hnone
    have hitem : db.appendItem commit (l.length + 1) e =
        .ok { db with raftLog := numberedFrom 1 (l ++ [e]) } := by
      rw [appendItem, hnone]
      refine insertEntry_eq_ok.mpr ⟨e.command, he.command, he.term_lt, hget, ?_⟩
      rw [numberedFrom_append_singleton, ← h, Nat.add_comm 1]
    have hrest := ih (show ({ db with raftLog := numberedFrom 1 (l ++ [e]) } : Database).raftLog = _
      from rfl) hes
    rw [List.length_append, List.length_singleton, List.append_assoc,
      List.singleton_append] at hrest
    exact bind_eq_ok.mpr ⟨_, hitem, hrest⟩

omit [Platform] in
theorem Database.exists_entryAt {db : Database} (h : db.raftLog = numberedFrom 1 l)
    (hk : k ≤ l.length) : ∃ e, db.entryAt k = some e ∧ termBefore l k = some e.term := by
  have hentry : ∃ e, db.entryAt k = some e := by
    rw [entryAt, if_neg (Int.not_lt.mpr (Int.natCast_nonneg k)), Int.toNat_natCast]
    cases k with
    | zero => exact ⟨_, rfl⟩
    | succ k => exact ⟨l[k], by rw [entry_succ h, List.getElem?_eq_getElem hk]⟩
  obtain ⟨e, he⟩ := hentry
  exact ⟨e, he, (entryAt_eq h he).2⟩

end Follower

/-! ## Messages of a leader -/

section Leader

theorem wireItems_eq_ok {db : Database} {l : List Entry} (h : db.raftLog = numberedFrom 1 l)
    {k count : ℕ} (hcount : k + count = l.length) :
    Node.wireItems db (k + 1) count = .ok (wireFrom (k + 1) (l.drop k)) := by
  induction count generalizing k with
  | zero =>
    rw [Node.wireItems, List.drop_eq_nil_of_le (by omega), wireFrom]
  | succ count ih =>
    have hlt : k < l.length := by omega
    rw [Node.wireItems, Database.entry_succ h, List.getElem?_eq_getElem hlt,
      List.drop_eq_getElem_cons hlt, wireFrom]
    exact bind_eq_ok.mpr ⟨_, ih (by omega), rfl⟩

/-- The index that the next message to a peer starts from. -/
def Node.nextIndex (n : Node) (peer : NodeId) : ℕ := (n.next.get? peer).getD (n.db.lastIndex + 1)

/-- The message that a leader sends after `k` entries. -/
def Node.message (n : Node) (k s : ℕ) : Node.Message where
  nextIndex := k + 1
  args :=
    { term := n.term
      leaderId := n.nodeId
      prevIndex := k
      prevTerm := s
      entries := wireFrom (k + 1) (n.log.drop k)
      leaderCommit := n.commitIndex }

variable {n : Node}

/-- A leader whose log has no gap sends the rest of it. -/
theorem Node.replicateSend_eq_ok (h : n.db.raftLog = numberedFrom 1 n.log)
    (hrole : n.role = .leader) {peer : NodeId} {k : ℕ} (hnext : n.nextIndex peer = k + 1)
    (hk : k ≤ n.log.length) :
    ∃ s, termBefore n.log k = some s ∧ n.replicateSend peer = .ok (some (n.message k s)) := by
  obtain ⟨e, he, hs⟩ := Database.exists_entryAt h hk
  refine ⟨e.term, hs, ?_⟩
  have hcast : ((k + 1 : ℕ) : ℤ) - 1 = k := by omega
  have hcount : n.db.lastIndex + 1 - (k + 1) = n.log.length - k := by
    rw [Database.lastIndex_eq h]
    omega
  rw [nextIndex] at hnext
  rw [replicateSend, if_neg (not_not.mpr hrole), hnext]
  dsimp only
  rw [hcast, he]
  refine bind_eq_ok.mpr ⟨wireFrom (k + 1) (n.log.drop k), ?_, rfl⟩
  rw [hcount]
  exact wireItems_eq_ok h (Nat.add_sub_of_le hk)

/-- The reply of a follower that was brought up to date. -/
theorem Node.replicateSettle_accepted (hrole : n.role = .leader) (peer : NodeId) (k s index : ℕ) :
    n.replicateSettle peer (n.message k s) ⟨n.term, true, index⟩ =
      ({ n with matched := n.matched.put peer index, next := n.next.put peer (index + 1) },
        .ok false) := by
  rw [replicateSettle, if_neg (Nat.lt_irrefl _), if_neg (by simp [hrole, message]), if_pos rfl]

theorem Node.replicateSettle_refused (hrole : n.role = .leader) (peer : NodeId) {k : ℕ} (hk : 0 < k)
    (s index : ℕ) : n.replicateSettle peer (n.message k s) ⟨n.term, false, index⟩ =
      ({ n with next := n.next.put peer k }, .ok true) := by
  rw [replicateSettle, if_neg (Nat.lt_irrefl _), if_neg (by simp [hrole, message]),
    if_neg Bool.false_ne_true, if_neg (by change ¬k + 1 ≤ 1; omega), message, Nat.add_sub_cancel]

end Leader

end EventHorizon.Raft
