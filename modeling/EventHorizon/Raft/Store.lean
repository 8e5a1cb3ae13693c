import EventHorizon.Raft.Convergence
import EventHorizon.Replay.Consumption

/-!
# A store on a leader

`ResearchRaftCapabilityConsumptionStore` proposes one command for each call of `consume`. `Ready` is
what a leader needs for its proposals to go through while every peer answers and no other call is in
progress: a peer may lag behind, and it may have entries of former leaders that were not committed.
The first proposal brings every peer to the leader's log and commits what the leader had before.
-/

namespace EventHorizon.Raft

open Replay (Arguments Consumption)

/-! ## The store -/

/-- `ResearchRaftCapabilityConsumptionStore` with the names it was given and its node. -/
structure ResearchStore where
  node : NodeId
  namespaceName : String
  domain : String
  namespaceName_ne : namespaceName ≠ ""
  domain_ne : domain ≠ ""
  namespaceName_colon : ':' ∉ namespaceName.toList
  domain_colon : ':' ∉ domain.toList

namespace ResearchStore

def scope (store : ResearchStore) : String := store.namespaceName ++ ":" ++ store.domain

/-- The command of a call. -/
def command (store : ResearchStore) (c : Consumption) : Command :=
  [("op", .str "consume"), ("scope", .str store.scope), ("capability_id", .str c.capabilityId),
    ("claims_digest", .str c.claimsDigest), ("expires_at", .int c.expiresAt),
    ("consumed_at", .int c.consumedAt)]

/-- `ResearchRaftCapabilityConsumptionStore.consume`. The operation and the scope pass the first
check of `propose`, so the first thing that can go wrong is the validation of the arguments. -/
def consume [Platform] (M : Membership) (store : ResearchStore) (nodes : NodeId → Node)
    (a : Arguments) : Except Exn Bool × (NodeId → Node) :=
  match a.validate with
  | .error e => (.error e, nodes)
  | .ok c => propose (M.peers store.node) store.node nodes (store.command c)

/-- What the leader has in its table of consumed tokens. -/
def bindings (store : ResearchStore) (nodes : NodeId → Node) (id : String) : Option (String × ℤ) :=
  (nodes store.node).db.consumed.get? (store.scope, id)

end ResearchStore

/-! ## Leaders and their peers -/

section Leader

variable [Platform] (M : Membership) {i p : NodeId} {n n' : Node} {nodes : NodeId → Node}

theorem Membership.nodup_peers (hi : i ∈ M.members) : (M.peers i).Nodup :=
  (M.peers_perm i hi).nodup_iff.mpr (M.nodup.erase i)

theorem Membership.notMem_peers (hi : i ∈ M.members) : i ∉ M.peers i := fun hmem ↦
  M.nodup.not_mem_erase ((M.peers_perm i hi).mem_iff.mp hmem)

theorem Membership.length_peers (hi : i ∈ M.members) :
    (M.peers i).length + 1 = M.members.length := by
  rw [(M.peers_perm i hi).length_eq, List.length_erase_of_mem hi]
  have := M.three_le
  omega

/-- A node that leads. -/
structure Leads (i : NodeId) (n : Node) : Prop where
  mem : i ∈ M.members
  consistent : n.Consistent M.pinned M.members i
  sound : n.Sound M Command.Applicable i
  role : n.role = .leader

/-- A peer that a leader can bring up to date. It has what is committed in common with the leader,
and no entry of the leader's own term that the leader does not have. -/
structure Follows (n : Node) (p : NodeId) (m : Node) : Prop where
  sound : m.Sound M Command.Applicable p
  term_le : m.term ≤ n.term
  matching : LogMatching n.log m.log
  committed : m.log.take m.commitIndex <+: n.log
  own : ∀ k e, m.log[k]? = some e → e.term = n.term → k < n.log.length
  /-- The next message begins after an index that SQLite can look up, or that has a row. -/
  next : ∃ k, n.next.get? p = some (k + 1) ∧ k ≤ n.log.length ∧
    (k < 2 ^ 63 ∨ n.log.take k <+: m.log)

/-- The state of a cluster between two proposals of its leader. The term of the leader is one that
SQLite can write in a row. -/
structure Ready (i : NodeId) (nodes : NodeId → Node) : Prop where
  leads : Leads M i (nodes i)
  term_lt : (nodes i).term < 2 ^ 63
  follows : ∀ p ∈ M.peers i, Follows M (nodes i) p (nodes p)
  matched : (nodes i).matched.map Prod.fst = M.peers i

variable {M}

theorem Leads.withPeers (h : Leads M i n) (next matched : Table NodeId ℕ) :
    Leads M i { n with next := next, matched := matched } where
  mem := h.mem
  consistent := h.consistent.volatile n.role n.leaderId next matched
  sound := h.sound.of_frame rfl rfl rfl h.sound.term ⟨h.sound.commitIndex, h.sound.appliedIndex⟩
    h.sound.commit_le h.sound.results h.sound.leads
  role := h.role

omit [Platform] in
theorem Node.nextIndex_eq {k : ℕ} (h : n.next.get? p = some k) : n.nextIndex p = k := by
  rw [nextIndex, h, Option.getD_some]

theorem Follows.diverged (hl : Leads M i (nodes i)) (hp : p ≠ i)
    (h : Follows M (nodes i) p (nodes p)) : Diverged M Command.Applicable i p nodes where
  mem := hl.mem
  ne := hp
  leader := hl.sound
  role := hl.role
  follower := h.sound
  term_le := h.term_le
  matching := h.matching
  noConflict := by
    intro k hk e e' he he'
    have hlt := (List.getElem?_eq_some_iff.mp he').1
    have hsame := LeaderHistory.prefix_of_take h.committed hk hlt
    rw [he, he'] at hsame
    exact Option.some.inj hsame
  canApply k e _ _ he := by
    rcases he with he | ⟨-, he⟩
    · exact (hl.sound.entries e (List.mem_of_getElem? he)).kind
    · exact (h.sound.entries e (List.mem_of_getElem? he)).kind
  next_le := by
    obtain ⟨k, hk, hle, -⟩ := h.next
    rw [Node.nextIndex_eq hk]
    exact Nat.succ_le_succ hle
  found := by
    obtain ⟨k, hk, -, hfound⟩ := h.next
    rw [Node.nextIndex_eq hk]
    exact hfound

theorem Follows.grow {m : Node} (h : Follows M n p m) {e : Entry} (hterm : n'.term = n.term)
    (he : e.term = n.term) (hlog : n'.log = n.log ++ [e]) (hnext : n'.next = n.next) :
    Follows M n' p m where
  sound := h.sound
  term_le := hterm ▸ h.term_le
  matching := by
    intro k x y hx hy hτ
    rcases Nat.lt_or_ge k n.log.length with hlt | hge
    · rw [hlog, List.getElem?_append_left hlt] at hx
      rw [hlog, List.take_append_of_le_length hlt]
      exact h.matching k x y hx hy hτ
    · -- the new entry is of the leader's term, and the peer has none of these so far out
      have hmem := List.mem_of_getElem? (hlog ▸ hx)
      have hk : k = n.log.length := by
        have hlen := (List.getElem?_eq_some_iff.mp hx).1
        rw [hlog, List.length_append, List.length_singleton] at hlen
        omega
      rw [hlog, hk, List.getElem?_concat_length, Option.some.injEq] at hx
      have := h.own k y hy (by rw [← hτ, ← hx, he])
      omega
  committed := h.committed.trans (hlog ▸ List.prefix_append _ _)
  own k x hx hτ := by
    have hlt := h.own k x hx (hτ.trans hterm)
    rw [hlog, List.length_append]
    exact Nat.lt_add_right _ hlt
  next := by
    obtain ⟨k, hk, hle, hfound⟩ := h.next
    refine ⟨k, hnext ▸ hk, ?_, ?_⟩
    · rw [hlog, List.length_append]
      exact Nat.le_add_right_of_le hle
    · rw [hlog, List.take_append_of_le_length hle]
      exact hfound

theorem Follows.of_log_eq {m : Node} (hm : m.Sound M Command.Applicable p) (hterm : m.term = n.term)
    (hlog : m.log = n.log) (hnext : n.next.get? p = some (n.log.length + 1)) :
    Follows M n p m where
  sound := hm
  term_le := Nat.le_of_eq hterm
  matching k x y hx hy _ := by rw [hlog]
  committed := hlog ▸ List.take_prefix _ _
  own k x hx _ := (List.getElem?_eq_some_iff.mp (hlog ▸ hx)).1
  next := ⟨n.log.length, hnext, Nat.le_refl _, .inr (by rw [List.take_length, hlog])⟩

/-! ## Replication to every peer -/

theorem Replicated.cons {G : Command → Prop} {peers : List NodeId} {nodes₁ nodes₂ : NodeId → Node}
    (hp : p ∉ peers) (hpi : p ≠ i) (hi : i ∉ peers) (h : Replicated M G i [p] nodes nodes₁)
    (h' : Replicated M G i peers nodes₁ nodes₂) :
    Replicated M G i (p :: peers) nodes nodes₂ := by
  have hlog : (nodes₁ i).log = (nodes i).log := by rw [h.leader]
  have hterm : (nodes₁ i).term = (nodes i).term := by rw [h.leader]
  have hp₂ : nodes₂ p = nodes₁ p := h'.others p hpi hp
  have hself := List.mem_singleton_self p
  have hq₁ : ∀ q ∈ peers, nodes₁ q = nodes q := fun q hq ↦
    h.others q (fun heq ↦ hi (heq ▸ hq)) fun hmem ↦ hp (List.mem_singleton.mp hmem ▸ hq)
  -- the part of the first peer is kept by the calls to the others
  refine ⟨?_, ?_, ?_, ?_, ?_, ?_, ?_, ?_, ?_, ?_, ?_⟩
  · intro j hji hj
    rw [List.mem_cons, not_or] at hj
    rw [h'.others j hji hj.2, h.others j hji (by simpa using hj.1)]
  · rw [h'.leader, h.leader]
  · intro j hj
    rw [List.mem_cons, not_or] at hj
    rw [h'.next_others j hj.2, h.next_others j (by simpa using hj.1)]
  · intro j hj
    rw [List.mem_cons, not_or] at hj
    rw [h'.matched_others j hj.2, h.matched_others j (by simpa using hj.1)]
  · intro hmem
    have hkeys := h.keys fun q hq ↦ hmem q (List.mem_cons.mpr (.inl (List.mem_singleton.mp hq)))
    rw [h'.keys fun q hq ↦ hkeys ▸ hmem q (List.mem_cons_of_mem p hq), hkeys]
  · rintro q (_ | ⟨_, hq⟩)
    · rw [h'.next_others p hp, h.next p hself]
    · rw [h'.next q hq, hlog]
  · rintro q (_ | ⟨_, hq⟩)
    · rw [h'.matched_others p hp, h.matched p hself]
    · rw [h'.matched q hq, hlog]
  · rintro q (_ | ⟨_, hq⟩)
    · exact hp₂ ▸ h.sound p hself
    · exact h'.sound q hq
  · rintro q (_ | ⟨_, hq⟩)
    · rw [hp₂, h.term p hself]
    · rw [h'.term q hq, hterm]
  · rintro q (_ | ⟨_, hq⟩)
    · exact hp₂ ▸ h.isPrefix p hself
    · exact hlog ▸ h'.isPrefix q hq
  · rintro q (_ | ⟨_, hq⟩)
    · exact hp₂ ▸ h.log p hself
    · exact hlog ▸ hq₁ q hq ▸ h'.log q hq

theorem Leads.replicateAll {peers : List NodeId} (hl : Leads M i (nodes i)) (hnodup : peers.Nodup)
    (hi : i ∉ peers) (hf : ∀ p ∈ peers, Follows M (nodes i) p (nodes p)) :
    ∃ nodes', Raft.replicateAll i peers nodes = (.ok (), nodes') ∧
      Replicated M Command.Applicable i peers nodes nodes' := by
  induction peers generalizing nodes with
  | nil =>
    refine
      ⟨nodes, rfl, ⟨fun _ _ _ ↦ rfl, rfl, fun _ _ ↦ rfl, fun _ _ ↦ rfl, fun _ ↦ rfl, ?_, ?_, ?_,
      ?_, ?_, ?_⟩⟩
    all_goals exact fun _ hq ↦ absurd hq List.not_mem_nil
  | cons p peers ih =>
    obtain ⟨hp, hnodup⟩ := List.nodup_cons.mp hnodup
    rw [List.mem_cons, not_or] at hi
    obtain ⟨hfp, hf⟩ := List.forall_mem_cons.mp hf
    have hpi : p ≠ i := Ne.symm hi.1
    obtain ⟨k, hk, hle, -⟩ := hfp.next
    have hturns : (nodes i).nextIndex p ≤ (nodes i).db.lastIndex + 1 := by
      rw [Node.nextIndex_eq hk, hl.sound.lastIndex_eq]
      exact Nat.succ_le_succ hle
    obtain ⟨nodes₁, hone, h⟩ := (hfp.diverged hl hpi).replicateLoop
      (Node.nextIndex_eq hk ▸ Nat.succ_pos k) hturns
    have hlog : (nodes₁ i).log = (nodes i).log := by rw [h.leader]
    have hterm : (nodes₁ i).term = (nodes i).term := by rw [h.leader]
    have hf₁ : ∀ q ∈ peers, Follows M (nodes₁ i) q (nodes₁ q) := by
      intro q hq
      have hqp : q ∉ [p] := fun hmem ↦ hp (List.mem_singleton.mp hmem ▸ hq)
      have hfq := hf q hq
      rw [h.others q (fun heq ↦ hi.2 (heq ▸ hq)) hqp]
      exact ⟨hfq.sound, hterm ▸ hfq.term_le, hlog ▸ hfq.matching, hlog ▸ hfq.committed,
        by rw [hlog, hterm]; exact hfq.own, by rw [hlog, h.next_others q hqp]; exact hfq.next⟩
    have hl₁ : Leads M i (nodes₁ i) := by
      rw [h.leader]
      exact hl.withPeers _ _
    obtain ⟨nodes₂, hrest, h'⟩ := ih hl₁ hnodup hi.2 hf₁
    refine ⟨nodes₂, ?_, h.cons hp hpi hi.2 h'⟩
    rw [Raft.replicateAll, replicate, hone]
    exact hrest

/-! ## Proposals of a leader -/

/-- After replication to all peers every node has what the leader has. -/
theorem Replicated.acknowledgements {nodes' : NodeId → Node} (hi : i ∈ M.members)
    (h : Replicated M Command.Applicable i (M.peers i) nodes nodes')
    (hmatched : (nodes i).matched.map Prod.fst = M.peers i) :
    (nodes' i).acknowledgements (nodes i).log.length = M.members.length := by
  have hkeys : (nodes' i).matched.map Prod.fst = M.peers i := by
    rw [h.keys (by rw [hmatched]; exact fun _ ↦ id), hmatched]
  have hall : ∀ r ∈ (nodes' i).matched, (nodes i).log.length ≤ r.2 := by
    rintro ⟨p, k⟩ hr
    have hp : p ∈ M.peers i := hkeys ▸ List.mem_map_of_mem (f := Prod.fst) hr
    have hget := (Table.get?_eq_some_iff (hkeys ▸ M.nodup_peers hi)).mpr hr
    rw [h.matched p hp, Option.some.injEq] at hget
    exact Nat.le_of_eq hget
  have hlen : (nodes' i).matched.length = (M.peers i).length := by
    rw [← hkeys, List.length_map]
  rw [Node.acknowledgements, List.countP_eq_length.mpr (by simpa using hall), hlen, Nat.add_comm,
    M.length_peers hi]

omit [Platform] in
theorem Node.Consistent.proposeCommit_eq_ok {pinned : String} {members : List NodeId}
    (h : n.Consistent pinned members i) (hcommits : n.commits n.log.length = true)
    {rs : List Outcome}
    {c : Table (String × String) (String × ℤ)} (hrep : replayFrom [] n.log = .ok (rs, c)) :
    n.proposeCommit n.log.length = (n.withLog n.log n.log.length rs c,
      .ok ((numberedFrom 1 rs).get? n.log.length)) := by
  rw [Node.commits, decide_eq_true_eq] at hcommits
  have happ : (n.setCommitIndex n.log.length).Applying n.log n.db.results :=
    ⟨h.applying.rows, h.applying.resultRows, h.applying.appliedIndex, h.applying.applied_le,
      h.applying.replayed⟩
  have hself : n.withLog n.log n.log.length rs c =
      (n.setCommitIndex n.log.length).advance n.log.length rs c := by
    rw [Node.withLog, Node.advance, Node.setCommitIndex, Node.log, ← h.db.rows]
  have hcommit : (n.setCommitIndex n.log.length).applyCommitted =
      .ok (n.withLog n.log n.log.length rs c) := by
    refine (happ.applyCommitted_eq_ok ?_).mpr ⟨Nat.le_refl _, rs, c, ?_, hself⟩
    · exact Nat.le_trans (Nat.le_of_eq h.applied_eq) h.commit_le
    · exact (congrArg _ List.take_length).trans hrep
  rw [Node.proposeCommit, if_neg (not_not.mpr hcommits.1), if_neg (Nat.not_le.mpr hcommits.2),
    hcommit]
  rfl

omit [Platform] in
theorem exists_replayFrom {l : List Entry} (hl : ∀ e ∈ l, e.command.Applicable)
    (consumed : Table (String × String) (String × ℤ)) : ∃ x, replayFrom consumed l = .ok x := by
  induction l generalizing consumed with
  | nil => exact ⟨_, rfl⟩
  | cons e l ih =>
    obtain ⟨he, hl⟩ := List.forall_mem_cons.mp hl
    obtain ⟨⟨r, consumed₁⟩, hr⟩ := he consumed
    obtain ⟨⟨rs, consumed₂⟩, hrs⟩ := ih hl consumed₁
    exact ⟨(r :: rs, consumed₂), replayFrom_cons_eq_ok.mpr ⟨r, consumed₁, rs, hr, hrs, rfl⟩⟩

section Proposal

variable {command stored : Command} {r : Outcome} {rs : List Outcome}
  {consumed consumed' : Table (String × String) (String × ℤ)}

theorem Ready.proposeAppend (h : Ready M i nodes) (hcheck : Node.checkProposal command = .ok ())
    (hstored : canonicalCommand command = .ok stored) :
    ∃ n, (nodes i).proposeAppend command = .ok n ∧ Leads M i n ∧
      n.log = (nodes i).log ++ [⟨(nodes i).term, stored⟩] ∧ n.term = (nodes i).term ∧
      n.next = (nodes i).next ∧ n.matched = (nodes i).matched := by
  have hc := h.leads.consistent
  have hget : (nodes i).db.raftLog.get? ((nodes i).log.length + 1) = none := by
    rw [hc.db.rows, get?_numberedFrom, if_pos (by omega)]
    exact List.getElem?_eq_none (by rw [Nat.add_sub_cancel])
  have hinsert : (nodes i).db.insertEntry ((nodes i).log.length + 1) ⟨(nodes i).term, command⟩ =
      .ok { (nodes i).db with
        raftLog := numberedFrom 1 ((nodes i).log ++ [⟨(nodes i).term, stored⟩]) } := by
    refine Database.insertEntry_eq_ok.mpr ⟨stored, hstored, h.term_lt, hget, ?_⟩
    rw [numberedFrom_append_singleton, ← hc.db.rows, Nat.add_comm 1]
  have happend : (nodes i).proposeAppend command = .ok ((nodes i).withLog
      ((nodes i).log ++ [⟨(nodes i).term, stored⟩]) (nodes i).commitIndex (nodes i).db.results
      (nodes i).db.consumed) := by
    refine bind_eq_ok.mpr ⟨(), hcheck, throw_if_eq_ok.mpr ⟨not_not.mpr h.leads.role, ?_⟩⟩
    rw [hc.lastIndex_eq, ← hc.setLog_eq]
    exact bind_eq_ok.mpr ⟨_, hinsert, rfl⟩
  refine ⟨_, happend, ⟨h.leads.mem, (hc.advances_append _).consistent,
    (h.leads.sound.proposeAppend proposed_applicable happend).sound, h.leads.role⟩,
    Node.withLog_log, rfl, rfl, rfl⟩

theorem Replicated.log_eq {nodes' : NodeId → Node} {m : Node} {e : Entry}
    (h : Replicated M Command.Applicable i (M.peers i) nodes nodes') (hp : p ∈ M.peers i)
    (hf : Follows M n p m) (hm : (nodes p).log = m.log) (he : e.term = n.term)
    (hlog : (nodes i).log = n.log ++ [e]) : (nodes' p).log = (nodes i).log := by
  refine (h.log p hp).resolve_left fun hsame ↦ ?_
  have hpre := h.isPrefix p hp
  rw [hsame, hm, hlog] at hpre
  obtain ⟨rest, hrest⟩ := hpre
  have hget : m.log[n.log.length]? = some e := by
    rw [← hrest, List.append_assoc, List.getElem?_append_right (Nat.le_refl _), Nat.sub_self]
    rfl
  exact Nat.lt_irrefl _ (hf.own _ e hget he)

/-- A proposal on a leader is decided and leaves the leader ready for the next one. -/
theorem Ready.propose (h : Ready M i nodes) (hcheck : Node.checkProposal command = .ok ())
    (hstored : canonicalCommand command = .ok stored)
    (hlog : replayFrom [] (nodes i).log = .ok (rs, consumed))
    (hreplay : replayCommand consumed stored = .ok (r, consumed')) :
    ∃ nodes', Raft.propose (M.peers i) i nodes command = (Node.proposeAnswer (some r), nodes') ∧
      Ready M i nodes' ∧ (nodes' i).db.consumed = consumed' ∧
      replayFrom [] (nodes' i).log = .ok (rs ++ [r], consumed') := by
  have hi := h.leads.mem
  have hpeer : ∀ p ∈ M.peers i, p ≠ i := by
    rintro p hp rfl
    exact M.notMem_peers hi hp
  obtain ⟨n₁, happend, hl₁, hlog₁, hterm₁, hnext₁, hmatched₁⟩ := h.proposeAppend hcheck hstored
  have hrep : replayFrom [] n₁.log = .ok (rs ++ [r], consumed') := by
    rw [hlog₁, replayFrom_append hlog, replayFrom, hreplay]
    rfl
  -- the first round brings the command to every peer
  set nodes₁ := Function.update nodes i n₁ with hnodes₁
  have hi₁ : nodes₁ i = n₁ := Function.update_self ..
  have hp₁ : ∀ p ∈ M.peers i, nodes₁ p = nodes p := fun p hp ↦ Function.update_of_ne (hpeer p hp) ..
  obtain ⟨nodes₂, hround₁, h₂⟩ :=
    Leads.replicateAll (hi₁.symm ▸ hl₁) (M.nodup_peers hi) (M.notMem_peers hi) fun p hp ↦ by
      rw [hi₁, hp₁ p hp]
      exact (h.follows p hp).grow hterm₁ rfl hlog₁ hnext₁
  have hleader₂ : nodes₂ i = { n₁ with next := (nodes₂ i).next, matched := (nodes₂ i).matched } :=
    hi₁ ▸ h₂.leader
  have hl₂ : Leads M i (nodes₂ i) := hleader₂ ▸ hl₁.withPeers _ _
  have hlog₂ : (nodes₂ i).log = n₁.log := by rw [hleader₂]
  have hterm₂ : (nodes₂ i).term = n₁.term := by rw [hleader₂]
  have hkeys₂ : (nodes₂ i).matched.map Prod.fst = M.peers i := by
    rw [h₂.keys (by rw [hi₁, hmatched₁, h.matched]; exact fun _ ↦ id), hi₁, hmatched₁, h.matched]
  have hpeers₂ : ∀ p ∈ M.peers i, (nodes₂ p).log = n₁.log := fun p hp ↦
    (h₂.log_eq hp (h.follows p hp) (by rw [hp₁ p hp]) rfl (hi₁ ▸ hlog₁)).trans (by rw [hi₁])
  -- all nodes have acknowledged it
  have hcommits : (nodes₂ i).commits (nodes₂ i).log.length = true := by
    have hacks := h₂.acknowledgements hi (by rw [hi₁, hmatched₁, h.matched])
    rw [hi₁] at hacks
    rw [Node.commits, decide_eq_true_eq, hlog₂, hacks, hl₂.consistent.members]
    have hthree := M.three_le
    exact ⟨hl₂.role, by omega⟩
  rw [← hlog₂] at hrep
  have hcommit := hl₂.consistent.proposeCommit_eq_ok hcommits hrep
  have hsound₃ := (hl₂.sound.proposeCommit (nodes₂ i).log.length).sound
  rw [hcommit] at hsound₃
  set n₃ := (nodes₂ i).withLog (nodes₂ i).log (nodes₂ i).log.length (rs ++ [r]) consumed' with hn₃
  have hlog₃ : n₃.log = (nodes₂ i).log := Node.withLog_log
  have hl₃ : Leads M i n₃ :=
    ⟨hi, hl₂.consistent.withLog (Nat.le_refl _) (by rwa [List.take_length]), hsound₃, hl₂.role⟩
  -- the second round tells the peers
  set nodes₃ := Function.update nodes₂ i n₃ with hnodes₃
  have hi₃ : nodes₃ i = n₃ := Function.update_self ..
  have hp₃ : ∀ p ∈ M.peers i, nodes₃ p = nodes₂ p := fun p hp ↦
    Function.update_of_ne (hpeer p hp) ..
  have hsame₃ : ∀ p ∈ M.peers i, (nodes₃ p).log = (nodes₃ i).log := fun p hp ↦ by
    rw [hp₃ p hp, hpeers₂ p hp, hi₃, hlog₃, hlog₂]
  obtain ⟨nodes₄, hround₂, h₄⟩ :=
    Leads.replicateAll (hi₃.symm ▸ hl₃) (M.nodup_peers hi) (M.notMem_peers hi) fun p hp ↦ by
      refine .of_log_eq (hp₃ p hp ▸ h₂.sound p hp) ?_ (hsame₃ p hp) ?_
      · rw [hp₃ p hp, h₂.term p hp, hi₁, hi₃]
        exact hterm₂.symm
      · rw [hi₃, hlog₃, hlog₂]
        exact hi₁ ▸ h₂.next p hp
  have hleader₄ : nodes₄ i = { n₃ with next := (nodes₄ i).next, matched := (nodes₄ i).matched } :=
    hi₃ ▸ h₄.leader
  have hl₄ : Leads M i (nodes₄ i) := hleader₄ ▸ hl₃.withPeers _ _
  have hlog₄ : (nodes₄ i).log = (nodes₂ i).log := by
    rw [hleader₄]
    exact hlog₃
  have hterm₄ : (nodes₄ i).term = (nodes i).term := by
    rw [hleader₄]
    exact hterm₂.trans hterm₁
  have hkeys₃ : (nodes₃ i).matched.map Prod.fst = M.peers i := by rw [hi₃]; exact hkeys₂
  have hposition : n₁.db.lastIndex = (nodes₂ i).log.length := by
    rw [hl₁.consistent.lastIndex_eq, hlog₂]
  have hrow : (numberedFrom 1 (rs ++ [r])).get? (nodes₂ i).log.length = some r := by
    have hlen : (nodes₂ i).log.length = rs.length + 1 := by
      rw [← replayFrom_length hrep, List.length_append, List.length_singleton]
    rw [get?_numberedFrom, if_pos (by omega), hlen, Nat.add_sub_cancel,
      List.getElem?_append_right (Nat.le_refl _), Nat.sub_self, List.getElem?_cons_zero]
  refine ⟨nodes₄, ?_, ⟨hl₄, hterm₄ ▸ h.term_lt, ?_, ?_⟩, by rw [hleader₄]; rfl, hlog₄ ▸ hrep⟩
  · rw [Raft.propose, happend]
    dsimp only
    rw [← hnodes₁, hround₁]
    dsimp only
    rw [hposition, hcommit]
    dsimp only
    rw [← hnodes₃, hround₂, hrow]
  · intro p hp
    refine .of_log_eq (h₄.sound p hp) ?_ ?_ ?_
    · rw [h₄.term p hp, hi₃, hleader₄]
    · rcases h₄.log p hp with hcase | hcase
      · rw [hcase, hsame₃ p hp, hi₃, hlog₃, hlog₄]
      · rw [hcase, hi₃, hlog₃, hlog₄]
    · rw [hlog₄, ← hlog₃]
      exact hi₃ ▸ h₄.next p hp
  · rw [h₄.keys (by rw [hkeys₃]; exact fun _ ↦ id), hkeys₃]

end Proposal

end Leader

/-! ## The laws of the store -/

section Laws

variable {c : Consumption}

namespace ResearchStore

variable {store : ResearchStore}

theorem checkProposal_command (hc : c.Valid) : Node.checkProposal (store.command c) = .ok () := by
  have hscope : store.scope ≠ "" := by
    intro he
    have hlen := congrArg String.toList he
    simp [scope] at hlen
  rw [Node.checkProposal]
  have hop : Json.lookup (store.command c) "op" = some (.str "consume") := rfl
  have hs : Json.lookup (store.command c) "scope" = some (.str store.scope) := rfl
  rw [hop, hs]
  refine throw_if_eq_ok.mpr ⟨hscope, ?_⟩
  exact bind_eq_ok.mpr ⟨.str c.capabilityId, rfl, bind_eq_ok.mpr ⟨.str c.claimsDigest, rfl,
    bind_eq_ok.mpr ⟨.int c.expiresAt, rfl, bind_eq_ok.mpr ⟨.int c.consumedAt, rfl,
      bind_eq_ok.mpr ⟨c, hc.validateTransition_eq, rfl⟩⟩⟩⟩⟩

variable [Platform] {stored : Command}

theorem exists_canonicalCommand (hscope : IsCanonicalString store.scope) (hc : c.Valid)
    (hexp : c.expiresAt.natAbs ≤ maxSafeInteger) (hcon : c.consumedAt.natAbs ≤ maxSafeInteger) :
    ∃ stored, canonicalCommand (store.command c) = .ok stored := by
  have hkey : ∀ k ∈ ["op", "consume", "scope", "capability_id", "claims_digest", "expires_at",
      "consumed_at"], isAscii k = true ∧ k.toList.length ≤ maxCanonicalStringBytes := by
    decide +kernel
  have hkeys : ∀ k ∈ ["op", "consume", "scope", "capability_id", "claims_digest", "expires_at",
      "consumed_at"], IsCanonicalString k :=
    fun k hk ↦ isCanonicalString_of_isAscii (hkey k hk).1 (hkey k hk).2
  have hid := isCanonicalString_of_isCapabilityId hc.capabilityId
  have hdigest := isCanonicalString_of_isDigest hc.claimsDigest
  have hcanon : Canonicalizes 0 (.obj (store.command c)) := by
    simp [command, canonicalizes_obj, hkeys, hid, hdigest, hscope, hexp, hcon, maxCanonicalDepth,
      maxCanonicalItems]
  obtain ⟨v, hv⟩ := hcanon
  obtain ⟨-, -, fields, rfl, -, -⟩ := canonicalValue_obj_eq_ok.mp hv
  exact ⟨fields, canonicalCommand_eq_ok.mpr hv⟩

theorem consumption_stored (hc : c.Valid)
    (hstored : canonicalCommand (store.command c) = .ok stored) :
    Json.lookup stored "op" = some (.str "consume") ∧
      stored.consumption = .ok ((store.scope, c.capabilityId), (c.claimsDigest, c.expiresAt)) := by
  have hint : ∀ {k : String} {n : ℤ}, Json.lookup (store.command c) k = some (.int n) →
      Json.lookup stored k = some (.int n) := by
    intro k n hk
    obtain ⟨v, hv, hok⟩ := lookup_canonical_eq_some (canonicalCommand_eq_ok.mp hstored) hk
    rw [hv, eq_of_canonicalValue_int hok]
  have hrequire : ∀ {k : String} {v : Json}, Json.lookup stored k = some v →
      stored.require k = .ok v := by
    intro k v hk
    rw [Command.require, hk]
  refine ⟨lookup_stored_str hstored rfl, ?_⟩
  refine bind_eq_ok.mpr ⟨_, hrequire (lookup_stored_str hstored (k := "scope") rfl), ?_⟩
  refine bind_eq_ok.mpr ⟨_, hrequire (lookup_stored_str hstored (k := "capability_id") rfl), ?_⟩
  refine bind_eq_ok.mpr ⟨_, hrequire (lookup_stored_str hstored (k := "claims_digest") rfl), ?_⟩
  refine bind_eq_ok.mpr ⟨_, hrequire (hint (k := "expires_at") rfl), ?_⟩
  refine bind_eq_ok.mpr ⟨_, hrequire (hint (k := "consumed_at") rfl), ?_⟩
  exact bind_eq_ok.mpr ⟨c, hc.validateTransition_eq, rfl⟩

omit [Platform] in
theorem replayCommand_of_none {consumed : Table (String × String) (String × ℤ)}
    {key : String × String} {claim : String × ℤ}
    (hop : Json.lookup stored "op" = some (.str "consume"))
    (hstored : stored.consumption = .ok (key, claim)) (hnone : consumed.get? key = none) :
    replayCommand consumed stored = .ok (.fresh, consumed.insertNew key claim) := by
  have hget : (consumed.insertNew key claim).get? key = some claim := by
    rw [Table.get?_insertNew, if_pos rfl, hnone, Option.getD_none]
  rw [replayCommand, hop]
  refine bind_eq_ok.mpr ⟨_, hstored, ?_⟩
  dsimp only
  rw [if_neg (not_not.mpr hget), hnone, if_neg (by simp)]
  rfl

omit [Platform] in
theorem replayCommand_of_some {consumed : Table (String × String) (String × ℤ)}
    {key : String × String} {claim previous : String × ℤ}
    (hop : Json.lookup stored "op" = some (.str "consume"))
    (hstored : stored.consumption = .ok (key, claim)) (hsome : consumed.get? key = some previous) :
    replayCommand consumed stored =
      .ok (if previous = claim then .duplicate else .collision, consumed) := by
  have hkeep : consumed.insertNew key claim = consumed :=
    Table.get?_insertNew_of_isSome (by rw [hsome]; rfl)
  rw [replayCommand, hop]
  refine bind_eq_ok.mpr ⟨_, hstored, ?_⟩
  dsimp only
  rw [hkeep, hsome]
  by_cases hclaim : previous = claim
  · rw [if_neg (by simpa using hclaim), if_pos Option.isSome_some, if_pos hclaim]
    rfl
  · rw [if_pos (by simpa using hclaim), if_neg hclaim]
    rfl

variable {M : Membership} {nodes : NodeId → Node} {a : Arguments}
  {bindings' : String → Option (String × ℤ)}

variable (M store) in
/-- A leader that is ready for calls of the store: what its log says of the scope is in its table,
so that nothing of it is left to decide. -/
structure Serves (nodes : NodeId → Node) : Prop where
  ready : Ready M store.node nodes
  decided : ∀ rs consumed, replayFrom [] (nodes store.node).log = .ok (rs, consumed) →
    ∀ id, consumed.get? (store.scope, id) = store.bindings nodes id

/-- A leader is ready for the calls of a store whose scope is not in its log. -/
theorem Serves.of_unused (h : Ready M store.node nodes)
    (hunused : ∀ e ∈ (nodes store.node).log, ∀ id, ¬e.command.Consumes (store.scope, id)) :
    store.Serves M nodes ∧ store.bindings nodes = fun _ ↦ none := by
  have hnone : ∀ {l : List Entry} {rs : List Outcome}
      {consumed : Table (String × String) (String × ℤ)}, l ⊆ (nodes store.node).log →
      replayFrom [] l = .ok (rs, consumed) → ∀ id, consumed.get? (store.scope, id) = none := by
    intro l rs consumed hl hrep id
    rw [← Option.not_isSome_iff_eq_none, isSome_of_replayFrom hrep]
    rintro (hsome | ⟨e, he, hconsumes⟩)
    · cases hsome
    · exact hunused e (hl he) id hconsumes
  have hbindings : store.bindings nodes = fun _ ↦ none := funext fun id ↦
    hnone (List.take_subset _ _) h.leads.consistent.db.replayed id
  refine ⟨⟨h, fun rs consumed hrep id ↦ ?_⟩, hbindings⟩
  rw [hnone (List.Subset.refl _) hrep, hbindings]

/-- A well-formed call on a leader that is ready gives the decision on its command. -/
theorem consume_of_valid (hscope : IsCanonicalString store.scope) (h : store.Serves M nodes)
    (hsafe : a.Safe) (hvalid : a.validate = .ok c) {r : Outcome}
    (hreplay : ∀ {stored : Command} {consumed : Table (String × String) (String × ℤ)},
      Json.lookup stored "op" = some (.str "consume") →
      stored.consumption = .ok ((store.scope, c.capabilityId), (c.claimsDigest, c.expiresAt)) →
      (∀ id, consumed.get? (store.scope, id) = store.bindings nodes id) →
      ∃ consumed', replayCommand consumed stored = .ok (r, consumed') ∧
        ∀ id, consumed'.get? (store.scope, id) = bindings' id) :
    (store.consume M nodes a).1 = Node.proposeAnswer (some r) ∧
      store.Serves M (store.consume M nodes a).2 ∧
      store.bindings (store.consume M nodes a).2 = bindings' := by
  have hc := (Arguments.validate_eq_ok hvalid).1
  obtain ⟨hexp, hcon⟩ := hsafe.consumption hvalid
  obtain ⟨stored, hstored⟩ := exists_canonicalCommand hscope hc hexp hcon
  obtain ⟨hop, hconsumption⟩ := consumption_stored hc hstored
  obtain ⟨⟨rs, consumed⟩, hlog⟩ := exists_replayFrom
    (fun e he ↦ (h.ready.leads.sound.entries e he).kind) []
  obtain ⟨consumed', hreplayed, hbindings⟩ := hreplay hop hconsumption (h.decided rs consumed hlog)
  obtain ⟨nodes', hpropose, hready, hconsumed, hlog'⟩ :=
    h.ready.propose (checkProposal_command hc) hstored hlog hreplayed
  have hconsume : store.consume M nodes a = (Node.proposeAnswer (some r), nodes') := by
    rw [consume, hvalid]
    exact hpropose
  have htable : store.bindings nodes' = bindings' := by
    funext id
    rw [bindings, hconsumed, hbindings]
  rw [hconsume]
  refine ⟨rfl, ⟨hready, fun rs' consumed'' hrep id ↦ ?_⟩, htable⟩
  rw [hlog', Except.ok.injEq, Prod.mk.injEq] at hrep
  rw [← hrep.2, hbindings, htable]

/-- The store has the laws of consumption, on a leader that is ready. -/
theorem laws (M : Membership) (store : ResearchStore) (hscope : IsCanonicalString store.scope) :
    Replay.Laws (store.consume M) (store.Serves M) store.bindings where
  refused {nodes a e} h _ he := by
    have hcls := a.raisesOnly_validate e he
    have hconsume : store.consume M nodes a = (.error e, nodes) := by rw [consume, he]
    rw [hconsume]
    exact ⟨congrArg Except.error hcls, h, rfl⟩
  fresh {nodes a c} h hsafe hvalid hnone := by
    have hinsert : ∀ {consumed : Table (String × String) (String × ℤ)},
        (∀ id, consumed.get? (store.scope, id) = store.bindings nodes id) →
        ∀ id, (consumed.insertNew (store.scope, c.capabilityId)
            (c.claimsDigest, c.expiresAt)).get? (store.scope, id) =
          Function.update (store.bindings nodes) c.capabilityId
            (some (c.claimsDigest, c.expiresAt)) id := by
      intro consumed hsame id
      have hget := (hsame c.capabilityId).trans hnone
      rw [Table.get?_insertNew, Function.update_apply]
      by_cases hid : id = c.capabilityId
      · rw [if_pos (by rw [hid]), if_pos hid, hget, Option.getD_none]
      · rw [if_neg (fun he ↦ hid (Prod.mk.inj he).2), if_neg hid, hsame]
    obtain ⟨hanswer, hserves, hbindings⟩ := consume_of_valid hscope h hsafe hvalid
      fun hop hstored hsame ↦
        ⟨_, replayCommand_of_none hop hstored ((hsame _).trans hnone), hinsert hsame⟩
    exact ⟨by rw [hanswer]; rfl, hserves, hbindings⟩
  repeated {nodes a c} h hsafe hvalid hsome := by
    obtain ⟨hanswer, hserves, hbindings⟩ := consume_of_valid hscope h hsafe hvalid
      fun hop hstored hsame ↦
        ⟨_, replayCommand_of_some hop hstored ((hsame _).trans hsome), hsame⟩
    rw [if_pos rfl] at hanswer
    exact ⟨by rw [hanswer]; rfl, hserves, hbindings⟩
  collided {nodes a c claim} h hsafe hvalid hsome hne := by
    obtain ⟨hanswer, hserves, hbindings⟩ := consume_of_valid hscope h hsafe hvalid
      fun hop hstored hsame ↦
        ⟨_, replayCommand_of_some hop hstored ((hsame _).trans hsome), hsame⟩
    rw [if_neg hne] at hanswer
    exact ⟨by rw [hanswer]; rfl, hserves, hbindings⟩

end ResearchStore

end Laws

end EventHorizon.Raft
