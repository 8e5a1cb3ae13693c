import EventHorizon.Raft.Consumption
import EventHorizon.Raft.Indices

/-!
# What a proposal answers for

`propose` appends its command at a position of the leader's log, gives the lock back while it
replicates, and reads the decision back by the position alone. While the node stays the leader its
log is its own: nobody else writes to it, and `_proposal_lock` keeps other proposals away. So the
entry at the position is the one that was appended, as long as the leadership was not lost and won
again in between. `electsBetweenProposals` is the guard that no election is won on a node while a
proposal of its own waits for its commit section.
-/

namespace EventHorizon.Raft

section Proposals

variable [Platform] {M : Membership} {c c' : Cluster} {a : Action} {i : NodeId} {n n' : Node}
  {t position : ℕ} {command : Command} {row : Option Outcome}

/-- The guard of the last section of `elect`: no proposal of the node is between its append and its
commit section when the node takes the leader role. -/
def electsBetweenProposals (c : Cluster) (a : Action) : Prop :=
  ∀ id ∈ a.finish?, ∀ e ∈ c.elect? id,
    (c.node e.node).electWins e.votes = true → c.proposingUncommitted e.node = false

instance (c : Cluster) (a : Action) : Decidable (electsBetweenProposals c a) :=
  inferInstanceAs (Decidable (∀ id ∈ a.finish?, ∀ e ∈ c.elect? id,
    (c.node e.node).electWins e.votes = true → c.proposingUncommitted e.node = false))

/-! ## Entries and decisions -/

/-- The log has the command at a position, with the term in which it was appended. -/
def Node.Holds (n : Node) (t position : ℕ) (command : Command) : Prop :=
  ∃ stored, canonicalCommand command = .ok stored ∧ 0 < position ∧
    n.log[position - 1]? = some ⟨t, stored⟩

/-- The entry is committed with a decision. -/
structure Node.Decided (n : Node) (t position : ℕ) (command : Command) (row : Option Outcome) :
    Prop where
  holds : n.Holds t position command
  committed : position ≤ n.commitIndex
  decision : n.db.results[position - 1]? = row

/-- A section keeps a leader's log, or the node does not lead after it. -/
def Node.KeepsLog (n n' : Node) : Prop :=
  n'.role = .leader → n.role = .leader ∧ n'.log = n.log ∧ n'.commitIndex = n.commitIndex

theorem Node.Advances.results (h : n.Advances M i n') (hn : n.Consistent M.pinned M.members i) :
    n'.db.results.take n.commitIndex = n.db.results := by
  have htake : n'.log.take n'.commitIndex =
      n.log.take n.commitIndex ++ (n'.log.take n'.commitIndex).drop n.commitIndex := by
    nth_rewrite 1 [← List.take_append_drop n.commitIndex (n'.log.take n'.commitIndex)]
    rw [List.take_take, Nat.min_eq_left h.commit_le, h.committed]
  have hrep := h.consistent.replayed
  rw [htake] at hrep
  obtain ⟨k, hpre⟩ := replayFrom_of_append hrep
  rw [hn.replayed, Except.ok.injEq, Prod.mk.injEq, List.length_take,
    Nat.min_eq_left hn.commit_le] at hpre
  exact hpre.1.symm

/-- What is decided stays decided. -/
theorem Node.Decided.advances (h : n.Decided t position command row)
    (hn : n.Consistent M.pinned M.members i) (hadv : n.Advances M i n') :
    n'.Decided t position command row := by
  obtain ⟨stored, hstored, hpos, hlog⟩ := h.holds
  have hlt : position - 1 < n.commitIndex := by
    have := h.committed
    omega
  refine ⟨⟨stored, hstored, hpos, ?_⟩, Nat.le_trans h.committed hadv.commit_le, ?_⟩
  · have htake := congrArg (·[position - 1]?) hadv.committed
    simp only [List.getElem?_take, if_pos hlt] at htake
    rw [htake, hlog]
  · have hres := congrArg (·[position - 1]?) (hadv.results hn)
    simp only [List.getElem?_take, if_pos hlt] at hres
    rw [hres, h.decision]

namespace Node.Consistent

variable (h : n.Consistent M.pinned M.members i)
include h

theorem keepsLog_requestVote (t : ℤ) (candidate : NodeId) (li lt : ℤ) :
    n.KeepsLog (n.requestVote t candidate li lt).1 := by
  rcases h.requestVote_cases t candidate li lt with hr | ⟨-, -, r, x, hrole, ⟨-, -, hr⟩ | hr⟩ <;>
    rw [hr]
  · exact fun hl ↦ ⟨hl, rfl, rfl⟩
  all_goals
    intro (hl : r = .leader)
    rcases hrole with hrole | ⟨-, hrole⟩
    · rw [hrole] at hl
      cases hl
    · exact ⟨hrole ▸ hl, rfl, rfl⟩

theorem keepsLog_appendEntries (args : AppendArgs) : n.KeepsLog (n.appendEntries args).1 := by
  rcases h.appendEntries_cases args with hr |
    ⟨-, -, m, rfl, ⟨r, hr, -⟩ | ⟨prev, es, l', rs, k, -, -, -, -, -, -, -, hr⟩⟩ <;> rw [hr]
  · exact fun hl ↦ ⟨hl, rfl, rfl⟩
  · exact fun hl ↦ (nomatch hl)
  · exact fun hl ↦ (nomatch hl)

theorem keepsLog_electCount (electionTerm votes theirTerm : ℕ) (grant : Bool) :
    n.KeepsLog (n.electCount electionTerm votes theirTerm grant).1 := by
  rcases h.electCount_cases electionTerm votes theirTerm grant with
    ⟨-, hr⟩ | hr | ⟨-, -, -, hr⟩ <;> rw [hr]
  · exact fun hl ↦ (nomatch hl)
  · exact fun hl ↦ ⟨hl, rfl, rfl⟩
  · exact fun hl ↦ ⟨hl, rfl, rfl⟩

theorem keepsLog_replicateSettle (peer : NodeId) (m : Message) (r : AppendReply) :
    n.KeepsLog (n.replicateSettle peer m r).1 := by
  rcases h.replicateSettle_cases peer m r with ⟨-, hr⟩ | hr | ⟨-, -, -, hr⟩ | ⟨-, hr⟩ <;>
    rw [hr]
  · exact fun hl ↦ (nomatch hl)
  · exact fun hl ↦ ⟨hl, rfl, rfl⟩
  · exact fun hl ↦ ⟨hl, rfl, rfl⟩
  · exact fun hl ↦ ⟨hl, rfl, rfl⟩

theorem keepsLog_proposeCommit {x : Exn}
    (hforward : n.commits position = true → n.commitIndex ≤ position)
    (hn : n.proposeCommit position = (n', .error x)) : n.KeepsLog n' := by
  rcases h.proposeCommit_cases hforward with ⟨e, hr⟩ | ⟨e, hr⟩ | ⟨-, -, rs, k, -, hr⟩ <;>
    rw [hn] at hr <;> cases hr
  · exact fun hl ↦ ⟨hl, rfl, rfl⟩
  · exact fun hl ↦ (by cases hl)

end Node.Consistent

omit [Platform] in
theorem Node.keepsLog_restarted : n.KeepsLog n'.restarted := fun hl ↦ (nomatch hl)

/-! ## The invariant -/

/-- What the `propose` calls in progress and the values returned so far stand for. -/
structure Proposals (M : Membership) (c : Cluster) : Prop where
  consistent : c.Consistent M
  keys : (c.calls.map Prod.fst).Nodup
  /-- `_proposal_lock`. -/
  one : ∀ {id id' p p'}, (id, Call.propose p) ∈ c.calls → (id', Call.propose p') ∈ c.calls →
    p.node = p'.node → id = id'
  checked : ∀ {id p}, (id, Call.propose p) ∈ c.calls → Node.checkProposal p.command = .ok ()
  first : ∀ {id p}, (id, Call.propose p) ∈ c.calls → p.round = .first →
    (c.node p.node).role = .leader → (c.node p.node).Holds p.term p.position p.command ∧
      (c.node p.node).commitIndex < p.position
  second : ∀ {id p row}, (id, Call.propose p) ∈ c.calls → p.round = .second row →
    (c.node p.node).Decided p.term p.position p.command row
  returned : ∀ {i t position command}, .returned i t position command true ∈ c.trace →
    Node.checkProposal command = .ok () ∧ (c.node i).Decided t position command (some .fresh)

/-- The calls are at the same place but for their rounds of replication. -/
structure ProposeCall.Continues (p₀ p : ProposeCall) : Prop where
  node : p.node = p₀.node
  command : p.command = p₀.command
  term : p.term = p₀.term
  position : p.position = p₀.position

/-- Under the invariant the commit section commits forward. -/
theorem Proposals.commitsForward (h : Proposals M c) (a : Action) (hmove : Move M c a c') :
    commitsForward c a := by
  intro id hid p hp hcommits
  have hmem := Table.mem_of_get? (Cluster.propose?_eq_some.mp hp)
  rw [Node.commits, decide_eq_true_eq] at hcommits
  cases hround : p.round with
  | first => exact Nat.le_of_lt (h.first hmem hround hcommits.1).2
  | second row =>
    -- a call in its second round has no commit section left
    have hcall := Cluster.propose?_eq_some.mp hp
    cases hmove with
    | commit hcall' hround' =>
      cases hid
      rw [hcall, Option.some.injEq, Call.propose.injEq] at hcall'
      rw [hcall', hround'] at hround
      cases hround
    | commitFail hcall' hround' =>
      cases hid
      rw [hcall, Option.some.injEq, Call.propose.injEq] at hcall'
      rw [hcall', hround'] at hround
      cases hround
    | _ => cases hid

/-- A step that starts no proposal. -/
theorem Proposals.keep (h : Proposals M c)
    (hadv : ∀ j, (c.node j).Advances M j (c'.node j))
    (hkeys : (c'.calls.map Prod.fst).Nodup)
    (hcalls : ∀ {id p}, (id, Call.propose p) ∈ c'.calls → ∃ p₀, (id, Call.propose p₀) ∈ c.calls ∧
      p₀.Continues p ∧
      (p.round = p₀.round ∧ (p.round = .first → (c.node p.node).KeepsLog (c'.node p.node)) ∨
        ∃ row, p.round = .second row ∧
          (c'.node p.node).Decided p.term p.position p.command row))
    (htrace : ∀ {i t position command}, .returned i t position command true ∈ c'.trace →
      .returned i t position command true ∈ c.trace ∨ Node.checkProposal command = .ok () ∧
        (c.node i).Decided t position command (some .fresh)) : Proposals M c' where
  consistent j := (hadv j).consistent
  keys := hkeys
  one hm hm' hnode := by
    obtain ⟨p₀, hp₀, hcont, -⟩ := hcalls hm
    obtain ⟨p₁, hp₁, hcont', -⟩ := hcalls hm'
    exact h.one hp₀ hp₁ (by rw [← hcont.node, ← hcont'.node, hnode])
  checked hm := by
    obtain ⟨p₀, hp₀, hcont, -⟩ := hcalls hm
    rw [hcont.command]
    exact h.checked hp₀
  first {id p} hm hround hrole := by
    obtain ⟨p₀, hp₀, hcont, ⟨hsame, hkeep⟩ | ⟨row, hrow, -⟩⟩ := hcalls hm
    · obtain ⟨hlead, hlog, hcommit⟩ := hkeep hround hrole
      rw [hcont.node] at hlead
      obtain ⟨hholds, hlt⟩ := h.first hp₀ (hsame ▸ hround) hlead
      rw [Node.Holds, hlog, hcommit, hcont.node, hcont.term, hcont.position, hcont.command]
      exact ⟨hholds, hlt⟩
    · rw [hrow] at hround
      cases hround
  second {id p row} hm hround := by
    obtain ⟨p₀, hp₀, hcont, ⟨hsame, -⟩ | ⟨row', hrow, hdec⟩⟩ := hcalls hm
    · have hdec := h.second hp₀ (hsame ▸ hround)
      rw [← hcont.node, ← hcont.term, ← hcont.position, ← hcont.command] at hdec
      exact hdec.advances (h.consistent _) (hadv _)
    · rw [hrow, Round.second.injEq] at hround
      exact hround ▸ hdec
  returned hev := by
    rcases htrace hev with hev | ⟨hcheck, hdec⟩
    · obtain ⟨hcheck, hdec⟩ := h.returned hev
      exact ⟨hcheck, hdec.advances (h.consistent _) (hadv _)⟩
    · exact ⟨hcheck, hdec.advances (h.consistent _) (hadv _)⟩

/-- A step in which every node keeps its log and every proposal its round. -/
theorem Proposals.keepAll (h : Proposals M c) (hmove : Move M c a c')
    (hkeep : ∀ j, (c.node j).KeepsLog (c'.node j)) (hkeys : (c'.calls.map Prod.fst).Nodup)
    (hcalls : ∀ {id p}, (id, Call.propose p) ∈ c'.calls → ∃ p₀, (id, Call.propose p₀) ∈ c.calls ∧
      p₀.Continues p ∧ p.round = p₀.round)
    (htrace : ∀ {i t position command}, .returned i t position command true ∈ c'.trace →
      .returned i t position command true ∈ c.trace) : Proposals M c' := by
  refine h.keep (hmove.advances h.consistent (h.commitsForward a hmove)) hkeys (fun hm ↦ ?_)
    fun hev ↦ .inl (htrace hev)
  obtain ⟨p₀, hp₀, hcont, hround⟩ := hcalls hm
  exact ⟨p₀, hp₀, hcont, .inl ⟨hround, fun _ ↦ hkeep _⟩⟩

omit [Platform] in
theorem ProposeCall.Continues.refl (p : ProposeCall) : p.Continues p := ⟨rfl, rfl, rfl, rfl⟩

omit [Platform] in
theorem keepsLog_self (j : NodeId) : (c.node j).KeepsLog (c.node j) := fun hl ↦ ⟨hl, rfl, rfl⟩

omit [Platform] in
theorem keepsLog_setNode {c₀ : Cluster} (hnode : c₀.node = c.node) (hn : (c.node i).KeepsLog n)
    (j : NodeId) : (c.node j).KeepsLog ((c₀.setNode i n).node j) := by
  by_cases hj : j = i
  · subst hj
    rw [Cluster.setNode_node_self]
    exact hn
  · rw [Cluster.setNode_node_ne hj, hnode]
    exact keepsLog_self j

omit [Platform] in
theorem not_returned_grantEvents {voter candidate : NodeId} {result : Except Exn (ℕ × Bool)} :
    .returned i t position command true ∉ grantEvents voter candidate result := by
  rcases result with e | ⟨s, b⟩
  · simp [grantEvents]
  · cases b <;> simp [grantEvents]

/-- The calls are the same, every node keeps its log, and no other answers are given. -/
structure Cluster.Keeps (c d : Cluster) : Prop where
  calls : d.calls = c.calls
  logs : ∀ j, (c.node j).KeepsLog (d.node j)
  returned : ∀ {i t position command},
    .returned i t position command true ∈ d.trace → .returned i t position command true ∈ c.trace

omit [Platform] in
theorem Cluster.Keeps.refl (c : Cluster) : c.Keeps c := ⟨rfl, keepsLog_self, fun hev ↦ hev⟩

omit [Platform] in
theorem Cluster.Keeps.setNode (hn : (c.node i).KeepsLog n) : c.Keeps (c.setNode i n) :=
  ⟨rfl, keepsLog_setNode rfl hn, fun hev ↦ hev⟩

omit [Platform] in
theorem Cluster.Keeps.record {d : Cluster} (hd : c.Keeps d) {events : List Event}
    (hnone : ∀ {i t position command}, .returned i t position command true ∉ events) :
    c.Keeps (d.record events) :=
  ⟨hd.calls, hd.logs, fun hev ↦ hd.returned ((List.mem_append.mp hev).resolve_right hnone)⟩

/-! ## The kinds of moves -/

/-- An `elect` call starts or goes on. -/
theorem Proposals.setElect (h : Proposals M c) {d : Cluster} (hd : c.Keeps d) {id : ℕ}
    {e : ElectCall} (hmove : Move M c a (d.setCall id (.elect e))) :
    Proposals M (d.setCall id (.elect e)) := by
  refine h.keepAll hmove hd.logs ?_ (fun hm ↦ ?_) hd.returned
  · rw [Cluster.setCall_calls, hd.calls]
    exact Table.nodup_keys_put h.keys
  · rw [Cluster.setCall_calls, hd.calls] at hm
    rcases Table.mem_of_mem_put hm with hm | hm
    · cases hm
    · exact ⟨_, hm, .refl _, rfl⟩

/-- A `propose` call goes on with its rounds of replication. -/
theorem Proposals.setPropose (h : Proposals M c) {d : Cluster} (hd : c.Keeps d) {id : ℕ}
    {p p' : ProposeCall} (hcall : c.calls.get? id = some (.propose p)) (hcont : p.Continues p')
    (hround : p'.round = p.round) (hmove : Move M c a (d.setCall id (.propose p'))) :
    Proposals M (d.setCall id (.propose p')) := by
  refine h.keepAll hmove hd.logs ?_ (fun hm ↦ ?_) hd.returned
  · rw [Cluster.setCall_calls, hd.calls]
    exact Table.nodup_keys_put h.keys
  · rw [Cluster.setCall_calls, hd.calls] at hm
    rcases Table.mem_of_mem_put hm with hm | hm
    · cases hm
      exact ⟨p, Table.mem_of_get? hcall, hcont, hround⟩
    · exact ⟨_, hm, .refl _, rfl⟩

/-- A call ends. -/
theorem Proposals.endCall (h : Proposals M c) {d : Cluster} (hd : c.Keeps d) {id : ℕ}
    (hmove : Move M c a (d.endCall id)) : Proposals M (d.endCall id) := by
  refine h.keepAll hmove hd.logs ?_ (fun hm ↦ ?_) hd.returned
  · rw [Cluster.endCall, hd.calls]
    exact Table.nodup_keys_filter h.keys
  · have hm := Cluster.mem_endCall_calls hm
    rw [hd.calls] at hm
    exact ⟨_, hm, .refl _, rfl⟩

/-- The process of a node ends, after a step of a call that runs on another node. -/
theorem Proposals.restart (h : Proposals M c) {d : Cluster} (hnode : d.node = c.node)
    (htrace : d.trace = c.trace) (hkeys : (d.calls.map Prod.fst).Nodup)
    (hcalls : ∀ {id p}, (id, Call.propose p) ∈ d.calls → ∃ p₀, (id, Call.propose p₀) ∈ c.calls ∧
      p₀.Continues p ∧ p.round = p₀.round)
    (hmove : Move M c a ((d.endCallsOn i).setNode i n.restarted)) :
    Proposals M ((d.endCallsOn i).setNode i n.restarted) := by
  refine h.keepAll hmove (keepsLog_setNode hnode Node.keepsLog_restarted)
    (Table.nodup_keys_filter hkeys) (fun hm ↦ ?_) fun hev ↦ ?_
  · exact hcalls (Cluster.mem_endCallsOn_calls hm).1
  · exact htrace ▸ hev

/-- The last section of `elect`: the node that takes the role has no proposal in its first round. -/
theorem Proposals.finish (h : Proposals M c) {id : ℕ} {e : ElectCall}
    (hok : electsBetweenProposals c (.finish id)) (hcall : c.calls.get? id = some (.elect e))
    (hmove : Move M c (.finish id) ((c.setNode e.node
      ((c.node e.node).electFinish (M.peers e.node) e.votes)).endCall id)) :
    Proposals M ((c.setNode e.node
      ((c.node e.node).electFinish (M.peers e.node) e.votes)).endCall id) := by
  refine h.keep (hmove.advances h.consistent (h.commitsForward _ hmove))
    (Table.nodup_keys_filter h.keys) ?_ fun hev ↦ .inl hev
  intro id' p hm
  have hmem := Cluster.mem_endCall_calls hm
  refine ⟨p, hmem, .refl p, .inl ⟨rfl, fun hround ↦ ?_⟩⟩
  by_cases hwin : (c.node e.node).electWins e.votes = true
  · have hnone := hok id rfl e (Cluster.elect?_eq_some.mpr hcall) hwin
    rw [Cluster.proposingUncommitted, List.any_eq_false] at hnone
    have hnode : p.node ≠ e.node := fun heq ↦ hnone _ hmem (by simp [heq, hround])
    rw [Cluster.endCall_node, Cluster.setNode_node_ne hnode]
    exact keepsLog_self _
  · rw [Node.electFinish, if_neg hwin]
    exact keepsLog_setNode rfl (keepsLog_self _) _

/-- The last section of `propose` answers with the decision that was read. -/
theorem Proposals.answer (h : Proposals M c) {id : ℕ} {p : ProposeCall} {value : Bool}
    (hcall : c.calls.get? id = some (.propose p)) (hround : p.round = .second row)
    (hrow : Node.proposeAnswer row = .ok value) (hmove : Move M c (.answer id)
      ((c.record [.returned p.node p.term p.position p.command value]).endCall id)) :
    Proposals M ((c.record [.returned p.node p.term p.position p.command value]).endCall id) := by
  refine h.keep (hmove.advances h.consistent (h.commitsForward _ hmove))
    (Table.nodup_keys_filter h.keys) (fun hm ↦ ?_) fun hev ↦ ?_
  · exact ⟨_, Cluster.mem_endCall_calls hm, .refl _, .inl ⟨rfl, fun _ ↦ keepsLog_self _⟩⟩
  · rcases List.mem_append.mp hev with hev | hev
    · exact .inl hev
    · have hmem := Table.mem_of_get? hcall
      rw [List.mem_singleton, Event.returned.injEq] at hev
      obtain ⟨rfl, rfl, rfl, rfl, rfl⟩ := hev
      have hfresh : row = some .fresh := by
        rcases row with _ | (_ | _ | _ | _)
        all_goals first | rfl | cases hrow
      exact .inr ⟨h.checked hmem, hfresh ▸ h.second hmem hround⟩

/-- The first section of `propose` puts the entry at its position. -/
theorem Proposals.propose (h : Proposals M c) {id : ℕ} (hmove : Move M c (.propose id i command)
      ((c.setNode i n).setCall id (.propose (startedPropose M n i command))))
    (hid : c.calls.get? id = none) (hfree : c.proposing i = false)
    (hn : (c.node i).proposeAppend command = .ok n) :
    Proposals M ((c.setNode i n).setCall id (.propose (startedPropose M n i command))) := by
  have hci := h.consistent i
  obtain ⟨hcheck, hrole, stored, hstored, rfl⟩ := hci.proposeAppend_ok hn
  set n := (c.node i).withLog ((c.node i).log ++ [⟨(c.node i).term, stored⟩])
    (c.node i).commitIndex (c.node i).db.results (c.node i).db.consumed with hndef
  have hadv := hmove.advances h.consistent (h.commitsForward _ hmove)
  have hlast : n.db.lastIndex = (c.node i).log.length + 1 := by
    have hrows : n.db.raftLog = numberedFrom 1
        ((c.node i).log ++ [⟨(c.node i).term, stored⟩]) := rfl
    rw [Database.lastIndex_eq hrows, List.length_append, List.length_singleton]
  -- no other proposal runs on the node
  have hother : ∀ {id' p}, (id', Call.propose p) ∈ c.calls → p.node ≠ i := by
    intro id' p hm hp
    rw [Cluster.proposing, List.any_eq_false] at hfree
    exact hfree _ hm (by simpa using hp)
  have hcalls : ∀ {id' p}, (id', Call.propose p) ∈ ((c.setNode i n).setCall id
      (.propose (startedPropose M n i command))).calls →
      id' = id ∧ p = startedPropose M n i command ∨ (id', Call.propose p) ∈ c.calls := by
    intro id' p hm
    rcases Table.mem_of_mem_put hm with hm | hm
    · cases hm
      exact .inl ⟨rfl, rfl⟩
    · exact .inr hm
  refine ⟨fun j ↦ (hadv j).consistent, Table.nodup_keys_put h.keys, ?_, ?_, ?_, ?_, ?_⟩
  · intro id₁ id₂ p₁ p₂ hm₁ hm₂ hnode
    rcases hcalls hm₁ with ⟨rfl, rfl⟩ | hold₁ <;> rcases hcalls hm₂ with ⟨rfl, rfl⟩ | hold₂
    · rfl
    · exact absurd hnode.symm (hother hold₂)
    · exact absurd hnode (hother hold₁)
    · exact h.one hold₁ hold₂ hnode
  · intro id' p hm
    rcases hcalls hm with ⟨-, rfl⟩ | hm
    · exact hcheck
    · exact h.checked hm
  · intro id' p hm hround hlead
    rcases hcalls hm with ⟨-, rfl⟩ | hm
    · change ((c.setNode i n).node i).Holds n.term n.db.lastIndex command ∧
        ((c.setNode i n).node i).commitIndex < n.db.lastIndex
      rw [Cluster.setNode_node_self, hlast]
      refine ⟨⟨stored, hstored, Nat.succ_pos _, ?_⟩, Nat.lt_succ_of_le hci.commit_le⟩
      rw [Nat.add_sub_cancel, hndef, Node.log, Node.withLog_log]
      simp
    · rw [Cluster.setCall_node, Cluster.setNode_node_ne (hother hm)] at hlead ⊢
      exact h.first hm hround hlead
  · intro id' p row hm hround
    rcases hcalls hm with ⟨-, rfl⟩ | hm
    · cases hround
    · exact (h.second hm hround).advances (h.consistent _) (hadv _)
  · intro j t position command hev
    obtain ⟨hcheck, hdec⟩ := h.returned hev
    exact ⟨hcheck, hdec.advances (h.consistent _) (hadv _)⟩

/-- The commit section of `propose` decides the entry at its position. -/
theorem Proposals.commit (h : Proposals M c) {id : ℕ} {p : ProposeCall}
    (hmove : Move M c (.commit id) ((c.setNode p.node n).setCall id
      (.propose { p with round := .second row, pending := M.peers p.node })))
    (hcall : c.calls.get? id = some (.propose p)) (hround : p.round = .first)
    (hn : (c.node p.node).proposeCommit p.position = (n, .ok row)) :
    Proposals M ((c.setNode p.node n).setCall id
      (.propose { p with round := .second row, pending := M.peers p.node })) := by
  have hmem := Table.mem_of_get? hcall
  have hforward := h.commitsForward _ hmove
  refine h.keep (hmove.advances h.consistent hforward) (Table.nodup_keys_put h.keys) ?_
    fun hev ↦ .inl hev
  intro id' p' hm'
  rcases Table.mem_of_mem_put_of_nodup h.keys hm' with hm' | ⟨hm', hne⟩
  · cases hm'
    refine ⟨p, hmem, ⟨rfl, rfl, rfl, rfl⟩, .inr ⟨row, rfl, ?_⟩⟩
    change ((c.setNode p.node n).node p.node).Decided p.term p.position p.command row
    rw [Cluster.setNode_node_self]
    rcases (h.consistent p.node).proposeCommit_cases (commitsForward_of_call hforward hcall) with
      ⟨e, hr⟩ | ⟨e, hr⟩ | ⟨hcommits, hlen, rs, k, hrep, hr⟩
    · rw [hn] at hr
      cases hr
    · rw [hn] at hr
      cases hr
    · rw [hn, Prod.mk.injEq, Except.ok.injEq] at hr
      obtain ⟨rfl, rfl⟩ := hr
      rw [Node.commits, decide_eq_true_eq] at hcommits
      obtain ⟨⟨stored, hstored, hpos, hlog⟩, -⟩ := h.first hmem hround hcommits.1
      refine ⟨⟨stored, hstored, hpos, ?_⟩, Nat.le_refl _, ?_⟩
      · rw [Node.log, Node.withLog_log]
        exact hlog
      · rw [Node.withLog_results, get?_numberedFrom, if_pos (Nat.succ_le_of_lt hpos)]
  · refine ⟨p', hm', .refl p', .inl ⟨rfl, fun _ ↦ ?_⟩⟩
    have hnode : p'.node ≠ p.node := fun heq ↦ hne (h.one hm' hmem heq)
    rw [Cluster.setCall_node, Cluster.setNode_node_ne hnode]
    exact keepsLog_self _

theorem Move.proposals (h : Proposals M c) (hok : electsBetweenProposals c a)
    (hmove : Move M c a c') : Proposals M c' := by
  have hmove' := hmove
  -- a step belongs to an election, to a proposal or to no call, and most leave every log as it was
  cases hmove with
  | elect hi hid hn =>
    rw [(h.consistent _).electStart_eq, Except.ok.injEq] at hn
    subst hn
    exact h.setElect (.record (.setNode fun hl ↦ (by cases hl)) (by simp)) hmove'
  | electCrash hm ho =>
    rw [(h.consistent _).electStepDown_eq, Except.ok.injEq] at hm
    subst hm
    obtain rfl := ((h.consistent _).withVote _ _ _ _).reopens ho
    exact h.restart rfl rfl h.keys (fun hm ↦ ⟨_, hm, .refl _, rfl⟩) hmove'
  | askLost => exact h.setElect (.refl c) hmove'
  | askCrash hcall hp hr ho =>
    obtain ⟨m, -, rfl⟩ := (h.consistent _).reopens_requestVote ho
    -- the asked peer restarts, and the call that asked goes on without its answer
    refine h.restart rfl rfl (Table.nodup_keys_put h.keys) (fun hm ↦ ?_) hmove'
    rcases Table.mem_of_mem_put hm with hm | hm
    · cases hm
    · exact ⟨_, hm, .refl _, rfl⟩
  | @ask fate id e p rest n reply hcall hp hr hn =>
    have hkeep := (h.consistent p).keepsLog_requestVote e.electionTerm e.node e.lastIndex e.lastTerm
    rw [hn] at hkeep
    exact h.setElect (.record (.setNode hkeep) not_returned_grantEvents) hmove'
  | @count id e theirTerm votes grant n hcall hr hn =>
    have hkeep := (h.consistent e.node).keepsLog_electCount e.electionTerm e.votes theirTerm grant
    rw [hn] at hkeep
    exact h.setElect (.setNode hkeep) hmove'
  | @countLost id e theirTerm grant n hcall hr hn =>
    have hkeep := (h.consistent e.node).keepsLog_electCount e.electionTerm e.votes theirTerm grant
    rw [hn] at hkeep
    exact h.endCall (.setNode hkeep) hmove'
  | finish hcall => exact h.finish hok hcall hmove'
  | propose hi hid hfree hn => exact h.propose hmove' hid hfree hn
  | proposeRefused => exact h
  | enter hcall => exact h.setPropose (.refl c) hcall ⟨rfl, rfl, rfl, rfl⟩ rfl hmove'
  | sendDone hcall => exact h.setPropose (.refl c) hcall ⟨rfl, rfl, rfl, rfl⟩ rfl hmove'
  | send hcall => exact h.setPropose (.refl c) hcall ⟨rfl, rfl, rfl, rfl⟩ rfl hmove'
  | deliverLost hcall => exact h.setPropose (.refl c) hcall ⟨rfl, rfl, rfl, rfl⟩ rfl hmove'
  | sendFail => exact h.endCall (.refl c) hmove'
  | deliverCrash hcall hs ho =>
    obtain ⟨m, -, rfl⟩ := (h.consistent _).reopens_append ho
    refine h.restart rfl rfl (Table.nodup_keys_put h.keys) (fun hm ↦ ?_) hmove'
    rcases Table.mem_of_mem_put hm with hm | hm
    · cases hm
      exact ⟨_, Table.mem_of_get? hcall, ⟨rfl, rfl, rfl, rfl⟩, rfl⟩
    · exact ⟨_, hm, .refl _, rfl⟩
  | @deliver id p peer turns m n r hcall hs hn =>
    have hkeep := (h.consistent peer).keepsLog_appendEntries m.args
    rw [hn] at hkeep
    exact h.setPropose (.setNode hkeep) hcall ⟨rfl, rfl, rfl, rfl⟩ rfl hmove'
  | @deliverFail id p peer turns m n x hcall hs hn =>
    have hkeep := (h.consistent peer).keepsLog_appendEntries m.args
    rw [hn] at hkeep
    exact h.endCall (.setNode hkeep) hmove'
  | deliverReplyLost hcall =>
    exact h.setPropose (.setNode ((h.consistent _).keepsLog_appendEntries _)) hcall
      ⟨rfl, rfl, rfl, rfl⟩ rfl hmove'
  | @settle id p peer turns m r n again hcall hs hn =>
    have hkeep := (h.consistent p.node).keepsLog_replicateSettle peer m r
    rw [hn] at hkeep
    exact h.setPropose (.setNode hkeep) hcall ⟨rfl, rfl, rfl, rfl⟩ rfl hmove'
  | commit hcall hround hp hs hn => exact h.commit hmove' hcall hround hn
  | commitFail hcall hround hn =>
    -- the condition is on the section, whether it returns or raises
    have hforward := commitsForward_of_call (h.commitsForward _ hmove') hcall
    exact h.endCall (.setNode ((h.consistent _).keepsLog_proposeCommit hforward hn)) hmove'
  | answer hcall hround hrow => exact h.answer hcall hround hrow hmove'
  | answerFail => exact h.endCall (.refl c) hmove'
  | abandon => exact h.endCall (.refl c) hmove'
  | restart ho =>
    obtain rfl := (h.consistent _).reopens ho
    exact h.restart rfl rfl h.keys (fun hm ↦ ⟨_, hm, .refl _, rfl⟩) hmove'
  | @requestVote i t x li lt n reply hi hn =>
    have hkeep := (h.consistent i).keepsLog_requestVote t x li lt
    rw [hn] at hkeep
    have hd : c.Keeps ((c.setNode i n).record (grantEvents i x (.ok reply))) :=
      .record (.setNode hkeep) not_returned_grantEvents
    exact h.keepAll hmove' hd.logs h.keys (fun hm ↦ ⟨_, hm, .refl _, rfl⟩) hd.returned
  | appendEntries =>
    exact h.keepAll hmove' (keepsLog_setNode rfl ((h.consistent _).keepsLog_appendEntries _))
      h.keys (fun hm ↦ ⟨_, hm, .refl _, rfl⟩) fun hev ↦ hev

theorem Proposals.initial : Proposals M (Cluster.initial M) where
  consistent := Cluster.initial_consistent
  keys := List.nodup_nil
  one hm := (nomatch hm)
  checked hm := (nomatch hm)
  first hm := (nomatch hm)
  second hm := (nomatch hm)
  returned hev := (nomatch hev)

theorem proposals_of_reach (h : (machine M).Reach electsBetweenProposals c) : Proposals M c :=
  h.invariant Proposals.initial fun hc hok hstep ↦ (Cluster.step_move hstep).proposals hc hok

/-! ## Answers -/

/-- What a proposal that returned `True` stands for: the entry at its position is its command with
the term of the append, it is committed and decided `fresh`, and no entry before it consumes the
token. -/
structure Answered (n : Node) (t position : ℕ) (command : Command) : Prop where
  entry : ∃ stored, canonicalCommand command = .ok stored ∧
    n.db.raftLog.get? position = some ⟨t, stored⟩
  committed : position ≤ n.commitIndex
  fresh : n.db.replayResults.get? position = some .fresh
  first : ∃ key, command.key = some key ∧
    ∀ k < position, ∀ e, n.db.raftLog.get? k = some e → ¬e.command.Consumes key

/-- The entry of a proposal that was decided `fresh` is the first to consume its token. -/
theorem Node.Decided.first_consumption (h : n.Decided t position command (some .fresh))
    (hn : n.Consistent M.pinned M.members i) (hcheck : Node.checkProposal command = .ok ())
    {key : String × String} (hkey : command.key = some key) :
    ∃ stored, 0 < position ∧ n.log[position - 1]? = some ⟨t, stored⟩ ∧ stored.Consumes key ∧
      ∀ k < position - 1, ∀ e, n.log[k]? = some e → ¬e.command.Consumes key := by
  obtain ⟨stored, hstored, hpos, hlog⟩ := h.holds
  have hlt : position - 1 < n.commitIndex := by
    have := h.committed
    omega
  have hentry : (n.log.take n.commitIndex)[position - 1]? = some ⟨t, stored⟩ := by
    rw [List.getElem?_take, if_pos hlt, hlog]
  obtain ⟨key', hc, hfirst⟩ := first_of_fresh hn.replayed hentry h.decision
  have hkey' := key_of_consumes hcheck hstored hc
  rw [hkey, Option.some.injEq] at hkey'
  subst hkey'
  refine ⟨stored, hpos, hlog, hc, fun k hk e he ↦ hfirst e (List.mem_iff_getElem?.mpr ⟨k, ?_⟩)⟩
  rw [List.getElem?_take, if_pos hk, List.getElem?_take, if_pos (by omega), he]

theorem Node.Decided.answered (h : n.Decided t position command (some .fresh))
    (hn : n.Consistent M.pinned M.members i) (hcheck : Node.checkProposal command = .ok ()) :
    Answered n t position command := by
  obtain ⟨stored, hstored, hpos, hlog⟩ := h.holds
  obtain ⟨scope, token, hscope, htoken⟩ := key_of_checkProposal hcheck
  have hkey : command.key = some (scope, token) := by rw [Command.key, hscope, htoken]
  obtain ⟨-, -, -, -, hfirst⟩ := h.first_consumption hn hcheck hkey
  have hrow : ∀ k, n.db.raftLog.get? k = if 1 ≤ k then n.log[k - 1]? else none := by
    intro k
    rw [hn.db.rows, get?_numberedFrom]
  refine ⟨⟨stored, hstored, ?_⟩, h.committed, ?_, _, hkey, ?_⟩
  · rw [hrow, if_pos (Nat.succ_le_of_lt hpos), hlog]
  · rw [hn.db.resultRows, get?_numberedFrom, if_pos (Nat.succ_le_of_lt hpos), h.decision]
  · intro k hk e he
    rw [hrow] at he
    split at he
    case isFalse => cases he
    case isTrue hk₁ => exact hfirst (k - 1) (by omega) e he

end Proposals

/-- In every run in which no node wins an election in the middle of a proposal of its own, a
proposal that returned `True` answers for its own command. -/
theorem propose_answers_of_electsBetweenProposals [Platform] (M : Membership) {c : Cluster}
    (h : (machine M).Reach electsBetweenProposals c) {i : NodeId} {t position : ℕ}
    {command : Command} (hev : .returned i t position command true ∈ c.trace) :
    Answered (c.node i) t position command := by
  obtain ⟨hcheck, hdec⟩ := (proposals_of_reach h).returned hev
  exact hdec.answered ((proposals_of_reach h).consistent i) hcheck

/-- The first proposal of `b` in its term. -/
theorem propose_answers_of_first_proposal : ∃ c, (@machine pythonPlatform laboratory).Reach
    electsBetweenProposals c ∧
      .returned "b" 2 1 (consumeCommand "cap_00000000000000000000000b") true ∈ c.trace ∧
      @Answered pythonPlatform (c.node "b") 2 1
      (consumeCommand "cap_00000000000000000000000b") := by
  let := pythonPlatform
  have hrun : ((machine laboratory).runIf electsBetweenProposals (machine laboratory).init
      (overtaken.take 29)).map (fun c ↦ decide (.returned "b" 2 1
        (consumeCommand "cap_00000000000000000000000b") true ∈ c.trace)) = some true := by
    decide +kernel
  obtain ⟨c, hc, hev⟩ := Option.map_eq_some_iff.mp hrun
  have hreach : (machine laboratory).Reach electsBetweenProposals c := Machine.path_of_runIf hc
  have hev := of_decide_eq_true hev
  exact ⟨c, hreach, hev, propose_answers_of_electsBetweenProposals laboratory hreach hev⟩

/-- The proposal of `a` that was overtaken returns `True` for the entry of `b` at its position. -/
theorem propose_answers_fails_overtaken : ¬∀ {c : Cluster},
    (@machine pythonPlatform laboratory).Reach anyInterleaving c →
    ∀ {i : NodeId} {t position : ℕ} {command : Command},
      .returned i t position command true ∈ c.trace →
        @Answered pythonPlatform (c.node i) t position command := by
  let := pythonPlatform
  intro hall
  have hrun : ((machine laboratory).runIf anyInterleaving (machine laboratory).init
      (overtaken ++ replicated 2 ++ unreached 2 ++ [.answer 2])).map (fun c ↦
        (decide (.returned "a" 1 1 (consumeCommand "cap_00000000000000000000000a") true ∈ c.trace),
          ((c.node "a").db.raftLog.get? 1).map Entry.term)) = some (true, some 2) := by
    decide +kernel
  obtain ⟨c, hc, hfacts⟩ := Option.map_eq_some_iff.mp hrun
  rw [Prod.mk.injEq] at hfacts
  have hreach : (machine laboratory).Reach anyInterleaving c := Machine.path_of_runIf hc
  obtain ⟨stored, -, hentry⟩ := (hall hreach (of_decide_eq_true hfacts.1)).entry
  have hterm := hfacts.2
  rw [hentry] at hterm
  simp at hterm

end EventHorizon.Raft
