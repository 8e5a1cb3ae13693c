import EventHorizon.Raft.Ledger

/-!
# Agreement and one use

When each `elect` and `propose` call ends before the next one starts, an election is a single step
against the logs of its voters, and so is a commit against the logs of those who acknowledged it.
`Electing` and `Proposing` say what holds while a call is in progress, `Ledger` gives the history of
the leaders, and `LeaderHistory.Sound.committed_total` that committed prefixes agree; the replay of
equal prefixes makes equal decisions.

An answer `True` names a committed entry that was decided `fresh`. Two such answers for one token
are about the same entry of the same term, and a leader writes only one entry at a place of its
log, so they are one answer.
-/

namespace EventHorizon.Raft

open LeaderHistory (UpToDate lastTerm)

/-! ## Sequential runs -/

/-- The guard of sequential runs: a call starts when no other is in progress, and nodes are called
by nodes only. -/
def sequential (c : Cluster) : Action → Prop
  | .elect _ _ | .electCrash _ | .propose _ _ _ => c.calls = []
  | .requestVote _ _ _ _ _ | .appendEntries _ _ => False
  | _ => True

instance (c : Cluster) : (a : Action) → Decidable (sequential c a)
  | .elect _ _ | .electCrash _ | .propose _ _ _ => inferInstanceAs (Decidable (c.calls = []))
  | .requestVote _ _ _ _ _ | .appendEntries _ _ => isFalse id
  | .ask _ _ | .count _ | .finish _ | .enter _ | .send _ | .deliver _ _ | .settle _ | .commit _
  | .answer _ | .abandon _ | .restart _ => isTrue trivial


section Agreement

variable [Platform] {M : Membership} {c c' : Cluster} {a : Action} {i : NodeId} {n : Node} {id : ℕ}
  {e : ElectCall} {p : ProposeCall}

/-! ## What holds while a call is in progress -/

/-- An `elect` call whose node is as it was after the first section; those who granted their vote
have logs that its own is up to date with. -/
structure Electing (M : Membership) (c : Cluster) (e : ElectCall) : Prop where
  member : e.node ∈ M.members
  term : (c.node e.node).term = e.electionTerm
  role : (c.node e.node).role = .candidate
  lastIndex : e.lastIndex = (c.node e.node).log.length
  lastTerm : e.lastTerm = lastTerm Entry.term (c.node e.node).log
  pending : e.node ∉ e.pending
  upToDate : ∀ {v}, c.Granted v e.electionTerm e.node →
    UpToDate Entry.term (c.node e.node).log (c.node v).log

/-- The member has the log of the leader and has not passed its term. -/
def Cluster.Acknowledges (c : Cluster) (leader : NodeId) (v : NodeId) : Prop :=
  (c.node leader).log <+: (c.node v).log ∧ (c.node v).term ≤ (c.node leader).term

/-- Where a `propose` call stands in `_replicate`. -/
def Cluster.Replicating (M : Membership) (c : Cluster) (i : NodeId) : Stage → Prop
  | .idle => True
  | .sending peer _ => peer ∈ M.peers i
  | .inflight peer _ m => peer ∈ M.peers i ∧ (c.node i).replicateSend peer = .ok (some m)
  | .answered peer _ m r => peer ∈ M.peers i ∧ m.nextIndex ≤ (c.node i).log.length + 1 ∧
    (r.accepted = true → r.index = (c.node i).log.length ∧ c.Acknowledges i peer)

/-- A `propose` call. While its node leads, it leads in the term of the append, and until the commit
section the entry is the last of its log and whoever is recorded to have reached it has the log. -/
structure Proposing (M : Membership) (c : Cluster) (p : ProposeCall) : Prop where
  member : p.node ∈ M.members
  pending : p.pending ⊆ M.peers p.node
  term : (c.node p.node).role = .leader → (c.node p.node).term = p.term
  last : p.round = .first → (c.node p.node).role = .leader →
    p.position = (c.node p.node).log.length
  acknowledged : p.round = .first → (c.node p.node).role = .leader →
    ∀ r ∈ (c.node p.node).matched, p.position ≤ r.2 → c.Acknowledges p.node r.1
  stage : c.Replicating M p.node p.stage
  /-- The position has not been answered for in this term. -/
  unanswered : ∀ {i command}, .returned i p.term p.position command true ∉ c.trace

/-- At most one call is in progress. -/
inductive InProgress (M : Membership) (c : Cluster) : Table ℕ Call → Prop
  | none : InProgress M c []
  | elect {id : ℕ} {e : ElectCall} (h : Electing M c e) : InProgress M c [(id, .elect e)]
  | propose {id : ℕ} {p : ProposeCall} (h : Proposing M c p) : InProgress M c [(id, .propose p)]

/-- The term and position a returned `True` is about. -/
def Event.answer? : Event → Option (ℕ × ℕ)
  | .returned _ t position _ true => some (t, position)
  | _ => none

omit [Platform] in
theorem Event.answer?_eq_some {event : Event} {t position : ℕ} :
    event.answer? = some (t, position) ↔
      ∃ i command, event = .returned i t position command true := by
  constructor
  · intro h
    cases event with
    | granted => cases h
    | returned i t' position' command value =>
      cases value with
      | false => cases h
      | true =>
        cases h
        exact ⟨i, command, rfl⟩
  · rintro ⟨i, command, rfl⟩
    rfl

/-- The invariant of sequential runs. -/
structure Agreeing (M : Membership) (c : Cluster) : Prop where
  elections : Elections M c
  proposals : Proposals M c
  ledger : ∃ H, Ledger M H c
  calls : InProgress M c c.calls
  /-- Each position is answered for once in a term. -/
  answers : (c.trace.filterMap Event.answer?).Nodup

theorem InProgress.of_elect {t : Table ℕ Call} (h : InProgress M c t)
    (hcall : t.get? id = some (.elect e)) : t = [(id, .elect e)] ∧ Electing M c e := by
  cases h with
  | none => cases hcall
  | @elect id' e' h =>
    rw [Table.get?_cons] at hcall
    split at hcall
    case isTrue hid =>
      cases hcall
      exact ⟨by rw [hid], h⟩
    case isFalse => cases hcall
  | propose h =>
    rw [Table.get?_cons] at hcall
    split at hcall <;> cases hcall

theorem InProgress.of_propose {t : Table ℕ Call} (h : InProgress M c t)
    (hcall : t.get? id = some (.propose p)) : t = [(id, .propose p)] ∧ Proposing M c p := by
  cases h with
  | none => cases hcall
  | elect h =>
    rw [Table.get?_cons] at hcall
    split at hcall <;> cases hcall
  | @propose id' p' h =>
    rw [Table.get?_cons] at hcall
    split at hcall
    case isTrue hid =>
      cases hcall
      exact ⟨by rw [hid], h⟩
    case isFalse => cases hcall

theorem Agreeing.winsOwnTerm (h : Agreeing M c) (a : Action) : winsOwnTerm c a := by
  intro id _ e he _
  exact (h.calls.of_elect (Cluster.elect?_eq_some.mp he)).2.term

theorem Agreeing.electsBetweenProposals (h : Agreeing M c) (a : Action) :
    electsBetweenProposals c a := by
  intro id _ e he _
  have hcalls := (h.calls.of_elect (Cluster.elect?_eq_some.mp he)).1
  rw [Cluster.proposingUncommitted, hcalls]
  rfl

/-! ## Calls under a step -/

omit [Platform] in
theorem calls_setCall {x call : Call} (h : c.calls = [(id, x)]) :
    (c.setCall id call).calls = [(id, call)] := by
  rw [Cluster.setCall_calls, h, Table.put, if_pos rfl]

theorem InProgress.filter {t : Table ℕ Call} (h : InProgress M c t) (f : ℕ × Call → Bool) :
    InProgress M c (t.filter f) := by
  cases h with
  | none => exact .none
  | elect h =>
    rw [List.filter_singleton, Bool.cond_eq_ite]
    split
    · exact .elect h
    · exact .none
  | propose h =>
    rw [List.filter_singleton, Bool.cond_eq_ite]
    split
    · exact .propose h
    · exact .none

omit [Platform] in
theorem calls_endCall {x : Call} (h : c.calls = [(id, x)]) : (c.endCall id).calls = [] := by
  rw [Cluster.endCall, h]
  simp

omit [Platform] in
theorem calls_endCallsOn {x : Call} (h : c.calls = [(id, x)]) (hne : x.node ≠ i) :
    (c.endCallsOn i).calls = [(id, x)] := by
  rw [Cluster.endCallsOn, h]
  simp [hne]

theorem Electing.step (h : Electing M c e) {pending : List NodeId} {votes : ℕ}
    {reply : Option (ℕ × Bool)} (hpending : pending ⊆ e.pending) (hself : c'.node e.node =
    c.node e.node) (hlog : ∀ v, (c'.node v).log = (c.node v).log)
    (hgr : ∀ {v}, c'.Granted v e.electionTerm e.node → c.Granted v e.electionTerm e.node ∨
      UpToDate Entry.term (c.node e.node).log (c.node v).log) :
    Electing M c' { e with pending := pending, votes := votes, reply := reply } where
  member := h.member
  term := (congrArg Node.term hself).trans h.term
  role := (congrArg Node.role hself).trans h.role
  lastIndex := by
    rw [hself]
    exact h.lastIndex
  lastTerm := by
    rw [hself]
    exact h.lastTerm
  pending hm := h.pending (hpending hm)
  upToDate {v} hg := by
    rw [hself, hlog]
    rcases hgr hg with hg | hup
    · exact h.upToDate hg
    · exact hup

theorem Proposing.step (h : Proposing M c p) {pending : List NodeId} {stage : Stage}
    (hpending : pending ⊆ M.peers p.node) (hself : c'.node p.node = c.node p.node)
    (hack : ∀ {v}, c.Acknowledges p.node v → c'.Acknowledges p.node v)
    (hstage : c'.Replicating M p.node stage) (htrace : c'.trace = c.trace) :
    Proposing M c' { p with pending := pending, stage := stage } where
  member := h.member
  pending := hpending
  term := by
    rw [hself]
    exact h.term
  last := by
    rw [hself]
    exact h.last
  acknowledged := by
    rw [hself]
    exact fun hround hrole r hr hle ↦ hack (h.acknowledged hround hrole r hr hle)
  stage := hstage
  unanswered := by
    rw [htrace]
    exact h.unanswered

omit [Platform] in
theorem Cluster.Acknowledges.setNode {c₀ : Cluster} {v w : NodeId} (hnode : c₀.node = c.node)
    (hne : i ≠ w) (h : c.Acknowledges i v)
    (hw : c.Acknowledges i w → (c.node i).log <+: n.log ∧ n.term ≤ (c.node i).term) :
    (c₀.setNode w n).Acknowledges i v := by
  rw [Acknowledges, Cluster.setNode_node_ne hne, hnode]
  by_cases hv : v = w
  · subst hv
    rw [Cluster.setNode_node_self]
    exact hw h
  · rw [Cluster.setNode_node_ne hv, hnode]
    exact h

/-! ## Elections -/

theorem Node.Consistent.upToDate (h : n.Consistent M.pinned M.members i) {l : List Entry}
    (hup : n.upToDate l.length (lastTerm Entry.term l) = true) : UpToDate Entry.term l n.log := by
  have hlast : n.db.lastTerm = lastTerm Entry.term n.log := Database.lastTerm_eq h.db.rows
  rw [Node.upToDate, decide_eq_true_eq, h.lastIndex_eq, hlast, Int.ofNat_lt, Int.ofNat_inj,
    Int.ofNat_le] at hup
  exact hup

/-- A recorded vote was granted after the voter compared the logs. -/
theorem Node.Consistent.grantEvents_requestVote (h : n.Consistent M.pinned M.members i) {n' : Node}
    {t li lt : ℤ} {x v y : NodeId} {s : ℕ} {reply : ℕ × Bool}
    (hn : n.requestVote t x li lt = (n', .ok reply))
    (hg : .granted v s y ∈ grantEvents i x (.ok reply)) :
    v = i ∧ s = t.toNat ∧ y = x ∧ n.upToDate li lt = true := by
  rcases h.requestVote_cases t x li lt with hr | ⟨-, -, r, l, -, ⟨hup, -, hr⟩ | hr⟩ <;>
    rw [hr] at hn <;> cases hn
  · cases hg
  · rw [grantEvents, List.mem_singleton] at hg
    cases hg
    exact ⟨rfl, rfl, rfl, hup⟩
  · cases hg

omit [Platform] in
theorem filterMap_grantEvents {voter candidate : NodeId} {result : Except Exn (ℕ × Bool)} :
    (grantEvents voter candidate result).filterMap Event.answer? = [] := by
  rcases result with x | ⟨s, b⟩
  · rfl
  · cases b <;> rfl

theorem Agreeing.startElect (h : Agreeing M c) (hi : i ∈ M.members) (hcalls : c.calls = [])
    (hn : (c.node i).electStart = .ok n) {c' : Cluster}
    (hc' : c' = ((c.setNode i n).record [.granted i n.term i]).setCall id
      (.elect (startedElect M n i))) :
    (∃ H, Ledger M H c') ∧ InProgress M c' c'.calls := by
  obtain ⟨H, hled⟩ := h.ledger
  have hci := h.proposals.consistent i
  rw [hci.electStart_eq, Except.ok.injEq] at hn
  have hterm : n.term = (c.node i).term + 1 := by rw [← hn]; rfl
  have hlog : n.log = (c.node i).log := by rw [← hn]; rfl
  have hrole : n.role = .candidate := by rw [← hn]; rfl
  have hcn : n.Consistent M.pinned M.members i := hn ▸ hci.withVote _ _ _ _
  have hself : c'.node i = n := by
    rw [hc']
    exact Cluster.setNode_node_self
  have hgr : ∀ {v t x}, c'.Granted v t x → c.Granted v t x ∨ v = i ∧ t = n.term ∧ x = i := by
    intro v t x hg
    rw [hc', Cluster.Granted, Cluster.setCall_trace, Cluster.record_trace, List.mem_append,
      List.mem_singleton, Event.granted.injEq] at hg
    exact hg
  refine ⟨⟨H, ?_⟩, ?_⟩
  · refine hled.benign ?_ ?_ ?_
    · rw [hc']
      refine benign_setNode rfl ?_
      rw [← hn]
      exact ⟨rfl, rfl, Nat.le_succ _, fun hl ↦ (by cases hl), fun _ ↦ .inr (Nat.lt_succ_self _)⟩
    · intro v t x hg
      rw [hc']
      exact List.mem_append_left _ hg
    · intro v t x hg
      rcases hgr hg with hg | ⟨-, rfl, rfl⟩
      · exact .inl hg
      · rw [hself]
        exact .inr (Nat.le_refl _)
  · have hcalls' : c'.calls = [(id, .elect (startedElect M n i))] := by
      rw [hc', Cluster.setCall_calls, Cluster.record_calls, Cluster.setNode_calls, hcalls]
      rfl
    rw [hcalls']
    have hlastTerm : n.db.lastTerm = lastTerm Entry.term n.log := Database.lastTerm_eq hcn.db.rows
    refine .elect ⟨hi, ?_, ?_, ?_, ?_, ?_, ?_⟩
    · exact congrArg Node.term hself
    · exact (congrArg Node.role hself).trans hrole
    · change n.db.lastIndex = (c'.node i).log.length
      rw [hself, hcn.lastIndex_eq]
    · change n.db.lastTerm = lastTerm Entry.term (c'.node i).log
      rw [hself, hlastTerm]
    · exact fun hm ↦ (M.nodup.mem_erase_iff.mp ((M.peers_perm i hi).subset hm)).1 rfl
    · intro v hg
      rcases hgr hg with hg | ⟨rfl, -, -⟩
      · -- nobody voted for the node in a term it had not reached
        have hle := hled.candidate hg
        change n.term ≤ (c.node i).term at hle
        omega
      · exact .inr ⟨rfl, Nat.le_refl _⟩

theorem Agreeing.ask (h : Agreeing M c) {fate : Fate} {peer : NodeId} {rest : List NodeId}
    {reply : ℕ × Bool} (hcall : c.calls.get? id = some (.elect e)) (hp : e.pending = peer :: rest)
    (hn : (c.node peer).requestVote e.electionTerm e.node e.lastIndex e.lastTerm = (n, .ok reply))
    {c' : Cluster}
    (hc' : c' = ((c.setNode peer n).record (grantEvents peer e.node (.ok reply))).setCall
      id (.elect { e with
        pending := rest
        reply := if fate = .delivered then some reply else none })) :
    (∃ H, Ledger M H c') ∧ InProgress M c' c'.calls := by
  obtain ⟨H, hled⟩ := h.ledger
  obtain ⟨hcalls, he⟩ := h.calls.of_elect hcall
  have hne : e.node ≠ peer := fun heq ↦ he.pending (by rw [hp, heq]; exact List.mem_cons_self)
  have hcp := h.proposals.consistent peer
  have hbenign := hcp.benign_requestVote (M := M) e.electionTerm e.node e.lastIndex e.lastTerm
  rw [hn] at hbenign
  have hnodes : ∀ j, (c.node j).Benign M j (c'.node j) := by
    rw [hc']
    exact benign_setNode rfl hbenign
  have hself : c'.node e.node = c.node e.node := by
    rw [hc']
    exact Cluster.setNode_node_ne hne
  have hgr : ∀ {v t x}, c'.Granted v t x → c.Granted v t x ∨ v = peer ∧ t = e.electionTerm ∧
      x = e.node ∧ (c.node peer).upToDate e.lastIndex e.lastTerm = true := by
    intro v t x hg
    rw [hc', Cluster.Granted, Cluster.setCall_trace, Cluster.record_trace, List.mem_append] at hg
    exact hg.imp_right fun hg ↦ hcp.grantEvents_requestVote hn hg
  refine ⟨⟨H, hled.benign hnodes ?_ ?_⟩, ?_⟩
  · intro v t x hg
    rw [hc']
    exact List.mem_append_left _ hg
  · intro v t x hg
    rcases hgr hg with hg | ⟨-, rfl, rfl, -⟩
    · exact .inl hg
    · rw [hself, he.term]
      exact .inr (Nat.le_refl _)
  · have hcalls' : c'.calls = [(id, .elect { e with
        pending := rest
        reply := if fate = .delivered then some reply else none })] := by
      rw [hc']
      exact calls_setCall hcalls
    rw [hcalls']
    refine .elect (he.step (by rw [hp]; exact List.subset_cons_self _ _) hself
      (fun v ↦ (hnodes v).log) ?_)
    intro v hg
    rcases hgr hg with hg | ⟨rfl, -, -, hup⟩
    · exact .inl hg
    · rw [he.lastIndex, he.lastTerm] at hup
      exact .inr (hcp.upToDate hup)

theorem Agreeing.finish (h : Agreeing M c) (hcall : c.calls.get? id = some (.elect e))
    (hr : e.reply = none) :
    ∃ H, Ledger M H (c.setNode e.node ((c.node e.node).electFinish (M.peers e.node) e.votes)) := by
  obtain ⟨H, hled⟩ := h.ledger
  obtain ⟨-, he⟩ := h.calls.of_elect hcall
  rw [Node.electFinish]
  by_cases hwin : (c.node e.node).electWins e.votes = true
  · rw [if_pos hwin]
    rw [Node.electWins, (h.proposals.consistent e.node).members, Bool.not_eq_true',
      decide_eq_false_iff_not, Nat.not_le] at hwin
    have hmaj := (h.elections.counted (Table.mem_of_get? hcall)).majority hr hwin
    refine hled.elect h.elections hmaj he.upToDate he.term he.role rfl rfl rfl rfl ⟨?_, ?_, ?_⟩
    · rw [List.map_map]
      exact List.map_id _
    · intro r hr
      obtain ⟨p, -, rfl⟩ := List.mem_map.mp hr
      exact Nat.zero_le _
    · intro p hp
      refine ⟨(c.node e.node).log.length, Nat.le_refl _, ?_⟩
      change Table.get? (Table.graph (M.peers e.node) fun _ ↦ _) p = _
      rw [Table.get?_graph, if_pos hp, (h.proposals.consistent e.node).lastIndex_eq]
  · rw [if_neg hwin]
    exact ⟨H, hled.benign (benign_setNode rfl (.refl _)) (fun hg ↦ hg) fun hg ↦ .inl hg⟩

/-! ## Proposals -/

theorem Membership.ne_of_mem_peers (hi : i ∈ M.members) {peer : NodeId} (h : peer ∈ M.peers i) :
    i ≠ peer :=
  (M.nodup.mem_erase_iff.mp ((M.peers_perm i hi).subset h)).1.symm

/-- Nobody has answered yet for a place after the log of a leader. -/
theorem Agreeing.unanswered (h : Agreeing M c) (hrole : (c.node i).role = .leader) {j : NodeId}
    {position : ℕ} {command : Command} (hpos : (c.node i).log.length < position) :
    .returned j (c.node i).term position command true ∉ c.trace := by
  intro hev
  obtain ⟨H, hled⟩ := h.ledger
  obtain ⟨-, hlog, -⟩ := hled.leader hrole
  obtain ⟨stored, -, hzero, he⟩ := (h.proposals.returned hev).2.holds
  -- the entry is in the log of the leader of its term
  obtain ⟨-, hpre⟩ := hled.sound.sourced j he
  have hlen := hpre.length_le
  have hlt := (List.getElem?_eq_some_iff.mp he).1
  have hsrc : H.log (c.node i).term = (c.node i).log := hlog
  dsimp only at hlen
  rw [hsrc, List.length_take] at hlen
  omega

theorem Agreeing.startPropose (h : Agreeing M c) (hi : i ∈ M.members) (hcalls : c.calls = [])
    {command : Command} (hn : (c.node i).proposeAppend command = .ok n) {c' : Cluster}
    (hc' : c' = (c.setNode i n).setCall id (.propose (startedPropose M n i command))) :
    (∃ H, Ledger M H c') ∧ InProgress M c' c'.calls := by
  obtain ⟨H, hled⟩ := h.ledger
  have hci := h.proposals.consistent i
  obtain ⟨-, hrole, stored, hstored, hn⟩ := hci.proposeAppend_ok hn
  have hlog : n.log = (c.node i).log ++ [⟨(c.node i).term, stored⟩] := by
    rw [hn]
    exact Node.withLog_log
  have hlast : n.db.lastIndex = (c.node i).log.length + 1 := by
    have hrows : n.db.raftLog = numberedFrom 1 ((c.node i).log ++ [⟨(c.node i).term, stored⟩]) := by
      rw [hn]
      rfl
    rw [Database.lastIndex_eq hrows, List.length_append, List.length_singleton]
  have hself : c'.node i = n := by
    rw [hc']
    exact Cluster.setNode_node_self
  have hmatched : n.matched = (c.node i).matched := by rw [hn]; rfl
  have hterm : n.term = (c.node i).term := by rw [hn]; rfl
  refine ⟨?_, ?_⟩
  · obtain ⟨H', hled'⟩ := hled.append (n := n) h.elections hrole rfl
      (canonicalCommand_idem hstored) hlog hterm (by rw [hn]; rfl) hci.commit_le
      (by rw [hn]; exact hrole) hmatched (by rw [hn]; rfl)
    rw [hc']
    exact ⟨H', hled'.congr rfl rfl⟩
  · have hcalls' : c'.calls = [(id, .propose (startedPropose M n i command))] := by
      rw [hc', Cluster.setCall_calls, Cluster.setNode_calls, hcalls]
      rfl
    rw [hcalls']
    refine .propose ⟨hi, List.Subset.refl _, fun _ ↦ congrArg Node.term hself, fun _ _ ↦ ?_,
      fun _ _ r hr hle ↦ ?_, trivial, ?_⟩
    · change n.db.lastIndex = (c'.node i).log.length
      rw [hself, hlast, hlog, List.length_append, List.length_singleton]
    · -- no peer is recorded to have reached the new entry
      change n.db.lastIndex ≤ r.2 at hle
      change r ∈ (c'.node i).matched at hr
      rw [hself, hmatched] at hr
      have hrow := (hled.leader hrole).2.2.le r hr
      omega
    · intro j command
      change .returned j n.term n.db.lastIndex command true ∉ c'.trace
      rw [hc', hterm, hlast]
      exact h.unanswered hrole (Nat.lt_succ_self _)

/-- The section of the peer that takes a message of the leader. -/
theorem Agreeing.followed (h : Agreeing M c) {peer : NodeId} {turns : ℕ} {m : Node.Message}
    {reply : Except Exn AppendReply} (hcall : c.calls.get? id = some (.propose p))
    (hs : p.stage = .inflight peer turns m)
    (hn : (c.node peer).appendEntries m.args = (n, reply)) :
    (∃ H, Ledger M H (c.setNode peer n)) ∧ p.node ≠ peer ∧
      Followed (c.node p.node).log (c.node p.node).term (c.node peer) n reply := by
  obtain ⟨H, hled⟩ := h.ledger
  obtain ⟨-, hp⟩ := h.calls.of_propose hcall
  have hstage := hp.stage
  rw [hs] at hstage
  obtain ⟨hled', hfollowed⟩ := hled.appendEntries h.proposals.consistent hstage.2
  rw [hn] at hled' hfollowed
  exact ⟨⟨H, hled'⟩, M.ne_of_mem_peers hp.member hstage.1, hfollowed⟩

theorem Proposing.followed (h : Proposing M c p) {peer : NodeId} {stage : Stage}
    {reply : Except Exn AppendReply} (hne : p.node ≠ peer)
    (hf : Followed (c.node p.node).log (c.node p.node).term (c.node peer) n reply)
    (hstage : (c.setNode peer n).Replicating M p.node stage) :
    Proposing M (c.setNode peer n) { p with stage := stage } :=
  h.step h.pending (Cluster.setNode_node_ne hne)
    (fun hack ↦ hack.setNode rfl hne fun hpeer ↦ hf.keeps hpeer.1 hpeer.2) hstage rfl

theorem Proposing.own (h : Proposing M c p) {stage : Stage}
    (hkeep : n.role = .leader → (c.node p.node).role = .leader ∧ n.term = (c.node p.node).term ∧
      n.log = (c.node p.node).log ∧
      ∀ r ∈ n.matched, r ∈ (c.node p.node).matched ∨ c.Acknowledges p.node r.1)
    (hstage : (c.setNode p.node n).Replicating M p.node stage) :
    Proposing M (c.setNode p.node n) { p with stage := stage } where
  member := h.member
  pending := h.pending
  term := by
    rw [Cluster.setNode_node_self]
    intro hrole
    rw [(hkeep hrole).2.1]
    exact h.term (hkeep hrole).1
  last := by
    rw [Cluster.setNode_node_self]
    intro hround hrole
    rw [(hkeep hrole).2.2.1]
    exact h.last hround (hkeep hrole).1
  acknowledged := by
    rw [Cluster.setNode_node_self]
    intro hround hrole r hr hle
    obtain ⟨hlead, hterm, hlog, hrows⟩ := hkeep hrole
    have hack : c.Acknowledges p.node r.1 :=
      (hrows r hr).elim (fun hold ↦ h.acknowledged hround hlead r hold hle) fun hack ↦ hack
    rw [Cluster.Acknowledges, Cluster.setNode_node_self, hterm, hlog]
    by_cases hv : r.1 = p.node
    · rw [hv, Cluster.setNode_node_self, hterm, hlog]
      exact ⟨List.prefix_rfl, Nat.le_refl _⟩
    · rw [Cluster.setNode_node_ne hv]
      exact hack
  stage := hstage
  unanswered := h.unanswered

theorem Node.Consistent.benign_replicateSettle (h : n.Consistent M.pinned M.members i)
    {peer : NodeId} {m : Node.Message} {r : AppendReply} (hpeer : peer ∈ M.peers i)
    (hm : m.nextIndex ≤ n.log.length + 1) (hr : r.accepted = true → r.index ≤ n.log.length) :
    n.Benign M i (n.replicateSettle peer m r).1 := by
  have hput : ∀ {k : ℕ}, k ≤ n.log.length → n.Tables M i → ∀ p ∈ M.peers i,
      ∃ k' ≤ n.log.length, (n.next.put peer (k + 1)).get? p = some (k' + 1) := by
    intro k hk htables p hp
    by_cases heq : p = peer
    · exact ⟨k, hk, heq ▸ Table.get?_put_self⟩
    · rw [Table.get?_put_ne heq]
      exact htables.next p hp
  rcases h.replicateSettle_cases peer m r with
    ⟨hlt, hn⟩ | hn | ⟨hrole, -, hacc, hn⟩ | ⟨hone, hn⟩ <;> rw [hn]
  · exact Node.benign_follower (Nat.le_of_lt hlt) _ none
  · exact .refl n
  · refine ⟨rfl, rfl, Nat.le_refl _, fun _ ↦ ⟨hrole, rfl, fun htables ↦ ⟨?_, ?_, ?_⟩⟩,
      fun hc ↦ .inl ⟨hc, rfl⟩⟩
    · rw [Table.keys_put_of_mem (htables.keys ▸ hpeer)]
      exact htables.keys
    · intro row hrow
      rcases Table.mem_of_mem_put hrow with rfl | hrow
      · exact hr hacc
      · exact htables.le row hrow
    · exact hput (hr hacc) htables
  · refine ⟨rfl, rfl, Nat.le_refl _, fun hl ↦ ⟨hl, rfl, fun htables ↦
      ⟨htables.keys, htables.le, ?_⟩⟩, fun hc ↦ .inl ⟨hc, rfl⟩⟩
    obtain ⟨k, hk⟩ : ∃ k, m.nextIndex = k + 2 := ⟨m.nextIndex - 2, by omega⟩
    rw [show m.nextIndex - 1 = k + 1 by omega]
    exact hput (by omega) htables

theorem Agreeing.settle (h : Agreeing M c) {peer : NodeId} {turns : ℕ} {m : Node.Message}
    {r : AppendReply} {again : Bool} (hcall : c.calls.get? id = some (.propose p))
    (hs : p.stage = .answered peer turns m r)
    (hn : (c.node p.node).replicateSettle peer m r = (n, .ok again)) :
    (∃ H, Ledger M H (c.setNode p.node n)) ∧ Proposing M (c.setNode p.node n)
      { p with stage := if again then .sending peer turns else .idle } := by
  obtain ⟨H, hled⟩ := h.ledger
  obtain ⟨-, hp⟩ := h.calls.of_propose hcall
  have hci := h.proposals.consistent p.node
  have hstage := hp.stage
  rw [hs] at hstage
  obtain ⟨hpeer, hm, hacc⟩ := hstage
  have hbenign := hci.benign_replicateSettle hpeer hm fun hr ↦ Nat.le_of_eq (hacc hr).1
  rw [hn] at hbenign
  refine ⟨⟨H, hled.benign (benign_setNode rfl hbenign) (fun hg ↦ hg) fun hg ↦ .inl hg⟩, ?_⟩
  refine hp.own (fun hrole ↦ ?_) ?_
  · refine ⟨(hbenign.leader hrole).1, (hbenign.leader hrole).2.1, hbenign.log, ?_⟩
    rcases hci.replicateSettle_cases peer m r with ⟨-, hr⟩ | hr | ⟨-, -, haccepted, hr⟩ |
      ⟨-, hr⟩ <;>
      rw [hr] at hn <;> cases hn
    · exact fun row hrow ↦ .inl hrow
    · exact fun row hrow ↦ .inl hrow
    · intro row hrow
      rcases Table.mem_of_mem_put hrow with rfl | hrow
      · exact .inr (hacc haccepted).2
      · exact .inl hrow
    · exact fun row hrow ↦ .inl hrow
  · split
    · exact hpeer
    · trivial

/-- A commit is acknowledged by a majority that has the log of the leader. -/
theorem Agreeing.majority (h : Agreeing M c) (hcall : c.calls.get? id = some (.propose p))
    (hround : p.round = .first) (hcommits : (c.node p.node).commits p.position = true) :
    HasMajority M.members.toFinset fun v ↦ c.Acknowledges p.node v := by
  obtain ⟨H, hled⟩ := h.ledger
  obtain ⟨-, hp⟩ := h.calls.of_propose hcall
  rw [Node.commits, decide_eq_true_eq, (h.proposals.consistent p.node).members] at hcommits
  obtain ⟨hrole, hacks⟩ := hcommits
  obtain ⟨-, -, htables⟩ := hled.leader hrole
  set rows := (c.node p.node).matched.filter fun r ↦ p.position ≤ r.2 with hrows
  have hsub : (rows.map Prod.fst).Sublist (M.peers p.node) :=
    htables.keys ▸ List.filter_sublist.map Prod.fst
  have hperm := M.peers_perm p.node hp.member
  have hnodup : (p.node :: rows.map Prod.fst).Nodup := by
    refine List.nodup_cons.mpr ⟨fun hm ↦ M.ne_of_mem_peers hp.member (hsub.subset hm) rfl, ?_⟩
    exact (hperm.nodup_iff.mpr (M.nodup.erase _)).sublist hsub
  refine ⟨(p.node :: rows.map Prod.fst).toFinset, ⟨?_, ?_⟩, ?_⟩
  · intro v hv
    rw [List.mem_toFinset, List.mem_cons] at hv
    rw [List.mem_toFinset]
    rcases hv with rfl | hv
    · exact hp.member
    · exact List.mem_of_mem_erase (hperm.subset (hsub.subset hv))
  · rw [List.toFinset_card_of_nodup hnodup, List.toFinset_card_of_nodup M.nodup, List.length_cons,
      List.length_map, hrows, ← List.countP_eq_length_filter]
    rw [Node.acknowledgements] at hacks
    omega
  · intro v hv
    rw [List.mem_toFinset, List.mem_cons, List.mem_map] at hv
    rcases hv with rfl | ⟨r, hr, rfl⟩
    · exact ⟨List.prefix_rfl, Nat.le_refl _⟩
    · rw [hrows, List.mem_filter, decide_eq_true_eq] at hr
      exact hp.acknowledged hround hrole r hr.1 hr.2

/-- The commit section of `propose`. -/
theorem Agreeing.commit (h : Agreeing M c) (hcall : c.calls.get? id = some (.propose p))
    (hround : p.round = .first) {reply : Except Exn (Option Outcome)}
    (hn : (c.node p.node).proposeCommit p.position = (n, reply)) :
    (∃ H, Ledger M H (c.setNode p.node n)) ∧
      (n.role = .leader → (c.node p.node).role = .leader ∧ n.term = (c.node p.node).term) := by
  obtain ⟨H, hled⟩ := h.ledger
  obtain ⟨-, hp⟩ := h.calls.of_propose hcall
  have hci := h.proposals.consistent p.node
  have hfirst := h.proposals.first (Table.mem_of_get? hcall) hround
  have hforward : (c.node p.node).commits p.position = true →
      (c.node p.node).commitIndex ≤ p.position := by
    intro hcommits
    rw [Node.commits, decide_eq_true_eq] at hcommits
    exact Nat.le_of_lt (hfirst hcommits.1).2
  have hkeep : ∀ {m : Node}, (c.node p.node).Benign M p.node m →
      (∃ H, Ledger M H (c.setNode p.node m)) ∧
        (m.role = .leader → (c.node p.node).role = .leader ∧ m.term = (c.node p.node).term) :=
    fun hb ↦ ⟨⟨H, hled.benign (benign_setNode rfl hb) (fun hg ↦ hg) fun hg ↦ .inl hg⟩,
      fun hl ↦ ⟨(hb.leader hl).1, (hb.leader hl).2.1⟩⟩
  rcases hci.proposeCommit_cases hforward with ⟨x, hr⟩ | ⟨x, hr⟩ | ⟨hcommits, hle, rs, k, -, hr⟩ <;>
    rw [hr] at hn <;> cases hn
  · exact hkeep (.refl _)
  · exact hkeep (Node.benign_follower (Nat.le_refl _) _ none)
  · have hmaj := h.majority hcall hround hcommits
    rw [Node.commits, decide_eq_true_eq] at hcommits
    have hrole := hcommits.1
    obtain ⟨stored, -, hpos, hentry⟩ := (hfirst hrole).1
    refine ⟨?_, fun _ ↦ ⟨hrole, rfl⟩⟩
    refine hled.commit hrole hpos ⟨_, hentry, (hp.term hrole).symm⟩ (hmaj.imp fun v hv ↦ ⟨?_, hv.2⟩)
      Node.withLog_log rfl rfl hrole rfl rfl
    rw [hp.last hround hrole, List.take_length]
    exact hv.1

/-! ## Runs -/

omit [Platform] in
theorem Cluster.Acknowledges.congr {v : NodeId} (h : c.Acknowledges i v)
    (hnode : c'.node = c.node) :
    c'.Acknowledges i v := by
  rw [Acknowledges, hnode]
  exact h

theorem Cluster.Replicating.step {stage : Stage} (h : c.Replicating M i stage)
    (hself : c'.node i = c.node i)
    (hack : ∀ {v}, c.Acknowledges i v → c'.Acknowledges i v) : c'.Replicating M i stage := by
  cases stage with
  | idle => trivial
  | sending => exact h
  | inflight => exact ⟨h.1, by rw [hself]; exact h.2⟩
  | answered =>
    obtain ⟨hpeer, hm, hacc⟩ := h
    rw [Replicating, hself]
    exact ⟨hpeer, hm, fun hr ↦ ⟨(hacc hr).1, hack (hacc hr).2⟩⟩

theorem Proposing.congr (h : Proposing M c p) (hnode : c'.node = c.node)
    (htrace : c'.trace = c.trace) : Proposing M c' p := by
  have hself : c'.node p.node = c.node p.node := by rw [hnode]
  have hack : ∀ {v}, c.Acknowledges p.node v → c'.Acknowledges p.node v := fun h ↦ h.congr hnode
  exact h.step h.pending hself hack (h.stage.step hself hack) htrace

theorem InProgress.congr {t : Table ℕ Call} (h : InProgress M c t) (hnode : c'.node = c.node)
    (htrace : c'.trace = c.trace) : InProgress M c' t := by
  cases h with
  | none => exact .none
  | @elect id e h =>
    refine .elect (h.step (List.Subset.refl _) ?_ (fun v ↦ ?_) fun hg ↦ ?_)
    · rw [hnode]
    · rw [hnode]
    · rw [Cluster.Granted, htrace] at hg
      exact .inl hg
  | propose h => exact .propose (h.congr hnode htrace)

/-- A call that runs on another node survives a restart. -/
theorem InProgress.restart {t : Table ℕ Call} (h : InProgress M c t) (i : NodeId)
    (hnode : c'.node = (c.setNode i (c.node i).restarted).node) (htrace : c'.trace = c.trace) :
    InProgress M c' (t.filter fun r ↦ r.2.node ≠ i) := by
  have hother : ∀ {j}, j ≠ i → c'.node j = c.node j := fun hj ↦ by
    rw [hnode, Cluster.setNode_node_ne hj]
  cases h with
  | none => exact .none
  | @elect id e h =>
    rw [List.filter_singleton, Bool.cond_eq_ite]
    split
    case isFalse => exact .none
    case isTrue hne =>
      refine .elect (h.step (List.Subset.refl _) (hother (of_decide_eq_true hne)) ?_ ?_)
      · intro v
        by_cases hv : v = i
        · rw [hnode, hv, Cluster.setNode_node_self]
          rfl
        · rw [hother hv]
      · intro v hg
        rw [Cluster.Granted, htrace] at hg
        exact .inl hg
  | @propose id p h =>
    rw [List.filter_singleton, Bool.cond_eq_ite]
    split
    case isFalse => exact .none
    case isTrue hne =>
      have hne : p.node ≠ i := of_decide_eq_true hne
      have hack : ∀ {v}, c.Acknowledges p.node v → c'.Acknowledges p.node v := fun hack ↦
        (hack.setNode (n := (c.node i).restarted) rfl hne fun hi ↦ hi).congr hnode
      exact .propose (h.step h.pending (hother hne) hack (h.stage.step (hother hne) hack) htrace)

theorem Agreeing.next (h : Agreeing M c) (hmove : Move M c a c')
    (hstep : (∃ H, Ledger M H c') ∧ InProgress M c' c'.calls)
    (htrace : c'.trace.filterMap Event.answer? = c.trace.filterMap Event.answer?) :
    Agreeing M c' :=
  ⟨hmove.elections h.elections (h.winsOwnTerm a),
    hmove.proposals h.proposals (h.electsBetweenProposals a), hstep.1, hstep.2,
    htrace ▸ h.answers⟩

theorem exists_ledger_congr (h : ∃ H, Ledger M H c) (hnode : c'.node = c.node)
    (htrace : c'.trace = c.trace) : ∃ H, Ledger M H c' := by
  obtain ⟨H, hled⟩ := h
  exact ⟨H, hled.congr hnode htrace⟩

theorem Agreeing.ledger_setNode (h : Agreeing M c) (hn : (c.node i).Benign M i n)
    (hnode : c'.node = (c.setNode i n).node) (htrace : c'.trace = c.trace) :
    ∃ H, Ledger M H c' := by
  obtain ⟨H, hled⟩ := h.ledger
  exact ⟨H, (hled.benign (benign_setNode rfl hn) (fun hg ↦ hg) fun hg ↦ .inl hg).congr hnode htrace⟩

/-! ## The kinds of moves -/

/-- The call in progress goes on. -/
theorem Agreeing.setCall (h : Agreeing M c) {d : Cluster} {x call : Call}
    (hmove : Move M c a (d.setCall id call)) (hled : ∃ H, Ledger M H d)
    (hcalls : d.calls = [(id, x)]) (hcall : InProgress M d [(id, call)])
    (htrace : d.trace = c.trace) : Agreeing M (d.setCall id call) := by
  refine h.next hmove ⟨exists_ledger_congr hled rfl rfl, ?_⟩ ?_
  · rw [calls_setCall hcalls]
    exact hcall.congr rfl rfl
  · rw [Cluster.setCall_trace, htrace]

/-- The call in progress ends. -/
theorem Agreeing.endCall (h : Agreeing M c) {d : Cluster} {x : Call}
    (hmove : Move M c a (d.endCall id)) (hled : ∃ H, Ledger M H d)
    (hcalls : d.calls = [(id, x)]) (htrace : d.trace = c.trace) : Agreeing M (d.endCall id) := by
  refine h.next hmove ⟨exists_ledger_congr hled rfl rfl, ?_⟩ ?_
  · rw [calls_endCall hcalls]
    exact .none
  · rw [Cluster.endCall_trace, htrace]

/-- A node that starts an election ends in the middle of it. -/
theorem Agreeing.electCrash (h : Agreeing M c) (hcalls : c.calls = []) {m : Node}
    (hm : (c.node i).electStepDown = .ok m) (ho : Reopens M c i m.db c')
    (hmove : Move M c (.electCrash i) c') : Agreeing M c' := by
  have hci := h.proposals.consistent i
  rw [hci.electStepDown_eq, Except.ok.injEq] at hm
  subst hm
  obtain rfl := (hci.withVote _ _ _ _).reopens ho
  refine h.next hmove ⟨h.ledger_setNode
    (Node.benign_follower (Nat.le_succ _) _ none).restarted rfl rfl, ?_⟩ rfl
  rw [Cluster.setNode_calls, Cluster.endCallsOn, hcalls]
  exact .none

/-- A peer that is asked for its vote ends in the middle of it. -/
theorem Agreeing.askCrash (h : Agreeing M c) {peer : NodeId} {rest : List NodeId}
    (hcall : c.calls.get? id = some (.elect e)) (hp : e.pending = peer :: rest)
    (ho : Reopens M (c.setCall id (.elect { e with pending := rest })) peer
      (Cluster.requestVoteCrash (c.node peer) e.electionTerm e.node) c')
    (hmove : Move M c a c') : Agreeing M c' := by
  obtain ⟨hcalls, he⟩ := h.calls.of_elect hcall
  obtain ⟨m, hm, rfl⟩ := (h.proposals.consistent peer).reopens_requestVote ho
  have hne : e.node ≠ peer := fun heq ↦ he.pending (by rw [hp, heq]; exact List.mem_cons_self)
  have hbenign := Node.benign_mayAdopt (M := M) (i := peer) hm
  refine h.next hmove ⟨h.ledger_setNode hbenign rfl rfl, ?_⟩ rfl
  have hkept : (Call.elect { e with pending := rest }).node ≠ peer := hne
  rw [Cluster.setNode_calls, calls_endCallsOn (calls_setCall hcalls) hkept]
  refine .elect (he.step (by rw [hp]; exact List.subset_cons_self _ _)
    (Cluster.setNode_node_ne hne) (fun v ↦ ?_) fun hg ↦ .inl hg)
  exact (benign_setNode (c := c) rfl hbenign v).log

/-- A reply to a request for a vote is counted. -/
theorem Agreeing.count (h : Agreeing M c) {theirTerm votes : ℕ} {grant : Bool}
    (hcall : c.calls.get? id = some (.elect e))
    (hn : (c.node e.node).electCount e.electionTerm e.votes theirTerm grant =
      (n, .ok (.counting votes)))
    (hmove : Move M c a
      ((c.setNode e.node n).setCall id (.elect { e with votes := votes, reply := none }))) :
    Agreeing M
      ((c.setNode e.node n).setCall id (.elect { e with votes := votes, reply := none })) := by
  obtain ⟨hcalls, he⟩ := h.calls.of_elect hcall
  have hself : n = c.node e.node := by
    rcases (h.proposals.consistent e.node).electCount_cases e.electionTerm e.votes theirTerm grant
      with ⟨-, hr⟩ | hr | ⟨-, -, -, hr⟩ <;> rw [hr] at hn <;> cases hn
    rfl
  subst hself
  refine h.setCall hmove (h.ledger_setNode (.refl _) rfl rfl) hcalls (.elect ?_) rfl
  refine he.step (List.Subset.refl _) Cluster.setNode_node_self (fun v ↦ ?_) fun hg ↦ .inl hg
  exact (benign_setNode (M := M) (c := c) rfl (.refl _) v).log

/-- A peer ends in the middle of taking a message of the leader. -/
theorem Agreeing.deliverCrash (h : Agreeing M c) {peer : NodeId} {turns : ℕ} {m : Node.Message}
    (hcall : c.calls.get? id = some (.propose p)) (hs : p.stage = .inflight peer turns m)
    (ho : Reopens M (c.setCall id (.propose { p with stage := .idle })) peer
      (Cluster.appendCrash (c.node peer) m.args) c')
    (hmove : Move M c a c') : Agreeing M c' := by
  obtain ⟨hcalls, hprop⟩ := h.calls.of_propose hcall
  obtain ⟨f, hf, rfl⟩ := (h.proposals.consistent peer).reopens_append ho
  have hstage := hprop.stage
  rw [hs] at hstage
  have hne := M.ne_of_mem_peers hprop.member hstage.1
  have hterm := ((h.proposals.consistent p.node).replicateSend_ok hstage.2).2.1
  refine h.next hmove ⟨h.ledger_setNode (Node.benign_mayAdopt hf) rfl rfl, ?_⟩ rfl
  have hkept : (Call.propose { p with stage := .idle }).node ≠ peer := hne
  rw [Cluster.setNode_calls, calls_endCallsOn (calls_setCall hcalls) hkept]
  refine .propose (hprop.step hprop.pending (Cluster.setNode_node_ne hne) (fun hack ↦ ?_) trivial
    rfl)
  refine hack.setNode rfl hne fun hpeer ↦ ?_
  rcases hf with rfl | ⟨-, r, x, rfl⟩
  · exact hpeer
  · refine ⟨hpeer.1, ?_⟩
    change m.args.term.toNat ≤ (c.node p.node).term
    rw [hterm, Int.toNat_natCast]

/-- A peer takes a message of the leader and replies. -/
theorem Agreeing.deliver (h : Agreeing M c) {peer : NodeId} {turns : ℕ} {m : Node.Message}
    {r : AppendReply} (hcall : c.calls.get? id = some (.propose p))
    (hs : p.stage = .inflight peer turns m)
    (hn : (c.node peer).appendEntries m.args = (n, .ok r)) :
    (∃ H, Ledger M H (c.setNode peer n)) ∧
      Proposing M (c.setNode peer n) { p with stage := .answered peer turns m r } := by
  obtain ⟨-, hprop⟩ := h.calls.of_propose hcall
  obtain ⟨hled, hne, hf⟩ := h.followed hcall hs hn
  have hpeer := hprop.stage
  rw [hs] at hpeer
  refine ⟨hled, hprop.followed hne hf ?_⟩
  obtain ⟨-, -, -, -, k, hk, hnext, -⟩ := (h.proposals.consistent p.node).replicateSend_ok hpeer.2
  rw [Cluster.Replicating, Cluster.setNode_node_ne hne]
  refine ⟨hpeer.1, by omega, fun hr ↦ ?_⟩
  obtain ⟨hindex, hpre, hterm⟩ := hf.accepted r rfl hr
  rw [Cluster.Acknowledges, Cluster.setNode_node_ne hne, Cluster.setNode_node_self]
  exact ⟨hindex, hpre, Nat.le_of_eq hterm⟩

/-- After its commit section a proposal goes on with another round. -/
theorem Proposing.second (h : Proposing M c p) {row : Option Outcome}
    (hkeep : n.role = .leader → (c.node p.node).role = .leader ∧ n.term = (c.node p.node).term)
    (hs : p.stage = .idle) : Proposing M (c.setNode p.node n)
      { p with round := .second row, pending := M.peers p.node } where
  member := h.member
  pending := List.Subset.refl _
  term := by
    rw [Cluster.setNode_node_self]
    intro hrole
    rw [(hkeep hrole).2]
    exact h.term (hkeep hrole).1
  last := by
    intro hround
    cases hround
  acknowledged := by
    intro hround
    cases hround
  stage := by
    rw [hs]
    trivial
  unanswered := h.unanswered

/-- A proposal answers for a position that nobody has answered for in its term. -/
theorem Agreeing.answer (h : Agreeing M c) {value : Bool}
    (hcall : c.calls.get? id = some (.propose p)) (hmove : Move M c a
      ((c.record [.returned p.node p.term p.position p.command value]).endCall id)) :
    Agreeing M ((c.record [.returned p.node p.term p.position p.command value]).endCall id) := by
  obtain ⟨hcalls, hprop⟩ := h.calls.of_propose hcall
  obtain ⟨H, hled⟩ := h.ledger
  refine ⟨hmove.elections h.elections (h.winsOwnTerm a),
    hmove.proposals h.proposals (h.electsBetweenProposals a), ⟨H, ?_⟩, ?_, ?_⟩
  · refine hled.benign (fun j ↦ .refl _) (fun hg ↦ List.mem_append_left _ hg) fun hg ↦ ?_
    rcases List.mem_append.mp hg with hg | hg
    · exact .inl hg
    · cases List.mem_singleton.mp hg
  · rw [calls_endCall (c := c.record _) hcalls]
    exact .none
  · rw [Cluster.endCall_trace, Cluster.record_trace, List.filterMap_append]
    refine List.nodup_append.mpr ⟨h.answers, ?_, ?_⟩
    · cases value with
      | false => exact List.nodup_nil
      | true => exact List.nodup_singleton _
    · rintro x hx y hy rfl
      obtain ⟨ev, hev, hx⟩ := List.mem_filterMap.mp hx
      obtain ⟨ev', hev', hy⟩ := List.mem_filterMap.mp hy
      obtain ⟨t, position⟩ := x
      obtain ⟨j, command, rfl⟩ := Event.answer?_eq_some.mp hx
      obtain ⟨j', command', rfl⟩ := Event.answer?_eq_some.mp hy
      cases List.mem_singleton.mp hev'
      exact hprop.unanswered hev

theorem Move.agreeing (h : Agreeing M c) (hok : sequential c a) (hmove : Move M c a c') :
    Agreeing M c' := by
  have hmove' := hmove
  -- a log changes only under `propose` and `append_entries`; the calls that run are kept one by one
  cases hmove with
  | elect hi hid hn =>
    refine h.next hmove' (h.startElect hi hok hn rfl) ?_
    rw [Cluster.setCall_trace, Cluster.record_trace, List.filterMap_append]
    exact List.append_nil _
  | electCrash hm ho => exact h.electCrash hok hm ho hmove'
  | askLost hcall hp hr =>
    obtain ⟨hcalls, he⟩ := h.calls.of_elect hcall
    refine h.setCall hmove' h.ledger hcalls (.elect ?_) rfl
    exact he.step (by rw [hp]; exact List.subset_cons_self _ _) rfl (fun _ ↦ rfl) fun hg ↦ .inl hg
  | askCrash hcall hp hr ho => exact h.askCrash hcall hp ho hmove'
  | ask fate hcall hp hr hn =>
    refine h.next hmove' (h.ask hcall hp hn rfl) ?_
    rw [Cluster.setCall_trace, Cluster.record_trace, List.filterMap_append, filterMap_grantEvents]
    exact List.append_nil _
  | count hcall hr hn => exact h.count hcall hn hmove'
  | @countLost id e theirTerm grant n hcall hr hn =>
    have hbenign := (h.proposals.consistent e.node).benign_electCount (M := M) e.electionTerm
      e.votes theirTerm grant
    rw [hn] at hbenign
    exact h.endCall hmove' (h.ledger_setNode hbenign rfl rfl) (h.calls.of_elect hcall).1 rfl
  | finish hcall hp hr =>
    exact h.endCall hmove' (h.finish hcall hr) (h.calls.of_elect hcall).1 rfl
  | propose hi hid hfree hn => exact h.next hmove' (h.startPropose hi hok hn rfl) rfl
  | proposeRefused => exact h
  | @enter id p peer rest hcall hp hs =>
    obtain ⟨hcalls, hprop⟩ := h.calls.of_propose hcall
    -- the peer that is tried next leaves the list of those that are pending
    have hsub : peer :: rest ⊆ M.peers p.node := hp ▸ hprop.pending
    refine h.setCall hmove' h.ledger hcalls (.propose ?_) rfl
    exact hprop.step (fun v hv ↦ hsub (List.mem_cons_of_mem _ hv)) rfl (fun hack ↦ hack)
      (hsub List.mem_cons_self) rfl
  | sendDone hcall hs =>
    obtain ⟨hcalls, hprop⟩ := h.calls.of_propose hcall
    refine h.setCall hmove' h.ledger hcalls (.propose ?_) rfl
    exact hprop.step hprop.pending rfl (fun hack ↦ hack) trivial rfl
  | sendFail hcall => exact h.endCall hmove' h.ledger (h.calls.of_propose hcall).1 rfl
  | send hcall hs hm =>
    obtain ⟨hcalls, hprop⟩ := h.calls.of_propose hcall
    have hpeer := hprop.stage
    rw [hs] at hpeer
    refine h.setCall hmove' h.ledger hcalls (.propose ?_) rfl
    exact hprop.step hprop.pending rfl (fun hack ↦ hack) ⟨hpeer, hm⟩ rfl
  | deliverLost hcall hs =>
    obtain ⟨hcalls, hprop⟩ := h.calls.of_propose hcall
    refine h.setCall hmove' h.ledger hcalls (.propose ?_) rfl
    exact hprop.step hprop.pending rfl (fun hack ↦ hack) trivial rfl
  | deliverCrash hcall hs ho => exact h.deliverCrash hcall hs ho hmove'
  | deliver hcall hs hn =>
    obtain ⟨hled, hprop⟩ := h.deliver hcall hs hn
    exact h.setCall hmove' hled (h.calls.of_propose hcall).1 (.propose hprop) rfl
  | deliverFail hcall hs hn =>
    exact h.endCall hmove' (h.followed hcall hs hn).1 (h.calls.of_propose hcall).1 rfl
  | @deliverReplyLost id p peer turns m hcall hs =>
    obtain ⟨hcalls, hprop⟩ := h.calls.of_propose hcall
    obtain ⟨hled, hne, hf⟩ := h.followed hcall hs (n := ((c.node peer).appendEntries m.args).1) rfl
    exact h.setCall hmove' hled hcalls (.propose (hprop.followed hne hf trivial)) rfl
  | settle hcall hs hn =>
    obtain ⟨hled, hprop⟩ := h.settle hcall hs hn
    exact h.setCall hmove' hled (h.calls.of_propose hcall).1 (.propose hprop) rfl
  | commit hcall hround hp hs hn =>
    obtain ⟨hcalls, hprop⟩ := h.calls.of_propose hcall
    obtain ⟨hled, hkeep⟩ := h.commit hcall hround hn
    exact h.setCall hmove' hled hcalls (.propose (hprop.second hkeep hs)) rfl
  | commitFail hcall hround hn =>
    exact h.endCall hmove' (h.commit hcall hround hn).1 (h.calls.of_propose hcall).1 rfl
  | answer hcall hround hrow => exact h.answer hcall hmove'
  | answerFail hcall => exact h.endCall hmove' h.ledger (h.calls.of_propose hcall).1 rfl
  | abandon =>
    exact h.next hmove' ⟨exists_ledger_congr h.ledger rfl rfl, (h.calls.filter _).congr rfl rfl⟩ rfl
  | restart ho =>
    obtain rfl := (h.proposals.consistent _).reopens ho
    exact h.next hmove' ⟨h.ledger_setNode (Node.Benign.refl _).restarted rfl rfl,
      h.calls.restart _ rfl rfl⟩ rfl
  -- calls from outside the cluster are no steps of a sequential run
  | requestVote => exact hok.elim
  | appendEntries => exact hok.elim

theorem Agreeing.initial : Agreeing M (Cluster.initial M) where
  elections := .initial
  proposals := .initial
  ledger := by
    refine
      ⟨⟨∅, fun _ ↦ [], ∅⟩, ⟨⟨?_, ?_, ?_, ?_, ?_, ?_, ?_, ?_, ?_⟩, ?_, fun _ ↦ .inl rfl, ?_, ?_, ?_⟩⟩
    · exact fun ht ↦ ht.elim
    · exact fun v k e he ↦ (nomatch he)
    · exact fun he ↦ (nomatch he)
    · exact fun ht ↦ ht.elim
    · exact fun ht ↦ ht.elim
    · exact fun ht ↦ ht.elim
    · exact fun hc ↦ hc.elim
    · exact fun hc ↦ hc.elim
    · exact fun hc ↦ hc.elim
    · exact fun ht ↦ ht.elim
    · exact fun hl ↦ (nomatch hl)
    · exact fun hg ↦ (nomatch hg)
    · exact fun ht ↦ ht.elim
  calls := .none
  answers := List.nodup_nil

theorem agreeing_of_reach (h : (machine M).Reach sequential c) : Agreeing M c :=
  h.invariant Agreeing.initial fun hc hok hstep ↦ (Cluster.step_move hstep).agreeing hc hok

/-! ## Committed prefixes -/

omit [Platform] in
theorem results_isPrefix {l l' : List Entry} {rs rs' : List Outcome}
    {k k' : Table (String × String) (String × ℤ)} (hpre : l <+: l')
    (h : replayFrom [] l = .ok (rs, k)) (h' : replayFrom [] l' = .ok (rs', k')) : rs <+: rs' := by
  obtain ⟨r, rfl⟩ := hpre
  obtain ⟨k₁, h₁⟩ := replayFrom_of_append h'
  rw [h, Except.ok.injEq, Prod.mk.injEq] at h₁
  rw [h₁.1]
  exact List.take_prefix _ _

/-- Two nodes agree on the entry and the decision at a place both have committed. -/
theorem Agreeing.getElem?_eq (h : Agreeing M c) {i j : NodeId} {k : ℕ}
    (hi : k < (c.node i).commitIndex) (hj : k < (c.node j).commitIndex) :
    (c.node i).log[k]? = (c.node j).log[k]? ∧
      (c.node i).db.results[k]? = (c.node j).db.results[k]? := by
  obtain ⟨H, hled⟩ := h.ledger
  wlog hpre : (c.node i).log.take (c.node i).commitIndex <+:
    (c.node j).log.take (c.node j).commitIndex generalizing i j with hsym
  · have hpre' :=
      (hled.sound.committed_total (hled.committed i) (hled.committed j)).resolve_left hpre
    exact (hsym hj hi hpre').imp Eq.symm Eq.symm
  have hci := h.proposals.consistent i
  have hle := hci.commit_le
  have hlen : k < ((c.node i).log.take (c.node i).commitIndex).length := by
    rw [List.length_take]
    omega
  have hlen' : k < (c.node i).db.results.length := by
    rw [hci.db.length_results, hci.commitIndex]
    exact hi
  have hres := results_isPrefix hpre hci.replayed (h.proposals.consistent j).replayed
  have hlog := List.prefix_iff_getElem?.mp hpre k hlen
  rw [← List.getElem?_eq_getElem hlen, List.getElem?_take, List.getElem?_take, if_pos hi,
    if_pos hj] at hlog
  have hrow := List.prefix_iff_getElem?.mp hres k hlen'
  rw [← List.getElem?_eq_getElem hlen'] at hrow
  exact ⟨hlog.symm, hrow.symm⟩

/-! ## Answers -/

/-- A returned `True` for a token. -/
def Event.accepts (key : String × String) : Event → Bool
  | .returned _ _ _ command true => command.key = some key
  | _ => false

/-- Two answers for one token are about one position of one term. -/
theorem Agreeing.answer_unique (h : Agreeing M c) {i j : NodeId} {t t' position position' : ℕ}
    {command command' : Command} {key : String × String}
    (hev : .returned i t position command true ∈ c.trace) (hkey : command.key = some key)
    (hev' : .returned j t' position' command' true ∈ c.trace) (hkey' : command'.key = some key) :
    (t, position) = (t', position') := by
  obtain ⟨hcheck, hdec⟩ := h.proposals.returned hev
  obtain ⟨hcheck', hdec'⟩ := h.proposals.returned hev'
  obtain ⟨stored, hpos, hlog, hc, hfirst⟩ :=
    hdec.first_consumption (h.proposals.consistent i) hcheck hkey
  obtain ⟨stored', hpos', hlog', hc', hfirst'⟩ :=
    hdec'.first_consumption (h.proposals.consistent j) hcheck' hkey'
  have hcommit := hdec.committed
  have hcommit' := hdec'.committed
  rcases Nat.lt_trichotomy position position' with hlt | heq | hlt
  · have hsame := (h.getElem?_eq (i := i) (j := j) (k := position - 1) (by omega) (by omega)).1
    rw [hlog] at hsame
    exact absurd hc (hfirst' (position - 1) (by omega) _ hsame.symm)
  · subst heq
    have hsame := (h.getElem?_eq (i := i) (j := j) (k := position - 1) (by omega) (by omega)).1
    rw [hlog, hlog', Option.some.injEq, Entry.mk.injEq] at hsame
    rw [hsame.1]
  · have hsame := (h.getElem?_eq (i := i) (j := j) (k := position' - 1) (by omega) (by omega)).1
    rw [hlog'] at hsame
    exact absurd hc' (hfirst (position' - 1) (by omega) _ hsame)

omit [Platform] in
theorem Event.accepts_iff {event : Event} {key : String × String} :
    event.accepts key = true ↔ ∃ i t position command, event = .returned i t position command true ∧
      command.key = some key := by
  constructor
  · intro h
    cases event with
    | granted => cases h
    | returned i t position command value =>
      cases value with
      | false => cases h
      | true => exact ⟨i, t, position, command, rfl, of_decide_eq_true h⟩
  · rintro ⟨i, t, position, command, rfl, hkey⟩
    exact decide_eq_true hkey

theorem Agreeing.countP_accepts_le (h : Agreeing M c) (key : String × String) :
    c.trace.countP (Event.accepts key) ≤ 1 := by
  rw [List.countP_eq_length_filter]
  have hpair := (List.pairwise_filterMap.mp h.answers).filter (Event.accepts key)
  have hmem : ∀ {x}, x ∈ c.trace.filter (Event.accepts key) →
      x ∈ c.trace ∧ x.accepts key = true := fun hx ↦ List.mem_filter.mp hx
  match hrows : c.trace.filter (Event.accepts key) with
  | [] => exact Nat.zero_le _
  | [x] => exact Nat.le_refl _
  | x :: y :: rest =>
    rw [hrows] at hpair hmem
    obtain ⟨hx, hax⟩ := hmem List.mem_cons_self
    obtain ⟨hy, hay⟩ := hmem (List.mem_cons_of_mem _ List.mem_cons_self)
    obtain ⟨i, t, position, command, rfl, hkey⟩ := Event.accepts_iff.mp hax
    obtain ⟨j, t', position', command', rfl, hkey'⟩ := Event.accepts_iff.mp hay
    have hne := (List.pairwise_cons.mp hpair).1 _ List.mem_cons_self
    exact absurd (h.answer_unique hx hkey hy hkey') (hne _ rfl _ rfl)

end Agreement

/-! ## Agreement -/

/-- In every run whose calls do not overlap, any two nodes have the same entries and decisions at
every index both have committed, and at most one proposal returned `True` for a token. -/
theorem agreement_of_sequential [Platform] (M : Membership) {c : Cluster}
    (h : (machine M).Reach sequential c) :
    (∀ {i j : NodeId} {k : ℕ}, 1 ≤ k → k ≤ (c.node i).commitIndex → k ≤ (c.node j).commitIndex →
      ∃ e r, (c.node i).db.raftLog.get? k = some e ∧ (c.node j).db.raftLog.get? k = some e ∧
        (c.node i).db.replayResults.get? k = some r ∧
        (c.node j).db.replayResults.get? k = some r) ∧
    ∀ key : String × String, c.trace.countP (Event.accepts key) ≤ 1 := by
  have hagree := agreeing_of_reach h
  refine ⟨?_, hagree.countP_accepts_le⟩
  intro i j k hk hi hj
  obtain ⟨hlog, hres⟩ := hagree.getElem?_eq (i := i) (j := j) (k := k - 1) (by omega) (by omega)
  have hci := hagree.proposals.consistent i
  have hcj := hagree.proposals.consistent j
  have hle := hci.commit_le
  have hlen : k - 1 < (c.node i).log.length := by omega
  have hlen' : k - 1 < (c.node i).db.results.length := by
    rw [hci.db.length_results, hci.commitIndex]
    omega
  refine ⟨(c.node i).log[k - 1], (c.node i).db.results[k - 1], ?_⟩
  rw [hci.db.rows, hcj.db.rows, hci.db.resultRows, hcj.db.resultRows, get?_numberedFrom,
    get?_numberedFrom, get?_numberedFrom, get?_numberedFrom, if_pos hk, if_pos hk, if_pos hk,
    if_pos hk, ← hlog, ← hres, List.getElem?_eq_getElem hlen, List.getElem?_eq_getElem hlen']
  exact ⟨rfl, rfl, rfl, rfl⟩

/-- `a` is elected and one proposal of its reaches `b`. -/
theorem agreement_of_one_proposal : ∃ c, (@machine pythonPlatform laboratory).Reach sequential c ∧
    1 ≤ (c.node "a").commitIndex ∧ 1 ≤ (c.node "b").commitIndex ∧
      (∃ e r, (c.node "a").db.raftLog.get? 1 = some e ∧ (c.node "b").db.raftLog.get? 1 = some e ∧
        (c.node "a").db.replayResults.get? 1 = some r ∧
        (c.node "b").db.replayResults.get? 1 = some r) ∧
      c.trace.countP (Event.accepts ("lab", "cap_00000000000000000000000a")) ≤ 1 := by
  let := pythonPlatform
  have hrun : ((machine laboratory).runIf sequential (machine laboratory).init
      (overtaken.take 5 ++ proposed 2 "a" (consumeCommand "cap_00000000000000000000000a"))).map
        (fun c ↦ ((c.node "a").commitIndex, (c.node "b").commitIndex)) = some (1, 1) := by
    decide +kernel
  obtain ⟨c, hc, hcommits⟩ := Option.map_eq_some_iff.mp hrun
  rw [Prod.mk.injEq] at hcommits
  have ha : 1 ≤ (c.node "a").commitIndex := Nat.le_of_eq hcommits.1.symm
  have hb : 1 ≤ (c.node "b").commitIndex := Nat.le_of_eq hcommits.2.symm
  have hreach : (machine laboratory).Reach sequential c := Machine.path_of_runIf hc
  obtain ⟨hagree, hone⟩ := agreement_of_sequential laboratory hreach
  exact ⟨c, hreach, ha, hb, hagree (Nat.le_refl 1) ha hb, hone _⟩

end EventHorizon.Raft
