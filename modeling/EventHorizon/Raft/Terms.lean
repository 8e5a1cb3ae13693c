import EventHorizon.Raft.Election

/-!
# The terms of a run

A node keeps a term as an integer and writes it to its database as text. `str` spells the integers
below `termLimit`. The terms of a run come from its elections and from callers outside the cluster;
every other section passes on a term that some node has already taken. Where the guard
`termsSpelled` keeps the terms that are brought in below the limit, every term of every node, call
and message stays below it.
-/

namespace EventHorizon.Raft

/-! ## Sections -/

/-- The term of a node is below a bound, in memory and in the database. -/
structure Node.TermsBelow (b : ℕ) (n : Node) : Prop where
  term : n.term < b
  durable : n.db.term < b

namespace Node.TermsBelow

variable {b t : ℕ} {n n' : Node}

theorem of_ballot (h : n.TermsBelow b) (hb : n'.ballot = n.ballot) : n'.TermsBelow b := by
  have hterm : n'.term = n.term := congrArg Ballot.term hb
  have hdurable : n'.db.term = n.db.term := congrArg Ballot.durableTerm hb
  exact ⟨hterm ▸ h.term, hdurable ▸ h.durable⟩

theorem stepDown (h : n.TermsBelow b) {x : Option NodeId} (ht : t < b)
    (hn : n.stepDown t x = .ok n') : n'.TermsBelow b := by
  rw [Node.stepDown] at hn
  split at hn
  · cases hn
  · rw [adoptTerm] at hn
    cases hn
    by_cases hlt : n.term < t
    · rw [if_pos hlt]
      exact ⟨ht, ht⟩
    · rw [if_neg hlt]
      exact ⟨h.term, h.durable⟩

theorem electStart (h : n.TermsBelow b) (ht : n.term + 1 < b) (hn : n.electStart = .ok n') :
    n'.TermsBelow b := by
  obtain ⟨m, hm, hn⟩ := bind_eq_ok.mp hn
  cases hn
  have hstep := h.stepDown ht hm
  exact ⟨hstep.term, hstep.durable⟩

theorem electCount (h : n.TermsBelow b) {electionTerm votes : ℕ} {grant : Bool} {tally : Tally}
    (ht : t < b) (hn : n.electCount electionTerm votes t grant = (n', .ok tally)) :
    n'.TermsBelow b := by
  rw [Node.electCount] at hn
  split at hn
  · split at hn
    · cases hn
    case h_2 m hm =>
      cases hn
      exact h.stepDown ht hm
  · split at hn
    · cases hn
      exact h
    · cases hn
      exact h

theorem replicateSettle (h : n.TermsBelow b) (peer : NodeId) (m : Message) {r : AppendReply}
    (ht : r.term < b) : (n.replicateSettle peer m r).1.TermsBelow b := by
  rw [Node.replicateSettle]
  split
  · split
    · exact h
    case h_2 m hm => exact h.stepDown ht hm
  split
  · exact h
  split
  · exact ⟨h.term, h.durable⟩
  split
  · exact h
  · exact ⟨h.term, h.durable⟩

theorem requestVoteStepDown (h : n.TermsBelow b) {t : ℤ} (ht : t < b)
    (hn : n.requestVoteStepDown t = .ok n') : n'.TermsBelow b := by
  rw [Node.requestVoteStepDown] at hn
  split at hn
  · exact h.stepDown (by omega) hn
  · cases hn
    exact h

theorem requestVote (h : n.TermsBelow b) {t li lt : ℤ} {x : NodeId} {reply : ℕ × Bool} (ht : t < b)
    (hn : n.requestVote t x li lt = (n', .ok reply)) : n'.TermsBelow b ∧ reply.1 < b := by
  rw [Node.requestVote] at hn
  split at hn
  · cases hn
    exact ⟨h, h.term⟩
  split at hn
  · cases hn
    exact ⟨h, h.term⟩
  split at hn
  · cases hn
  case h_2 m hm =>
    have hstep := h.requestVoteStepDown ht hm
    rw [requestVoteGrant] at hn
    split at hn
    · cases hn
      exact ⟨⟨hstep.term, hstep.durable⟩, hstep.term⟩
    · cases hn
      exact ⟨hstep, hstep.term⟩

theorem requestVoteCrash (h : n.TermsBelow b) {t : ℤ} {x : NodeId} (ht : t < b) :
    (Cluster.requestVoteCrash n t x).term < b := by
  rw [Cluster.requestVoteCrash]
  split
  · exact h.durable
  split
  · exact h.durable
  case h_2 m hm => exact (h.requestVoteStepDown ht hm).durable

theorem appendStepDown (h : n.TermsBelow b) {t : ℤ} {x : NodeId} (ht : t < b)
    (hn : n.appendStepDown t x = .ok n') : n'.TermsBelow b := by
  rw [Node.appendStepDown] at hn
  split at hn
  · exact h.stepDown (by have := h.term; omega) hn
  · cases hn
    exact ⟨h.term, h.durable⟩

theorem appendCrash (h : n.TermsBelow b) {a : AppendArgs} (ht : a.term < b) :
    (Cluster.appendCrash n a).term < b := by
  rw [Cluster.appendCrash]
  split
  · exact h.durable
  split
  · exact h.durable
  case h_2 m hm => exact (h.appendStepDown ht hm).durable

variable [Platform]

theorem appendAccept (h : n.TermsBelow b) {a : AppendArgs} : (n.appendAccept a).1.TermsBelow b ∧
    ∀ r, (n.appendAccept a).2 = .ok r → r.term < b := by
  have herr {m : Node} {x : Exn} (hm : m.TermsBelow b) :
      m.TermsBelow b ∧ ∀ r, (.error x : Except Exn AppendReply) = .ok r → r.term < b :=
    ⟨hm, fun r hr ↦ (by cases hr)⟩
  have hok {m : Node} {accepted : Bool} {index : ℕ} (hm : m.TermsBelow b) : m.TermsBelow b ∧
      ∀ r, (.ok ⟨m.term, accepted, index⟩ : Except Exn AppendReply) = .ok r → r.term < b :=
    ⟨hm, fun r hr ↦ (by cases hr; exact hm.term)⟩
  rw [Node.appendAccept]
  split
  · split
    · exact herr h
    · exact hok h
  split
  · exact hok h
  split
  · exact herr h
  split
  · exact herr (h.of_ballot (rollback_ballot _))
  case h_2 m hm => exact hok (h.of_ballot (appendTransaction_ballot hm))

theorem appendEntries (h : n.TermsBelow b) {a : AppendArgs} (ht : a.term < b) :
    (n.appendEntries a).1.TermsBelow b ∧ ∀ r, (n.appendEntries a).2 = .ok r → r.term < b := by
  have hok {accepted : Bool} {index : ℕ} : n.TermsBelow b ∧
      ∀ r, (.ok ⟨n.term, accepted, index⟩ : Except Exn AppendReply) = .ok r → r.term < b :=
    ⟨h, fun r hr ↦ (by cases hr; exact h.term)⟩
  rw [Node.appendEntries]
  split
  · exact hok
  split
  · exact hok
  split
  · exact ⟨h, fun r hr ↦ (by cases hr)⟩
  case h_2 m hm => exact (h.appendStepDown ht hm).appendAccept

theorem proposeAppend (h : n.TermsBelow b) {command : Command}
    (hn : n.proposeAppend command = .ok n') : n'.TermsBelow b := by
  obtain ⟨⟨⟩, -, hn⟩ := bind_eq_ok.mp hn
  obtain ⟨-, hn⟩ := throw_if_eq_ok.mp hn
  obtain ⟨db, hdb, hn⟩ := bind_eq_ok.mp hn
  cases hn
  exact ⟨h.term, (insertEntry_ballot n.db hdb).1 ▸ h.durable⟩

omit [Platform] in
theorem proposeCommit (h : n.TermsBelow b) (position : ℕ) :
    (n.proposeCommit position).1.TermsBelow b := by
  rw [Node.proposeCommit]
  split
  · exact h
  split
  · exact h
  split
  case h_1 x hx =>
    have hback := h.of_ballot (n.rollback_ballot x)
    dsimp only
    rcases n.giveUp_fst x with hr | hr <;> rw [hr]
    · exact hback
    · exact ⟨hback.term, hback.durable⟩
  case h_2 m hm =>
    have hset : (n.setCommitIndex position).TermsBelow b := ⟨h.term, h.durable⟩
    exact hset.of_ballot (applyCommitted_ballot hm)

end Node.TermsBelow

/-- A message carries the term of its sender. -/
theorem Node.replicateSend_term {n : Node} {peer : NodeId} {m : Message}
    (h : n.replicateSend peer = .ok (some m)) : m.args.term = n.term := by
  rw [replicateSend] at h
  split at h
  · cases h
  dsimp only at h
  split at h
  · cases h
  · obtain ⟨items, -, h⟩ := bind_eq_ok.mp h
    cases h
    rfl

/-! ## Runs -/

/-- The terms a call holds are below a bound: the term of an election, of a reply, of a message. -/
def Call.TermsBelow (b : ℕ) : Call → Prop
  | .elect e => e.electionTerm < b ∧ ∀ reply ∈ e.reply, reply.1 < b
  | .propose p =>
    match p.stage with
    | .inflight _ _ m => m.args.term < b
    | .answered _ _ _ r => r.term < b
    | _ => True

/-- Every term of the cluster is below a bound. -/
structure Cluster.TermsBelow (b : ℕ) (c : Cluster) : Prop where
  node : ∀ i, (c.node i).TermsBelow b
  call : ∀ r ∈ c.calls, r.2.TermsBelow b

section Runs

variable [Platform] {M : Membership} {c c' : Cluster} {b id : ℕ} {i : NodeId} {n : Node}

namespace Cluster.TermsBelow

omit [Platform] in
theorem get (h : c.TermsBelow b) {call : Call} (hcall : c.calls.get? id = some call) :
    call.TermsBelow b := h.call _ (Table.mem_of_get? hcall)

omit [Platform] in
theorem get_elect (h : c.TermsBelow b) {e : ElectCall} (hcall : c.calls.get? id = some (.elect e)) :
    e.electionTerm < b ∧ ∀ reply ∈ e.reply, reply.1 < b := h.get hcall

omit [Platform] in
theorem get_inflight (h : c.TermsBelow b) {p : ProposeCall} {peer : NodeId} {turns : ℕ}
    {m : Node.Message} (hcall : c.calls.get? id = some (.propose p))
    (hs : p.stage = .inflight peer turns m) : m.args.term < b := by
  have hterm := h.get hcall
  rwa [Call.TermsBelow, hs] at hterm

omit [Platform] in
theorem get_answered (h : c.TermsBelow b) {p : ProposeCall} {peer : NodeId} {turns : ℕ}
    {m : Node.Message} {r : AppendReply} (hcall : c.calls.get? id = some (.propose p))
    (hs : p.stage = .answered peer turns m r) : r.term < b := by
  have hterm := h.get hcall
  rwa [Call.TermsBelow, hs] at hterm

omit [Platform] in
theorem setNode (h : c.TermsBelow b) (hn : n.TermsBelow b) : (c.setNode i n).TermsBelow b where
  node j := by
    rw [setNode_node]
    split
    · exact hn
    · exact h.node j
  call := h.call

omit [Platform] in
theorem setCall (h : c.TermsBelow b) {call : Call} (hcall : call.TermsBelow b) :
    (c.setCall id call).TermsBelow b where
  node := h.node
  call r hr := by
    rcases Table.mem_of_mem_put hr with rfl | hr
    · exact hcall
    · exact h.call r hr

omit [Platform] in
theorem endCall (h : c.TermsBelow b) : (c.endCall id).TermsBelow b :=
  ⟨h.node, fun r hr ↦ h.call r (mem_endCall_calls hr)⟩

omit [Platform] in
theorem record (h : c.TermsBelow b) {events : List Event} : (c.record events).TermsBelow b :=
  ⟨h.node, h.call⟩

theorem reopens (h : c.TermsBelow b) {db : Database} (hdb : db.term < b)
    (ho : Reopens M c i db c') : c'.TermsBelow b := by
  obtain ⟨n, hn, rfl⟩ := ho
  have hb := Node.open_ballot hn
  have hends : (c.endCallsOn i).TermsBelow b :=
    ⟨h.node, fun r hr ↦ h.call r (mem_endCallsOn_calls hr).1⟩
  have hterm : n.term = db.term := congrArg Ballot.term hb
  have hdurable : n.db.term = db.term := congrArg Ballot.durableTerm hb
  exact hends.setNode ⟨hterm ▸ hdb, hdurable ▸ hdb⟩

end Cluster.TermsBelow

/-- A section brings no term of its own but the one of its action. -/
theorem Move.termsBelow {a : Action} (h : c.TermsBelow b) (hok : ∀ t ∈ a.term? c, t < b)
    (hmove : Move M c a c') : c'.TermsBelow b := by
  -- a term comes from the action, from a node or from a message that is on its way
  cases hmove with
  | @elect id i n hi hid hn =>
    have ht : (c.node i).term + 1 < b := by
      have := hok _ rfl
      omega
    have hnode := (h.node i).electStart ht hn
    exact (h.setNode hnode).record.setCall ⟨hnode.term, fun r hr ↦ (by cases hr)⟩
  | @electCrash i m c' hm ho =>
    have ht : (c.node i).term + 1 < b := by
      have := hok _ rfl
      omega
    exact h.reopens ((h.node i).stepDown ht hm).durable ho
  | @askLost id e p rest hcall hp hr =>
    obtain ⟨hterm, hreply⟩ := h.get_elect hcall
    exact h.setCall ⟨hterm, hreply⟩
  | @askCrash id e p rest c' hcall hp hr ho =>
    obtain ⟨hterm, hreply⟩ := h.get_elect hcall
    have hsent : (c.setCall id (.elect { e with pending := rest })).TermsBelow b :=
      h.setCall ⟨hterm, hreply⟩
    exact hsent.reopens ((h.node p).requestVoteCrash (Int.ofNat_lt.mpr hterm)) ho
  | @ask fate id e p rest n reply hcall hp hr hn =>
    obtain ⟨hterm, -⟩ := h.get_elect hcall
    obtain ⟨hnode, hreply⟩ := (h.node p).requestVote (Int.ofNat_lt.mpr hterm) hn
    refine (h.setNode hnode).record.setCall ⟨hterm, fun r hmem ↦ ?_⟩
    dsimp only at hmem
    split at hmem
    · cases hmem
      exact hreply
    · cases hmem
  | @count id e theirTerm votes grant n hcall hr hn =>
    obtain ⟨hterm, hreply⟩ := h.get_elect hcall
    have hnode := (h.node e.node).electCount (hreply _ hr) hn
    exact (h.setNode hnode).setCall ⟨hterm, fun r hmem ↦ (by cases hmem)⟩
  | @countLost id e theirTerm grant n hcall hr hn =>
    obtain ⟨-, hreply⟩ := h.get_elect hcall
    exact (h.setNode ((h.node e.node).electCount (hreply _ hr) hn)).endCall
  | @finish id e hcall hp hr =>
    have hnode := h.node e.node
    refine (h.setNode ?_).endCall
    rw [Node.electFinish]
    split
    · exact ⟨hnode.term, hnode.durable⟩
    · exact hnode
  | @propose id i command n hi hid hfree hn =>
    exact (h.setNode ((h.node i).proposeAppend hn)).setCall trivial
  | proposeRefused => exact h
  | enter => exact h.setCall trivial
  | sendDone => exact h.setCall trivial
  | sendFail => exact h.endCall
  | @send id p peer turns m hcall hs hm =>
    -- an append request has the term of the leader that sends it
    have hterm : m.args.term < b := by
      rw [Node.replicateSend_term hm]
      exact Int.ofNat_lt.mpr (h.node p.node).term
    exact h.setCall hterm
  | deliverLost => exact h.setCall trivial
  | @deliverCrash id p peer turns m c' hcall hs ho =>
    have hsent : (c.setCall id (.propose { p with stage := .idle })).TermsBelow b :=
      h.setCall trivial
    exact hsent.reopens ((h.node peer).appendCrash (h.get_inflight hcall hs)) ho
  | @deliver id p peer turns m n r hcall hs hn =>
    obtain ⟨hnode, hreply⟩ := (h.node peer).appendEntries (h.get_inflight hcall hs)
    rw [hn] at hnode hreply
    exact (h.setNode hnode).setCall (hreply r rfl)
  | @deliverFail id p peer turns m n x hcall hs hn =>
    have hnode := ((h.node peer).appendEntries (h.get_inflight hcall hs)).1
    rw [hn] at hnode
    exact (h.setNode hnode).endCall
  | @deliverReplyLost id p peer turns m hcall hs =>
    have hnode := ((h.node peer).appendEntries (h.get_inflight hcall hs)).1
    exact (h.setNode hnode).setCall trivial
  | @settle id p peer turns m r n again hcall hs hn =>
    have hnode := (h.node p.node).replicateSettle peer m (h.get_answered hcall hs)
    rw [hn] at hnode
    refine (h.setNode hnode).setCall ?_
    cases again <;> exact trivial
  | @commit id p n row hcall hround hp hs hn =>
    have hnode := (h.node p.node).proposeCommit p.position
    rw [hn] at hnode
    refine (h.setNode hnode).setCall ?_
    rw [Call.TermsBelow, hs]
    exact trivial
  | @commitFail id p n x hcall hround hn =>
    have hnode := (h.node p.node).proposeCommit p.position
    rw [hn] at hnode
    exact (h.setNode hnode).endCall
  | answer => exact h.record.endCall
  | answerFail => exact h.endCall
  | abandon => exact h.endCall
  | @restart i c' ho => exact h.reopens (h.node i).durable ho
  | @requestVote i term candidateId li lt n reply hi hn =>
    exact (h.setNode ((h.node i).requestVote (hok _ rfl) hn).1).record
  | @appendEntries i args hi => exact h.setNode ((h.node i).appendEntries (hok _ rfl)).1

/-- `str` spells every term of a run that is brought only such terms. -/
theorem terms_spelled_of_reach (h : (machine M).Reach termsSpelled c) :
    c.TermsBelow termLimit := by
  have hten (k : ℕ) : 0 < 10 ^ k := Nat.pow_pos (Nat.succ_pos 9)
  have hpos : 0 < termLimit := hten 4300
  exact h.invariant ⟨fun _ ↦ ⟨hpos, hpos⟩, fun r hr ↦ (by cases hr)⟩ fun hc hok hstep ↦
    (Cluster.step_move hstep).termsBelow hc hok

end Runs

end EventHorizon.Raft
