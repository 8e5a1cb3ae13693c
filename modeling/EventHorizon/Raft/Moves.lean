import EventHorizon.Raft.Cluster

/-!
# The moves of a cluster

`Move` lists what one action can do to a cluster: which section ran, with what result, and what is
left of the call it belongs to. It is the case analysis of `Cluster.step`, made once. What a section
does to the node it runs on is left to the lemmas about that section.
-/

namespace EventHorizon.Raft

/-! ## Components of an updated cluster -/

namespace Cluster

variable {c : Cluster} {i j : NodeId} {n : Node} {id : ℕ} {call : Call} {events : List Event}

theorem setNode_node : (c.setNode i n).node j = if j = i then n else c.node j :=
  Function.update_apply c.node i n j

@[simp] theorem setNode_node_self : (c.setNode i n).node i = n := by rw [setNode_node, if_pos rfl]

theorem setNode_node_ne (h : j ≠ i) : (c.setNode i n).node j = c.node j := by
  rw [setNode_node, if_neg h]

@[simp] theorem setNode_calls : (c.setNode i n).calls = c.calls := rfl
@[simp] theorem setNode_trace : (c.setNode i n).trace = c.trace := rfl
@[simp] theorem setCall_node : (c.setCall id call).node = c.node := rfl
@[simp] theorem setCall_calls : (c.setCall id call).calls = c.calls.put id call := rfl
@[simp] theorem setCall_trace : (c.setCall id call).trace = c.trace := rfl
@[simp] theorem endCall_node : (c.endCall id).node = c.node := rfl
@[simp] theorem endCall_trace : (c.endCall id).trace = c.trace := rfl
@[simp] theorem endCallsOn_node : (c.endCallsOn i).node = c.node := rfl
@[simp] theorem endCallsOn_trace : (c.endCallsOn i).trace = c.trace := rfl
@[simp] theorem record_node : (c.record events).node = c.node := rfl
@[simp] theorem record_calls : (c.record events).calls = c.calls := rfl
@[simp] theorem record_trace : (c.record events).trace = c.trace ++ events := rfl

theorem elect?_eq_some {e : ElectCall} :
    c.elect? id = some e ↔ c.calls.get? id = some (.elect e) := by
  rw [elect?]
  cases h : c.calls.get? id with
  | none => simp
  | some call => cases call <;> simp

theorem propose?_eq_some {p : ProposeCall} :
    c.propose? id = some p ↔ c.calls.get? id = some (.propose p) := by
  rw [propose?]
  cases h : c.calls.get? id with
  | none => simp
  | some call => cases call <;> simp

theorem mem_endCall_calls {r : ℕ × Call} (h : r ∈ (c.endCall id).calls) : r ∈ c.calls :=
  List.mem_of_mem_filter h

theorem mem_endCallsOn_calls {r : ℕ × Call} (h : r ∈ (c.endCallsOn i).calls) :
    r ∈ c.calls ∧ r.2.node ≠ i :=
  ⟨List.mem_of_mem_filter h, by simpa using List.of_mem_filter h⟩

end Cluster

section Moves

variable [Platform] (M : Membership)

/-- The `elect` call of a node after its first section. -/
def startedElect (n : Node) (i : NodeId) : ElectCall where
  node := i
  electionTerm := n.term
  lastIndex := n.db.lastIndex
  lastTerm := n.db.lastTerm
  pending := M.peers i
  votes := 1
  reply := none

/-- The `propose` call of a node after its first section. -/
def startedPropose (n : Node) (i : NodeId) (command : Command) : ProposeCall where
  node := i
  command := command
  term := n.term
  position := n.db.lastIndex
  round := .first
  pending := M.peers i
  stage := .idle

/-- The process of a node ends with the given database and is started again on it. -/
def Reopens (c : Cluster) (i : NodeId) (db : Database) (c' : Cluster) : Prop :=
  ∃ n, Node.open i M.members db = .ok n ∧ c' = (c.endCallsOn i).setNode i n

/-- What one action does to a cluster. -/
inductive Move (c : Cluster) : Action → Cluster → Prop
  | elect {id : ℕ} {i : NodeId} {n : Node} (hi : i ∈ M.members) (hid : c.calls.get? id = none)
      (hn : (c.node i).electStart = .ok n) :
      Move c (.elect id i)
        (((c.setNode i n).record [.granted i n.term i]).setCall id (.elect (startedElect M n i)))
  | electCrash {i : NodeId} {m : Node} {c' : Cluster} (hm : (c.node i).electStepDown = .ok m)
      (ho : Reopens M c i m.db c') :
      Move c (.electCrash i) c'
  | askLost {id : ℕ} {e : ElectCall} {p : NodeId} {rest : List NodeId}
      (hcall : c.calls.get? id = some (.elect e)) (hp : e.pending = p :: rest)
      (hr : e.reply = none) :
      Move c (.ask id .lost) (c.setCall id (.elect { e with pending := rest }))
  | askCrash {id : ℕ} {e : ElectCall} {p : NodeId} {rest : List NodeId} {c' : Cluster}
      (hcall : c.calls.get? id = some (.elect e)) (hp : e.pending = p :: rest)
      (hr : e.reply = none) (ho : Reopens M (c.setCall id (.elect { e with pending := rest })) p
        (Cluster.requestVoteCrash (c.node p) e.electionTerm e.node) c') :
      Move c (.ask id .peerCrash) c'
  | ask (fate : Fate) {id : ℕ} {e : ElectCall} {p : NodeId} {rest : List NodeId} {n : Node}
      {reply : ℕ × Bool} (hcall : c.calls.get? id = some (.elect e)) (hp : e.pending = p :: rest)
      (hr : e.reply = none)
      (hn : (c.node p).requestVote e.electionTerm e.node e.lastIndex e.lastTerm = (n, .ok reply)) :
      Move c (.ask id fate)
        (((c.setNode p n).record (grantEvents p e.node (.ok reply))).setCall id (.elect { e with
          pending := rest
          reply := if fate = .delivered then some reply else none }))
  | count {id : ℕ} {e : ElectCall} {theirTerm votes : ℕ} {grant : Bool} {n : Node}
      (hcall : c.calls.get? id = some (.elect e)) (hr : e.reply = some (theirTerm, grant))
      (hn : (c.node e.node).electCount e.electionTerm e.votes theirTerm grant =
        (n, .ok (.counting votes))) :
      Move c (.count id)
        ((c.setNode e.node n).setCall id (.elect { e with votes := votes, reply := none }))
  | countLost {id : ℕ} {e : ElectCall} {theirTerm : ℕ} {grant : Bool} {n : Node}
      (hcall : c.calls.get? id = some (.elect e)) (hr : e.reply = some (theirTerm, grant))
      (hn : (c.node e.node).electCount e.electionTerm e.votes theirTerm grant = (n, .ok .lost)) :
      Move c (.count id) ((c.setNode e.node n).endCall id)
  | finish {id : ℕ} {e : ElectCall} (hcall : c.calls.get? id = some (.elect e))
      (hp : e.pending = []) (hr : e.reply = none) :
      Move c (.finish id) ((c.setNode e.node
        ((c.node e.node).electFinish (M.peers e.node) e.votes)).endCall id)
  | propose {id : ℕ} {i : NodeId} {command : Command} {n : Node} (hi : i ∈ M.members)
      (hid : c.calls.get? id = none) (hfree : c.proposing i = false)
      (hn : (c.node i).proposeAppend command = .ok n) :
      Move c (.propose id i command)
        ((c.setNode i n).setCall id (.propose (startedPropose M n i command)))
  | proposeRefused {id : ℕ} {i : NodeId} {command : Command} : Move c (.propose id i command) c
  | enter {id : ℕ} {p : ProposeCall} {peer : NodeId} {rest : List NodeId}
      (hcall : c.calls.get? id = some (.propose p)) (hp : p.pending = peer :: rest)
      (hs : p.stage = .idle) :
      Move c (.enter id) (c.setCall id (.propose { p with
        pending := rest
        stage := .sending peer ((c.node p.node).db.lastIndex + 1) }))
  | sendDone {id : ℕ} {p : ProposeCall} {peer : NodeId} {turns : ℕ}
      (hcall : c.calls.get? id = some (.propose p)) (hs : p.stage = .sending peer turns) :
      Move c (.send id) (c.setCall id (.propose { p with stage := .idle }))
  | sendFail {id : ℕ} {p : ProposeCall} (hcall : c.calls.get? id = some (.propose p)) :
      Move c (.send id) (c.endCall id)
  | send {id : ℕ} {p : ProposeCall} {peer : NodeId} {turns : ℕ} {m : Node.Message}
      (hcall : c.calls.get? id = some (.propose p)) (hs : p.stage = .sending peer (turns + 1))
      (hm : (c.node p.node).replicateSend peer = .ok (some m)) :
      Move c (.send id) (c.setCall id (.propose { p with stage := .inflight peer turns m }))
  | deliverLost {id : ℕ} {p : ProposeCall} {peer : NodeId} {turns : ℕ} {m : Node.Message}
      (hcall : c.calls.get? id = some (.propose p)) (hs : p.stage = .inflight peer turns m) :
      Move c (.deliver id .lost) (c.setCall id (.propose { p with stage := .idle }))
  | deliverCrash {id : ℕ} {p : ProposeCall} {peer : NodeId} {turns : ℕ} {m : Node.Message}
      {c' : Cluster} (hcall : c.calls.get? id = some (.propose p))
      (hs : p.stage = .inflight peer turns m)
      (ho : Reopens M (c.setCall id (.propose { p with stage := .idle })) peer
        (Cluster.appendCrash (c.node peer) m.args) c') :
      Move c (.deliver id .peerCrash) c'
  | deliver {id : ℕ} {p : ProposeCall} {peer : NodeId} {turns : ℕ} {m : Node.Message}
      {n : Node} {r : AppendReply} (hcall : c.calls.get? id = some (.propose p))
      (hs : p.stage = .inflight peer turns m)
      (hn : (c.node peer).appendEntries m.args = (n, .ok r)) :
      Move c (.deliver id .delivered)
        ((c.setNode peer n).setCall id (.propose { p with stage := .answered peer turns m r }))
  | deliverFail {id : ℕ} {p : ProposeCall} {peer : NodeId} {turns : ℕ} {m : Node.Message}
      {n : Node} {x : Exn} (hcall : c.calls.get? id = some (.propose p))
      (hs : p.stage = .inflight peer turns m)
      (hn : (c.node peer).appendEntries m.args = (n, .error x)) :
      Move c (.deliver id .delivered) ((c.setNode peer n).endCall id)
  | deliverReplyLost {id : ℕ} {p : ProposeCall} {peer : NodeId} {turns : ℕ} {m : Node.Message}
      (hcall : c.calls.get? id = some (.propose p)) (hs : p.stage = .inflight peer turns m) :
      Move c (.deliver id .replyLost)
        ((c.setNode peer ((c.node peer).appendEntries m.args).1).setCall id
          (.propose { p with stage := .idle }))
  | settle {id : ℕ} {p : ProposeCall} {peer : NodeId} {turns : ℕ} {m : Node.Message}
      {r : AppendReply} {n : Node} {again : Bool} (hcall : c.calls.get? id = some (.propose p))
      (hs : p.stage = .answered peer turns m r)
      (hn : (c.node p.node).replicateSettle peer m r = (n, .ok again)) :
      Move c (.settle id) ((c.setNode p.node n).setCall id (.propose { p with
        stage := if again then .sending peer turns else .idle }))
  | commit {id : ℕ} {p : ProposeCall} {n : Node} {row : Option Outcome}
      (hcall : c.calls.get? id = some (.propose p)) (hround : p.round = .first)
      (hp : p.pending = []) (hs : p.stage = .idle)
      (hn : (c.node p.node).proposeCommit p.position = (n, .ok row)) :
      Move c (.commit id) ((c.setNode p.node n).setCall id
        (.propose { p with round := .second row, pending := M.peers p.node }))
  | commitFail {id : ℕ} {p : ProposeCall} {n : Node} {x : Exn}
      (hcall : c.calls.get? id = some (.propose p)) (hround : p.round = .first)
      (hn : (c.node p.node).proposeCommit p.position = (n, .error x)) :
      Move c (.commit id) ((c.setNode p.node n).endCall id)
  | answer {id : ℕ} {p : ProposeCall} {row : Option Outcome} {value : Bool}
      (hcall : c.calls.get? id = some (.propose p)) (hround : p.round = .second row)
      (hrow : Node.proposeAnswer row = .ok value) :
      Move c (.answer id)
        ((c.record [.returned p.node p.term p.position p.command value]).endCall id)
  | answerFail {id : ℕ} {p : ProposeCall} (hcall : c.calls.get? id = some (.propose p)) :
      Move c (.answer id) (c.endCall id)
  | abandon {id : ℕ} : Move c (.abandon id) (c.endCall id)
  | restart {i : NodeId} {c' : Cluster} (ho : Reopens M c i (c.node i).db c') :
      Move c (.restart i) c'
  | requestVote {i : NodeId} {term : ℤ} {candidateId : NodeId} {lastLogIndex lastLogTerm : ℤ}
      {n : Node} {reply : ℕ × Bool} (hi : i ∈ M.members)
      (hn : (c.node i).requestVote term candidateId lastLogIndex lastLogTerm = (n, .ok reply)) :
      Move c (.requestVote i term candidateId lastLogIndex lastLogTerm)
        ((c.setNode i n).record (grantEvents i candidateId (.ok reply)))
  | appendEntries {i : NodeId} {args : AppendArgs} (hi : i ∈ M.members) :
      Move c (.appendEntries i args) (c.setNode i ((c.node i).appendEntries args).1)

/-! ## Every step is a move -/

variable {M} {c c' : Cluster} {i : NodeId} {n : Node}

theorem Cluster.reopens_of_reopen {db : Database} (h : c.reopen M i db = some c') :
    Reopens M c i db c' := by
  rw [Cluster.reopen] at h
  split at h
  case h_1 n hn => exact ⟨n, hn, (Option.some.inj h).symm⟩
  case h_2 => cases h

omit [Platform] in
theorem Node.stepDown_ok {t : ℕ} (ht : n.term ≤ t) (x : Option NodeId) :
    n.stepDown t x = .ok { n.adoptTerm t with role := .follower, leaderId := x } :=
  if_neg (Nat.not_lt.mpr ht)

omit [Platform] in
theorem Node.giveUp_fst (n : Node) (e : Exn) : (n.giveUp e).1 = (n.rollback e).1 ∨
    (n.giveUp e).1 = { (n.rollback e).1 with role := .follower, leaderId := none } := by
  rw [giveUp, rollback]
  split
  · exact .inr rfl
  · exact .inl rfl

omit [Platform] in
theorem Node.requestVoteStepDown_ok (n : Node) (t : ℤ) : ∃ m, n.requestVoteStepDown t = .ok m := by
  rw [requestVoteStepDown]
  split
  · exact ⟨_, stepDown_ok (by omega) none⟩
  · exact ⟨n, rfl⟩

omit [Platform] in
theorem Node.requestVote_ok (n : Node) (t : ℤ) (candidate : NodeId) (li lt : ℤ) :
    ∃ n' reply, n.requestVote t candidate li lt = (n', .ok reply) := by
  obtain ⟨m, hm⟩ := n.requestVoteStepDown_ok t
  rw [requestVote, hm]
  split
  · exact ⟨_, _, rfl⟩
  split <;> exact ⟨_, _, rfl⟩

omit [Platform] in
theorem Node.electCount_ok (n : Node) (electionTerm votes theirTerm : ℕ) (grant : Bool) :
    ∃ n' tally, n.electCount electionTerm votes theirTerm grant = (n', .ok tally) := by
  rw [electCount]
  split
  case isTrue h =>
    rw [stepDown_ok (Nat.le_of_lt h)]
    exact ⟨_, _, rfl⟩
  split <;> exact ⟨_, _, rfl⟩

omit [Platform] in
theorem Node.replicateSettle_ok (n : Node) (peer : NodeId) (m : Message) (r : AppendReply) :
    ∃ n' again, n.replicateSettle peer m r = (n', .ok again) := by
  rw [replicateSettle]
  split
  case isTrue h =>
    rw [stepDown_ok (Nat.le_of_lt h)]
    exact ⟨_, _, rfl⟩
  split
  · exact ⟨_, _, rfl⟩
  split
  · exact ⟨_, _, rfl⟩
  split <;> exact ⟨_, _, rfl⟩

namespace Cluster

variable {id : ℕ}

omit [Platform] in
theorem onElect_eq_some {f : ElectCall → Option Cluster} (h : c.onElect id f = some c') :
    ∃ e, c.calls.get? id = some (.elect e) ∧ f e = some c' := by
  rw [onElect] at h
  split at h
  case h_1 e he => exact ⟨e, he, h⟩
  case h_2 => cases h

omit [Platform] in
theorem onPropose_eq_some {f : ProposeCall → Option Cluster} (h : c.onPropose id f = some c') :
    ∃ p, c.calls.get? id = some (.propose p) ∧ f p = some c' := by
  rw [onPropose] at h
  split at h
  case h_1 p hp => exact ⟨p, hp, h⟩
  case h_2 => cases h

theorem startElect_move (h : c.startElect M id i = some c') : Move M c (.elect id i) c' := by
  rw [startElect] at h
  split at h
  case isFalse => cases h
  case isTrue hi =>
    split at h
    case h_1 n hn =>
      cases h
      exact .elect hi.1 hi.2 hn
    case h_2 => cases h

theorem ask_move {e : ElectCall} {fate : Fate} (hcall : c.calls.get? id = some (.elect e))
    (h : c.ask M id e fate = some c') : Move M c (.ask id fate) c' := by
  rw [ask] at h
  split at h
  case h_2 => cases h
  case h_1 p rest hp hr =>
    obtain ⟨n, reply, hn⟩ :=
      (c.node p).requestVote_ok e.electionTerm e.node e.lastIndex e.lastTerm
    cases fate with
    | lost =>
      cases h
      exact .askLost hcall hp hr
    | delivered =>
      simp only [hn] at h
      cases h
      exact .ask .delivered hcall hp hr hn
    | replyLost =>
      simp only [hn] at h
      cases h
      have hmove := Move.ask (M := M) .replyLost hcall hp hr hn
      rw [if_neg (by decide), ← hr] at hmove
      exact hmove
    | peerCrash => exact .askCrash hcall hp hr (reopens_of_reopen h)

theorem count_move {e : ElectCall} (hcall : c.calls.get? id = some (.elect e))
    (h : c.count id e = some c') : Move M c (.count id) c' := by
  rw [count] at h
  split at h
  case h_2 => cases h
  case h_1 theirTerm grant hr =>
    obtain ⟨n, tally, hn⟩ := (c.node e.node).electCount_ok e.electionTerm e.votes theirTerm grant
    simp only [hn] at h
    cases tally with
    | counting votes =>
      cases h
      exact .count hcall hr hn
    | lost =>
      cases h
      exact .countLost hcall hr hn

theorem finish_move {e : ElectCall} (hcall : c.calls.get? id = some (.elect e))
    (h : c.finish M id e = some c') : Move M c (.finish id) c' := by
  rw [finish] at h
  split at h
  case h_2 => cases h
  case h_1 hp hr =>
    cases h
    exact .finish hcall hp hr

theorem startPropose_move {command : Command} (h : c.startPropose M id i command = some c') :
    Move M c (.propose id i command) c' := by
  rw [startPropose] at h
  split at h
  case isFalse => cases h
  case isTrue hi =>
    split at h
    case h_1 n hn =>
      cases h
      exact .propose hi.1 hi.2.1 hi.2.2 hn
    case h_2 =>
      cases h
      exact .proposeRefused

theorem enter_move {p : ProposeCall} (hcall : c.calls.get? id = some (.propose p))
    (h : c.enter id p = some c') : Move M c (.enter id) c' := by
  rw [enter] at h
  split at h
  case h_2 => cases h
  case h_1 peer rest hp hs =>
    cases h
    exact .enter hcall hp hs

theorem send_move {p : ProposeCall} (hcall : c.calls.get? id = some (.propose p))
    (h : c.send id p = some c') : Move M c (.send id) c' := by
  rw [send] at h
  split at h
  case h_1 peer hs =>
    cases h
    exact .sendDone hcall hs
  case h_2 peer turns hs =>
    split at h
    · cases h
      exact .sendFail hcall
    · cases h
      exact .sendDone hcall hs
    case h_3 m hm =>
      cases h
      exact .send hcall hs hm
  case h_3 => cases h

theorem deliver_move {p : ProposeCall} {fate : Fate} (hcall : c.calls.get? id = some (.propose p))
    (h : c.deliver M id p fate = some c') : Move M c (.deliver id fate) c' := by
  rw [deliver] at h
  split at h
  case h_2 => cases h
  case h_1 peer turns m hs =>
    cases fate with
    | lost =>
      cases h
      exact .deliverLost hcall hs
    | delivered =>
      rcases hn : (c.node peer).appendEntries m.args with ⟨n, r⟩
      cases r with
      | ok r =>
        simp only [hn] at h
        cases h
        exact .deliver hcall hs hn
      | error x =>
        simp only [hn] at h
        cases h
        exact .deliverFail hcall hs hn
    | replyLost =>
      cases h
      exact .deliverReplyLost hcall hs
    | peerCrash => exact .deliverCrash hcall hs (reopens_of_reopen h)

theorem settle_move {p : ProposeCall} (hcall : c.calls.get? id = some (.propose p))
    (h : c.settle id p = some c') : Move M c (.settle id) c' := by
  rw [settle] at h
  split at h
  case h_2 => cases h
  case h_1 peer turns m r hs =>
    obtain ⟨n, again, hn⟩ := (c.node p.node).replicateSettle_ok peer m r
    have hmove := Move.settle (M := M) hcall hs hn
    simp only [hn] at h
    cases again with
    | true =>
      cases h
      exact hmove
    | false =>
      cases h
      exact hmove

theorem commit_move {p : ProposeCall} (hcall : c.calls.get? id = some (.propose p))
    (h : c.commit M id p = some c') : Move M c (.commit id) c' := by
  rw [commit] at h
  split at h
  case h_2 => cases h
  case h_1 hround hp hs =>
    rcases hn : (c.node p.node).proposeCommit p.position with ⟨n, r⟩
    cases r with
    | ok row =>
      simp only [hn] at h
      cases h
      exact .commit hcall hround hp hs hn
    | error x =>
      simp only [hn] at h
      cases h
      exact .commitFail hcall hround hn

theorem answer_move {p : ProposeCall} (hcall : c.calls.get? id = some (.propose p))
    (h : c.answer id p = some c') : Move M c (.answer id) c' := by
  rw [answer] at h
  split at h
  case h_2 => cases h
  case h_1 row hround hp hs =>
    split at h
    case h_1 value hrow =>
      cases h
      exact .answer hcall hround hrow
    case h_2 =>
      cases h
      exact .answerFail hcall

/-- The case analysis of a step. -/
theorem step_move {a : Action} (h : c.step M a = some c') : Move M c a c' := by
  -- one lemma for each action that has a call; the others are unfolded here
  cases a with
  | elect id i => exact startElect_move h
  | electCrash i =>
    rw [step] at h
    split at h
    case isFalse => cases h
    case isTrue hi =>
      split at h
      case h_1 m hm => exact .electCrash hm (reopens_of_reopen h)
      case h_2 => cases h
  | ask id fate =>
    obtain ⟨e, he, h⟩ := onElect_eq_some h
    exact ask_move he h
  | count id =>
    obtain ⟨e, he, h⟩ := onElect_eq_some h
    exact count_move he h
  | finish id =>
    obtain ⟨e, he, h⟩ := onElect_eq_some h
    exact finish_move he h
  | propose id i command => exact startPropose_move h
  | enter id =>
    obtain ⟨p, hp, h⟩ := onPropose_eq_some h
    exact enter_move hp h
  | send id =>
    obtain ⟨p, hp, h⟩ := onPropose_eq_some h
    exact send_move hp h
  | deliver id fate =>
    obtain ⟨p, hp, h⟩ := onPropose_eq_some h
    exact deliver_move hp h
  | settle id =>
    obtain ⟨p, hp, h⟩ := onPropose_eq_some h
    exact settle_move hp h
  | commit id =>
    obtain ⟨p, hp, h⟩ := onPropose_eq_some h
    exact commit_move hp h
  | answer id =>
    obtain ⟨p, hp, h⟩ := onPropose_eq_some h
    exact answer_move hp h
  | abandon id =>
    rw [step] at h
    split at h
    case isFalse => cases h
    case isTrue =>
      cases h
      exact .abandon
  | restart i =>
    rw [step] at h
    split at h
    case isFalse => cases h
    case isTrue hi => exact .restart (reopens_of_reopen h)
  | requestVote i term candidateId lastLogIndex lastLogTerm =>
    rw [step] at h
    split at h
    case isFalse => cases h
    case isTrue hi =>
      obtain ⟨n, reply, hn⟩ :=
        (c.node i).requestVote_ok term candidateId lastLogIndex lastLogTerm
      rw [hn] at h
      cases h
      exact .requestVote hi hn
  | appendEntries i args =>
    rw [step] at h
    split at h
    case isFalse => cases h
    case isTrue hi =>
      cases h
      exact .appendEntries hi

end Cluster

end Moves

end EventHorizon.Raft
