import EventHorizon.Library.Machine
import EventHorizon.Raft.Node

/-!
# A cluster of Raft nodes

The nodes of one membership, and the `elect` and `propose` calls in progress on them. An action
runs one lock-protected section of one call, loses or delivers one remote call, or restarts a node
from its tables, so a run is an interleaving of the sections of all calls in any order. An action
may also run `request_vote` or `append_entries` on a node with any arguments, for a caller outside
the cluster.

Two things a node does are recorded as they happen: the votes it grants and the values its
`propose` calls return. No section reads this trace.
-/

namespace EventHorizon.Raft

/-- A membership the constructor accepts, with the order in which each node holds its peers. -/
structure Membership [Platform] where
  members : List NodeId
  odd : members.length % 2 = 1
  three_le : 3 ≤ members.length
  nodup : members.Nodup
  nonempty : "" ∉ members
  /-- The digest the databases are pinned to. -/
  pinned : String
  pinned_eq : membershipDigest members = .ok pinned
  /-- The peers of a node, in the order of the mapping `connect` was given. -/
  peers : NodeId → List NodeId
  peers_perm : ∀ n ∈ members, (peers n).Perm (members.erase n)

/-! ## Calls in progress -/

/-- An `elect` call after its first section. -/
structure ElectCall where
  node : NodeId
  electionTerm : ℕ
  lastIndex : ℕ
  lastTerm : ℕ
  /-- The peers not asked yet. -/
  pending : List NodeId
  votes : ℕ
  /-- A reply that is not counted yet. -/
  reply : Option (ℕ × Bool)
  deriving DecidableEq

/-- Where a `propose` call stands in `_replicate`. `turns` is what is left of the loop. -/
inductive Stage
  | idle
  | sending (peer : NodeId) (turns : ℕ)
  | inflight (peer : NodeId) (turns : ℕ) (message : Node.Message)
  | answered (peer : NodeId) (turns : ℕ) (message : Node.Message) (reply : AppendReply)
  deriving DecidableEq

/-- The two rounds of replication in `propose`: before the commit section and after it. -/
inductive Round
  | first
  | second (row : Option Outcome)
  deriving DecidableEq

/-- A `propose` call after its first section. -/
structure ProposeCall where
  node : NodeId
  command : Command
  /-- The term in which the command was appended. -/
  term : ℕ
  position : ℕ
  round : Round
  /-- The peers this round has not replicated to yet. -/
  pending : List NodeId
  stage : Stage
  deriving DecidableEq

inductive Call
  | elect (call : ElectCall)
  | propose (call : ProposeCall)
  deriving DecidableEq

/-- The node a call runs on. -/
def Call.node : Call → NodeId
  | .elect e => e.node
  | .propose p => p.node

/-- What the trace records. -/
inductive Event
  | granted (voter : NodeId) (term : ℕ) (candidate : NodeId)
  | returned (node : NodeId) (term position : ℕ) (command : Command) (value : Bool)
  deriving DecidableEq

/-- The nodes, the calls in progress under their identifiers, and what happened so far. -/
structure Cluster where
  node : NodeId → Node
  calls : Table ℕ Call
  trace : List Event

/-! ## Actions -/

/-- What becomes of a remote call: it is lost, or processed, or processed without its reply
arriving, or the peer crashes between its durable writes. -/
inductive Fate
  | lost
  | delivered
  | replyLost
  | peerCrash
  deriving DecidableEq, Repr

inductive Action
  /-- The first section of a new `elect` call. -/
  | elect (id : ℕ) (node : NodeId)
  /-- A crash between the two durable writes of that section. -/
  | electCrash (node : NodeId)
  /-- The next `request_vote` of an `elect` call. -/
  | ask (id : ℕ) (fate : Fate)
  /-- The section that counts the reply. -/
  | count (id : ℕ)
  /-- The last section of an `elect` call. -/
  | finish (id : ℕ)
  /-- The first section of a new `propose` call. -/
  | propose (id : ℕ) (node : NodeId) (command : Command)
  /-- A `propose` call turns to its next peer. -/
  | enter (id : ℕ)
  /-- The section of `_replicate` that builds a message. -/
  | send (id : ℕ)
  /-- The `append_entries` of that message. -/
  | deliver (id : ℕ) (fate : Fate)
  /-- The section of `_replicate` that takes the reply. -/
  | settle (id : ℕ)
  /-- The commit section of a `propose` call. -/
  | commit (id : ℕ)
  /-- A `propose` call returns or raises at its end. -/
  | answer (id : ℕ)
  /-- The caller of an `elect` or `propose` call crashes: none of its sections is left. -/
  | abandon (id : ℕ)
  /-- A crash and a restart from the tables. -/
  | restart (node : NodeId)
  /-- `request_vote` by a caller outside the cluster. -/
  | requestVote (node : NodeId) (term : ℤ) (candidateId : NodeId) (lastLogIndex lastLogTerm : ℤ)
  /-- `append_entries` by a caller outside the cluster. -/
  | appendEntries (node : NodeId) (args : AppendArgs)
  deriving DecidableEq

namespace Cluster

/-- The node takes a new value. -/
def setNode (c : Cluster) (i : NodeId) (n : Node) : Cluster :=
  { c with node := Function.update c.node i n }

def setCall (c : Cluster) (id : ℕ) (call : Call) : Cluster :=
  { c with calls := c.calls.put id call }

/-- The call returned or raised. -/
def endCall (c : Cluster) (id : ℕ) : Cluster :=
  { c with calls := c.calls.filter fun r ↦ r.1 ≠ id }

/-- The calls that run on a node end with its process. -/
def endCallsOn (c : Cluster) (i : NodeId) : Cluster :=
  { c with calls := c.calls.filter fun r ↦ r.2.node ≠ i }

def record (c : Cluster) (events : List Event) : Cluster :=
  { c with trace := c.trace ++ events }

/-- A `propose` call on the node is in progress and holds its `_proposal_lock`. -/
def proposing (c : Cluster) (i : NodeId) : Bool :=
  c.calls.any fun r ↦
    match r.2 with
    | .propose p => p.node = i
    | .elect _ => false

/-- A `propose` call on the node is between its first section and its commit section. -/
def proposingUncommitted (c : Cluster) (i : NodeId) : Bool :=
  c.calls.any fun r ↦
    match r.2 with
    | .propose p => p.node = i ∧ p.round = .first
    | .elect _ => false

end Cluster

/-- The vote a reply to `request_vote` grants. -/
def grantEvents (voter candidate : NodeId) (result : Except Exn (ℕ × Bool)) : List Event :=
  match result with
  | .ok (term, true) => [.granted voter term candidate]
  | _ => []

section Step

variable [Platform] (M : Membership)

/-- Every node opened on a new database. -/
def Membership.initialNode (i : NodeId) : Node where
  nodeId := i
  members := M.members
  db := { Database.empty with membership := some M.pinned }
  term := 0
  votedFor := ""
  commitIndex := 0
  appliedIndex := 0
  role := .follower
  leaderId := none
  next := []
  matched := []

namespace Cluster

def initial : Cluster where
  node := M.initialNode
  calls := []
  trace := []

/-- The process of a node ends with the given database and is started again on it. -/
def reopen (c : Cluster) (i : NodeId) (db : Database) : Option Cluster :=
  match Node.open i M.members db with
  | .ok n => some ((c.endCallsOn i).setNode i n)
  | .error _ => none

/-- The database of a node that crashed after the first durable write of `request_vote`. -/
def requestVoteCrash (n : Node) (term : ℤ) (candidateId : NodeId) : Database :=
  if candidateId ∉ n.members ∨ candidateId = n.nodeId ∨ term < n.term then n.db
  else
    match n.requestVoteStepDown term with
    | .error _ => n.db
    | .ok n' => n'.db

/-- The database of a node that crashed after the first durable write of `append_entries`. -/
def appendCrash (n : Node) (a : AppendArgs) : Database :=
  if a.leaderId ∉ n.members ∨ a.leaderId = n.nodeId ∨ a.term < n.term then n.db
  else
    match n.appendStepDown a.term a.leaderId with
    | .error _ => n.db
    | .ok n' => n'.db

/-- One `request_vote` of an `elect` call. An exception of the peer leaves the call. -/
def ask (c : Cluster) (id : ℕ) (e : ElectCall) (fate : Fate) : Option Cluster :=
  match e.pending, e.reply with
  | p :: rest, none =>
    let e' := { e with pending := rest }
    match fate with
    | .lost => some (c.setCall id (.elect e'))
    | .peerCrash =>
      (c.setCall id (.elect e')).reopen M p
        (requestVoteCrash (c.node p) e.electionTerm e.node)
    | .delivered =>
      let (n, result) := (c.node p).requestVote e.electionTerm e.node e.lastIndex e.lastTerm
      let c' := (c.setNode p n).record (grantEvents p e.node result)
      match result with
      | .ok reply => some (c'.setCall id (.elect { e' with reply := some reply }))
      | .error _ => some (c'.endCall id)
    | .replyLost =>
      let (n, result) := (c.node p).requestVote e.electionTerm e.node e.lastIndex e.lastTerm
      some (((c.setNode p n).record (grantEvents p e.node result)).setCall id (.elect e'))
  | _, _ => none

/-- The section of an `elect` call that counts a reply. -/
def count (c : Cluster) (id : ℕ) (e : ElectCall) : Option Cluster :=
  match e.reply with
  | some (theirTerm, grant) =>
    let (n, tally) := (c.node e.node).electCount e.electionTerm e.votes theirTerm grant
    let c' := c.setNode e.node n
    match tally with
    | .ok (.counting votes) =>
      some (c'.setCall id (.elect { e with votes := votes, reply := none }))
    | .ok .lost => some (c'.endCall id)
    | .error _ => some (c'.endCall id)
  | none => none

/-- The last section of an `elect` call. -/
def finish (c : Cluster) (id : ℕ) (e : ElectCall) : Option Cluster :=
  match e.pending, e.reply with
  | [], none =>
    some ((c.setNode e.node
      ((c.node e.node).electFinish (M.peers e.node) e.votes)).endCall id)
  | _, _ => none

/-- The section of `_replicate` that builds a message. -/
def send (c : Cluster) (id : ℕ) (p : ProposeCall) : Option Cluster :=
  match p.stage with
  | .sending _ 0 => some (c.setCall id (.propose { p with stage := .idle }))
  | .sending peer (turns + 1) =>
    match (c.node p.node).replicateSend peer with
    | .error _ => some (c.endCall id)
    | .ok none => some (c.setCall id (.propose { p with stage := .idle }))
    | .ok (some m) => some (c.setCall id (.propose { p with stage := .inflight peer turns m }))
  | _ => none

/-- The `append_entries` of a message. An exception of the peer leaves the call. -/
def deliver (c : Cluster) (id : ℕ) (p : ProposeCall) (fate : Fate) : Option Cluster :=
  match p.stage with
  | .inflight peer turns m =>
    match fate with
    | .lost => some (c.setCall id (.propose { p with stage := .idle }))
    | .peerCrash =>
      (c.setCall id (.propose { p with stage := .idle })).reopen M peer
        (appendCrash (c.node peer) m.args)
    | .delivered =>
      let (n, result) := (c.node peer).appendEntries m.args
      match result with
      | .ok r =>
        some ((c.setNode peer n).setCall id
          (.propose { p with stage := .answered peer turns m r }))
      | .error _ => some ((c.setNode peer n).endCall id)
    | .replyLost =>
      some ((c.setNode peer ((c.node peer).appendEntries m.args).1).setCall id
        (.propose { p with stage := .idle }))
  | _ => none

/-- The section of `_replicate` that takes the reply. -/
def settle (c : Cluster) (id : ℕ) (p : ProposeCall) : Option Cluster :=
  match p.stage with
  | .answered peer turns m r =>
    let (n, again) := (c.node p.node).replicateSettle peer m r
    let c' := c.setNode p.node n
    match again with
    | .ok true => some (c'.setCall id (.propose { p with stage := .sending peer turns }))
    | .ok false => some (c'.setCall id (.propose { p with stage := .idle }))
    | .error _ => some (c'.endCall id)
  | _ => none

/-- The commit section of a `propose` call. -/
def commit (c : Cluster) (id : ℕ) (p : ProposeCall) : Option Cluster :=
  match p.round, p.pending, p.stage with
  | .first, [], .idle =>
    let (n, result) := (c.node p.node).proposeCommit p.position
    let c' := c.setNode p.node n
    match result with
    | .ok row =>
      some (c'.setCall id
        (.propose { p with round := .second row, pending := M.peers p.node }))
    | .error _ => some (c'.endCall id)
  | _, _, _ => none

/-- The end of a `propose` call. -/
def answer (c : Cluster) (id : ℕ) (p : ProposeCall) : Option Cluster :=
  match p.round, p.pending, p.stage with
  | .second row, [], .idle =>
    match Node.proposeAnswer row with
    | .ok value =>
      some ((c.record [.returned p.node p.term p.position p.command value]).endCall id)
    | .error _ => some (c.endCall id)
  | _, _, _ => none

/-- An action on an `elect` call in progress. -/
def onElect (c : Cluster) (id : ℕ) (f : ElectCall → Option Cluster) : Option Cluster :=
  match c.calls.get? id with
  | some (.elect e) => f e
  | _ => none

/-- An action on a `propose` call in progress. -/
def onPropose (c : Cluster) (id : ℕ) (f : ProposeCall → Option Cluster) : Option Cluster :=
  match c.calls.get? id with
  | some (.propose p) => f p
  | _ => none

/-- The first section of `elect`. -/
def startElect (c : Cluster) (id : ℕ) (i : NodeId) : Option Cluster :=
  if i ∈ M.members ∧ c.calls.get? id = none then
    match (c.node i).electStart with
    | .ok n =>
      some (((c.setNode i n).record [.granted i n.term i]).setCall id (.elect
        { node := i
          electionTerm := n.term
          lastIndex := n.db.lastIndex
          lastTerm := n.db.lastTerm
          pending := M.peers i
          votes := 1
          reply := none }))
    | .error _ => none
  else none

/-- The first section of `propose`. A call that raises there leaves nothing behind. -/
def startPropose (c : Cluster) (id : ℕ) (i : NodeId) (command : Command) : Option Cluster :=
  if i ∈ M.members ∧ c.calls.get? id = none ∧ c.proposing i = false then
    match (c.node i).proposeAppend command with
    | .ok n =>
      some ((c.setNode i n).setCall id (.propose
        { node := i
          command := command
          term := n.term
          position := n.db.lastIndex
          round := .first
          pending := M.peers i
          stage := .idle }))
    | .error _ => some c
  else none

/-- A `propose` call turns to its next peer; the length of the loop is read without the lock. -/
def enter (c : Cluster) (id : ℕ) (p : ProposeCall) : Option Cluster :=
  match p.pending, p.stage with
  | peer :: rest, .idle =>
    some (c.setCall id (.propose
      { p with pending := rest, stage := .sending peer ((c.node p.node).db.lastIndex + 1) }))
  | _, _ => none

/-- One action of the cluster; `none` when it is not enabled. -/
def step (c : Cluster) : Action → Option Cluster
  | .elect id i => c.startElect M id i
  | .electCrash i =>
    if i ∈ M.members then
      match (c.node i).electStepDown with
      | .ok n => c.reopen M i n.db
      | .error _ => none
    else none
  | .ask id fate => c.onElect id fun e ↦ c.ask M id e fate
  | .count id => c.onElect id fun e ↦ c.count id e
  | .finish id => c.onElect id fun e ↦ c.finish M id e
  | .propose id i command => c.startPropose M id i command
  | .enter id => c.onPropose id fun p ↦ c.enter id p
  | .send id => c.onPropose id fun p ↦ c.send id p
  | .deliver id fate => c.onPropose id fun p ↦ c.deliver M id p fate
  | .settle id => c.onPropose id fun p ↦ c.settle id p
  | .commit id => c.onPropose id fun p ↦ c.commit M id p
  | .answer id => c.onPropose id fun p ↦ c.answer id p
  | .abandon id => if (c.calls.get? id).isSome then some (c.endCall id) else none
  | .restart i => if i ∈ M.members then c.reopen M i (c.node i).db else none
  | .requestVote i term candidateId lastLogIndex lastLogTerm =>
    if i ∈ M.members then
      let (n, result) := (c.node i).requestVote term candidateId lastLogIndex lastLogTerm
      some ((c.setNode i n).record (grantEvents i candidateId result))
    else none
  | .appendEntries i args =>
    if i ∈ M.members then some (c.setNode i ((c.node i).appendEntries args).1) else none

end Cluster

/-- The cluster as a machine. -/
def machine : Machine Cluster Action where
  init := Cluster.initial M
  step := Cluster.step M

end Step

/-! ## Guards

A guard restricts the interleavings by a condition on the state before a step. -/

/-- Every interleaving. -/
def anyInterleaving (_ : Cluster) (_ : Action) : Prop := True

instance (c : Cluster) (a : Action) : Decidable (anyInterleaving c a) := isTrue trivial

/-- The term that an election or a caller outside the cluster brings. -/
def Action.term? (c : Cluster) : Action → Option ℤ
  | .elect _ i => some ((c.node i).term + 1)
  | .electCrash i => some ((c.node i).term + 1)
  | .requestVote _ term _ _ _ => some term
  | .appendEntries _ args => some args.term
  | _ => none

/-- The guard of the terms: `str` spells every term that is brought to the cluster. `_step_down`
changes the memory of the node before it spells the term for the database, and raises in between
where it cannot. -/
def termsSpelled (c : Cluster) (a : Action) : Prop := ∀ t ∈ a.term? c, t < termLimit

instance (c : Cluster) (a : Action) : Decidable (termsSpelled c a) :=
  inferInstanceAs (Decidable (∀ t ∈ a.term? c, t < termLimit))

/-- The call whose last section of `elect` an action runs. -/
def Action.finish? : Action → Option ℕ
  | .finish id => some id
  | _ => none

/-- The call whose commit section of `propose` an action runs. -/
def Action.commit? : Action → Option ℕ
  | .commit id => some id
  | _ => none

/-- The `elect` call with an identifier. -/
def Cluster.elect? (c : Cluster) (id : ℕ) : Option ElectCall :=
  match c.calls.get? id with
  | some (.elect e) => some e
  | _ => none

/-- The `propose` call with an identifier. -/
def Cluster.propose? (c : Cluster) (id : ℕ) : Option ProposeCall :=
  match c.calls.get? id with
  | some (.propose p) => some p
  | _ => none

/-! ## A cluster of three -/

/-- The smallest membership, on the interpreter's platform. -/
def laboratory : @Membership pythonPlatform :=
  letI := pythonPlatform
  { members := ["a", "b", "c"]
    odd := rfl
    three_le := by decide
    nodup := by decide
    nonempty := by decide
    pinned := "eeb2bf52268446b1be84d0cec5c83bf1c3ddc43bded6bc730c50acb7dd34c175"
    pinned_eq := by decide +kernel
    peers := fun n ↦ ["a", "b", "c"].erase n
    peers_perm := fun n _ ↦ List.Perm.refl _ }

/-- A consumption that `propose` accepts. -/
def consumeCommand (token : String) : Command :=
  [("op", .str "consume"), ("scope", .str "lab"), ("capability_id", .str token),
    ("claims_digest", .str
      "0000000000000000000000000000000000000000000000000000000000000000"),
    ("expires_at", .int 2), ("consumed_at", .int 1)]

/-- A `propose` call replicates to its next peer. -/
def replicated (id : ℕ) : List Action := [.enter id, .send id, .deliver id .delivered, .settle id]

/-- A `propose` call does not reach its next peer. -/
def unreached (id : ℕ) : List Action := [.enter id, .send id, .deliver id .lost]

/-- A `propose` call that reaches the first of its two peers in both rounds. -/
def proposed (id : ℕ) (node : NodeId) (command : Command) : List Action :=
  [.propose id node command] ++ replicated id ++ unreached id ++ [.commit id] ++ replicated id ++
    unreached id ++ [.answer id]

/-- `a` is elected and appends a command. Before it replicates, `b` is elected, replaces the entry
and commits two of its own. Then `a` is elected again and its first call goes on to commit. -/
def overtaken : List Action :=
  [.elect 1 "a", .ask 1 .delivered, .count 1, .ask 1 .lost, .finish 1,
    .propose 2 "a" (consumeCommand "cap_00000000000000000000000a"),
    .elect 3 "b", .ask 3 .delivered, .count 3, .ask 3 .delivered, .count 3, .finish 3] ++
  proposed 4 "b" (consumeCommand "cap_00000000000000000000000b") ++
  proposed 5 "b" (consumeCommand "cap_00000000000000000000000c") ++
  [.elect 6 "a", .ask 6 .delivered, .count 6, .ask 6 .lost, .finish 6] ++
  replicated 2 ++ unreached 2 ++ [.commit 2]

end EventHorizon.Raft
