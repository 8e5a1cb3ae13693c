import EventHorizon.Canonical.Digest
import EventHorizon.Library.Table
import EventHorizon.Replay.State

/-!
# One Raft node

`raft_core.py`: a node of a fixed-membership Raft cluster with its hard state, log and replay
tables in SQLite. A node is its database together with what the process holds in memory; several
values (`term`, `voted_for`, `commit_index`, `applied_index`) live in both places, and the code
keeps the two copies in step by hand.

Each definition is one lock-protected section of the code, a function of the node. A section that
can raise after it has changed the node returns the changed node beside the exception. `with
self._db:` blocks are transactions: an exception inside one leaves the database as it was.

The number of replies a section waits for, and the order in which sections of different calls run,
belong to `EventHorizon.Raft.Cluster`.
-/

namespace EventHorizon.Raft

/-! ## Data -/

abbrev NodeId := String

/-- A replicated command: the fields of a JSON object. -/
abbrev Command := List (String × Json)

/-- A row of `raft_log` under its index. -/
structure Entry where
  term : ℕ
  command : Command
  deriving DecidableEq, Repr

/-- A row of `replay_results` under its index. -/
inductive Outcome
  | noop
  | fresh
  | duplicate
  | collision
  deriving DecidableEq, Repr

/-- The SQLite database of a node. The rows of `hard_state` are the first five fields, with the
default that the code reads for a missing row. -/
structure Database where
  membership : Option String
  term : ℕ
  votedFor : NodeId
  commitIndex : ℕ
  appliedIndex : ℕ
  raftLog : Table ℕ Entry
  replayResults : Table ℕ Outcome
  /-- `(scope, token)` to `(binding, expiry)`. -/
  consumed : Table (String × String) (String × ℤ)
  deriving DecidableEq

inductive Role
  | follower
  | candidate
  | leader
  deriving DecidableEq, Repr

/-- A running node: its database and the process memory beside it. -/
structure Node where
  nodeId : NodeId
  members : List NodeId
  db : Database
  term : ℕ
  votedFor : NodeId
  commitIndex : ℕ
  appliedIndex : ℕ
  role : Role
  leaderId : Option NodeId
  /-- `_next`. -/
  next : Table NodeId ℕ
  /-- `_match`. -/
  matched : Table NodeId ℕ
  deriving DecidableEq

/-- The tables that `CREATE TABLE IF NOT EXISTS` leaves in a new file. -/
def Database.empty : Database where
  membership := none
  term := 0
  votedFor := ""
  commitIndex := 0
  appliedIndex := 0
  raftLog := []
  replayResults := []
  consumed := []

/-! ## Reading the log -/

namespace Database

/-- `last_index`. -/
def lastIndex (db : Database) : ℕ := maxKey db.raftLog

/-- `_entry` for an index that is not negative. -/
def entry (db : Database) (index : ℕ) : Option Entry :=
  if index = 0 then some ⟨0, []⟩ else db.raftLog.get? index

/-- `_entry`, where it does not raise. No row has a negative index. -/
def entryAt (db : Database) (index : ℤ) : Option Entry :=
  if index < 0 then none else db.entry index.toNat

/-- `_last_term`. -/
def lastTerm (db : Database) : ℕ :=
  match db.entry db.lastIndex with
  | some e => e.term
  | none => 0

end Database

/-! ## Terms and votes -/

def raftCoreError (message : String) : Exn := ⟨.raftCoreError, message⟩

def raftCoreUnavailable (message : String) : Exn := ⟨.raftCoreUnavailable, message⟩

/-- What `sqlite3` raises for an integer beyond the 64 bits of SQLite. -/
def integerOverflow : Exn := ⟨.overflowError, "Python int too large to convert to SQLite INTEGER"⟩

/-- The least integer that `str` refuses: it spells at most 4300 digits. -/
def termLimit : ℕ := 10 ^ 4300

namespace Node

/-- The durable write of `_step_down`: a later term starts without a vote. The term is written as
its text, which the terms below `termLimit` have. -/
def adoptTerm (n : Node) (newTerm : ℕ) : Node :=
  if n.term < newTerm then
    { n with
      term := newTerm
      votedFor := ""
      db := { n.db with term := newTerm, votedFor := "" } }
  else n

/-- `_step_down`. -/
def stepDown (n : Node) (newTerm : ℕ) (leader : Option NodeId) : Except Exn Node :=
  if newTerm < n.term then .error (raftCoreError "cannot roll back Raft term")
  else .ok { n.adoptTerm newTerm with role := .follower, leaderId := leader }

/-- `(last_log_term, last_log_index) >= (self._last_term(), self.last_index)`. -/
def upToDate (n : Node) (lastLogIndex lastLogTerm : ℤ) : Bool :=
  (n.db.lastTerm : ℤ) < lastLogTerm ∨
    lastLogTerm = n.db.lastTerm ∧ (n.db.lastIndex : ℤ) ≤ lastLogIndex

/-- The first durable write of `request_vote`. -/
def requestVoteStepDown (n : Node) (term : ℤ) : Except Exn Node :=
  if (n.term : ℤ) < term then n.stepDown term.toNat none else .ok n

/-- The rest of `request_vote`, with its second durable write. -/
def requestVoteGrant (n : Node) (candidateId : NodeId) (lastLogIndex lastLogTerm : ℤ) :
    Node × (ℕ × Bool) :=
  if n.upToDate lastLogIndex lastLogTerm ∧ (n.votedFor = "" ∨ n.votedFor = candidateId) then
    ({ n with votedFor := candidateId, db := { n.db with votedFor := candidateId } },
      (n.term, true))
  else (n, (n.term, false))

/-- `request_vote`. -/
def requestVote (n : Node) (term : ℤ) (candidateId : NodeId) (lastLogIndex lastLogTerm : ℤ) :
    Node × Except Exn (ℕ × Bool) :=
  if candidateId ∉ n.members ∨ candidateId = n.nodeId then (n, .ok (n.term, false))
  else if term < n.term then (n, .ok (n.term, false))
  else
    match n.requestVoteStepDown term with
    | .error e => (n, .error e)
    | .ok n' =>
      let r := n'.requestVoteGrant candidateId lastLogIndex lastLogTerm
      (r.1, .ok r.2)

/-- The first durable write of `elect`: the next term. -/
def electStepDown (n : Node) : Except Exn Node := n.stepDown (n.term + 1) none

/-- The first section of `elect`. -/
def electStart (n : Node) : Except Exn Node := do
  let n ← n.electStepDown
  return { n with
    role := .candidate
    votedFor := n.nodeId
    db := { n.db with votedFor := n.nodeId } }

/-- What the section of `elect` after a reply decides: go on counting, or return. -/
inductive Tally
  | counting (votes : ℕ)
  | lost
  deriving DecidableEq, Repr

/-- The section of `elect` after a reply. -/
def electCount (n : Node) (electionTerm votes theirTerm : ℕ) (grant : Bool) :
    Node × Except Exn Tally :=
  if n.term < theirTerm then
    match n.stepDown theirTerm none with
    | .error e => (n, .error e)
    | .ok n' => (n', .ok .lost)
  else if n.term ≠ electionTerm ∨ n.role ≠ .candidate then (n, .ok .lost)
  else (n, .ok (.counting (votes + if grant then 1 else 0)))

/-- Whether the last section of `elect` takes the leader role. It looks at the number of votes
only. -/
def electWins (n : Node) (votes : ℕ) : Bool := !(votes ≤ n.members.length / 2)

/-- The last section of `elect`. -/
def electFinish (n : Node) (peers : List NodeId) (votes : ℕ) : Node :=
  if n.electWins votes then
    { n with
      role := .leader
      leaderId := some n.nodeId
      next := peers.map fun p ↦ (p, n.db.lastIndex + 1)
      matched := peers.map fun p ↦ (p, 0) }
  else n

end Node

/-! ## Replay of committed commands -/

/-- The text SQLite keeps for a value bound to a `TEXT NOT NULL` column. -/
def sqlText : Json → Except Exn String
  | .str s => .ok s
  | .int n => .ok (toString n)
  | .bool b => .ok (if b then "1" else "0")
  | .float f => .ok f.sqlText
  | .null => .error ⟨.sqliteError, "NOT NULL constraint failed: consumed.scope"⟩
  | .arr _ | .obj _ => .error ⟨.sqliteError, "Error binding parameter 1: type is not supported"⟩

/-- `command[key]`. -/
def Command.require (command : Command) (key : String) : Except Exn Json :=
  match Json.lookup command key with
  | some v => .ok v
  | none => .error ⟨.keyError, key⟩

/-- The `(scope, token)` row a `consume` command asks for, with its binding and expiry. -/
def Command.consumption (command : Command) : Except Exn ((String × String) × (String × ℤ)) := do
  let scope ← command.require "scope"
  let token ← command.require "capability_id"
  let binding ← command.require "claims_digest"
  let expiry ← command.require "expires_at"
  let consumedAt ← command.require "consumed_at"
  let c ← Replay.validateTransition token binding expiry consumedAt
  let scope ← sqlText scope
  return ((scope, c.capabilityId), (c.claimsDigest, c.expiresAt))

/-- The decision on one committed command and the table of consumed tokens after it. -/
def replayCommand (consumed : Table (String × String) (String × ℤ)) (command : Command) :
    Except Exn (Outcome × Table (String × String) (String × ℤ)) :=
  match Json.lookup command "op" with
  | some (.str "noop") => .ok (.noop, consumed)
  | some (.str "consume") => do
    let (key, claim) ← command.consumption
    let consumed' := consumed.insertNew key claim
    if consumed'.get? key ≠ some claim then return (.collision, consumed')
    else if (consumed.get? key).isSome then return (.duplicate, consumed')
    else return (.fresh, consumed')
  | _ => .error (raftCoreError "unrecognized committed command")

namespace Node

/-- One turn of the loop of `_apply_committed`. -/
def applyNext (n : Node) : Except Exn Node :=
  let index := n.appliedIndex + 1
  match n.db.entry index with
  | none => .error (raftCoreError "committed Raft entry missing")
  | some e => do
    let (result, consumed) ← replayCommand n.db.consumed e.command
    return { n with
      appliedIndex := index
      db := { n.db with
        consumed := consumed
        replayResults := n.db.replayResults.insertNew index result
        appliedIndex := index } }

/-- At most `fuel` turns of the loop of `_apply_committed`. -/
def applyLoop : ℕ → Node → Except Exn Node
  | 0, n => .ok n
  | fuel + 1, n =>
    if n.appliedIndex < n.commitIndex then do
      let n ← n.applyNext
      applyLoop fuel n
    else .ok n

/-- `_apply_committed`. Every turn closes the distance between the two indices by one. -/
def applyCommitted (n : Node) : Except Exn Node := applyLoop (n.commitIndex - n.appliedIndex) n

/-- `_restore_committed_indices`, after a rollback. -/
def restoreCommittedIndices (n : Node) : Node × Except Exn Unit :=
  let n' := { n with commitIndex := n.db.commitIndex, appliedIndex := n.db.appliedIndex }
  if n'.appliedIndex ≤ n'.commitIndex ∧ n'.commitIndex ≤ n'.db.lastIndex then (n', .ok ())
  else (n', .error (raftCoreError "Raft indices became inconsistent after rollback"))

end Node

/-! ## Opening a database -/

section Open

variable [Platform]

/-- The digest of the member tuple that a database is pinned to. -/
def membershipDigest (members : List NodeId) : Except Exn String :=
  digest (.obj [("cluster", .arr (members.map .str))])

/-- `DurableRaftNode.__init__` on an existing or a new database. -/
def Node.open (nodeId : NodeId) (members : List NodeId) (db : Database) : Except Exn Node := do
  if nodeId = "" then throw ⟨.valueError, "Raft node identity required"⟩
  if members.length % 2 ≠ 1 ∨ members.length < 3 ∨ ¬members.Nodup ∨ nodeId ∉ members ∨
      "" ∈ members then
    throw ⟨.valueError, "Raft laboratory requires a fixed odd-sized cluster >=3"⟩
  let expected ← membershipDigest members
  match db.membership with
  | some old =>
    if old ≠ expected then
      throw (raftCoreError "durable Raft membership mismatch on restart")
  | none => pure ()
  let db := { db with membership := some expected }
  if db.raftLog.length ≠ db.lastIndex then throw (raftCoreError "durable Raft log has a gap")
  if ¬(db.appliedIndex ≤ db.commitIndex ∧ db.commitIndex ≤ db.lastIndex) then
    throw (raftCoreError "durable Raft checkpoint is invalid")
  Node.applyCommitted
    { nodeId := nodeId
      members := members
      db := db
      term := db.term
      votedFor := db.votedFor
      commitIndex := db.commitIndex
      appliedIndex := db.appliedIndex
      role := .follower
      leaderId := none
      next := []
      matched := [] }

end Open

/-! ## Replication -/

/-- The command as `canonical_bytes` stores it and `json.loads` reads it back. -/
def canonicalCommand [Platform] (command : Command) : Except Exn Command :=
  (canonical (.obj command)).map fun v ↦ (v.fields?).getD []

/-- The arguments of an `append_entries` call. -/
structure AppendArgs where
  term : ℤ
  leaderId : NodeId
  prevIndex : ℤ
  prevTerm : ℤ
  entries : List Json
  leaderCommit : ℤ
  deriving DecidableEq

/-- The reply of `append_entries`: the follower's term, whether it accepted, and an index. -/
structure AppendReply where
  term : ℕ
  accepted : Bool
  index : ℕ
  deriving DecidableEq, Repr

/-- The entry in one item of an `append_entries` call, if it is well formed and has the next
index. -/
def parseItem (cursor : ℕ) (item : Json) : Option Entry := do
  let fields ← item.fields?
  let index ← (Json.lookup fields "index").bind Json.int?
  let term ← (Json.lookup fields "term").bind Json.int?
  let command ← (Json.lookup fields "command").bind Json.fields?
  if 1 ≤ term ∧ index = cursor + 1 then some ⟨term.toNat, command⟩ else none

/-- The validation loop of `append_entries`, from the index before the first item. -/
def parseItems : ℕ → List Json → Except Exn (List Entry)
  | _, [] => .ok []
  | cursor, item :: items =>
    match parseItem cursor item with
    | none => .error (raftCoreError "invalid replicated Raft log entry")
    | some e => do
      let es ← parseItems (cursor + 1) items
      return e :: es

/-- `{"index": idx, "term": item[0], "command": item[1]}`. -/
def wireItem (index : ℕ) (e : Entry) : Json :=
  .obj [("index", .int index), ("term", .int e.term), ("command", .obj e.command)]

section Append

variable [Platform]

namespace Database

/-- `INSERT INTO raft_log`. That SQLite has room for the row is not modelled. -/
def insertEntry (db : Database) (index : ℕ) (e : Entry) : Except Exn Database := do
  let command ← canonicalCommand e.command
  if 2 ^ 63 ≤ e.term then throw integerOverflow
  if (db.raftLog.get? index).isSome then
    throw ⟨.sqliteError, "UNIQUE constraint failed: raft_log.idx"⟩
  return { db with raftLog := db.raftLog ++ [(index, ⟨e.term, command⟩)] }

/-- `DELETE FROM raft_log WHERE idx >= index`. -/
def deleteFrom (db : Database) (index : ℕ) : Database :=
  { db with raftLog := db.raftLog.filter fun r ↦ r.1 < index }

/-- One turn of the loop of `append_entries` inside its transaction. -/
def appendItem (db : Database) (commitIndex index : ℕ) (e : Entry) : Except Exn Database :=
  match db.entry index with
  | none => db.insertEntry index e
  | some old =>
    if old.term ≠ e.term ∨ !(Json.obj old.command).pyEq (.obj e.command) then
      if index ≤ commitIndex then
        .error (raftCoreError "attempted truncation of committed log")
      else (db.deleteFrom index).insertEntry index e
    else .ok db

/-- The loop of `append_entries` inside its transaction, from the index of the first item. -/
def appendItems (commitIndex : ℕ) : Database → ℕ → List Entry → Except Exn Database
  | db, _, [] => .ok db
  | db, index, e :: es => do
    let db ← db.appendItem commitIndex index e
    appendItems commitIndex db (index + 1) es

end Database

namespace Node

/-- `self.commit_index = value` with its row in `hard_state`. -/
def setCommitIndex (n : Node) (value : ℕ) : Node :=
  { n with commitIndex := value, db := { n.db with commitIndex := value } }

/-- The transaction of `append_entries`. -/
def appendTransaction (n : Node) (first : ℕ) (es : List Entry) (leaderCommit : ℤ) :
    Except Exn Node := do
  let db ← Database.appendItems n.commitIndex n.db first es
  let n := { n with db := db }
  let n :=
    if (n.commitIndex : ℤ) < leaderCommit then
      n.setCommitIndex (min leaderCommit.toNat n.db.lastIndex)
    else n
  n.applyCommitted

/-- An exception inside a transaction: the database is rolled back, the indices are read again,
and the exception is raised on. -/
def rollback (n : Node) (e : Exn) : Node × Exn :=
  match n.restoreCommittedIndices with
  | (n', .ok ()) => (n', e)
  | (n', .error e') => (n', e')

/-- The first durable write of `append_entries`, or the note of who leads. -/
def appendStepDown (n : Node) (term : ℤ) (leaderId : NodeId) : Except Exn Node :=
  if (n.term : ℤ) < term ∨ n.role ≠ .follower then n.stepDown term.toNat (some leaderId)
  else .ok { n with leaderId := some leaderId }

/-- `append_entries` once the follower has stepped down. -/
def appendAccept (n : Node) (a : AppendArgs) : Node × Except Exn AppendReply :=
  match n.db.entryAt a.prevIndex with
  | none =>
    -- to look for a row beyond the integers of SQLite raises
    if a.prevIndex < -(2 ^ 63 : ℕ) ∨ (2 ^ 63 : ℕ) ≤ a.prevIndex then (n, .error integerOverflow)
    else (n, .ok ⟨n.term, false, n.db.lastIndex⟩)
  | some prev =>
    if (prev.term : ℤ) ≠ a.prevTerm then (n, .ok ⟨n.term, false, n.db.lastIndex⟩)
    else
      match parseItems a.prevIndex.toNat a.entries with
      | .error e => (n, .error e)
      | .ok es =>
        match n.appendTransaction (a.prevIndex.toNat + 1) es a.leaderCommit with
        | .error e =>
          let r := n.rollback e
          (r.1, .error r.2)
        | .ok n' => (n', .ok ⟨n'.term, true, a.prevIndex.toNat + es.length⟩)

/-- `append_entries`. -/
def appendEntries (n : Node) (a : AppendArgs) : Node × Except Exn AppendReply :=
  if a.leaderId ∉ n.members ∨ a.leaderId = n.nodeId then
    (n, .ok ⟨n.term, false, n.db.lastIndex⟩)
  else if a.term < n.term then (n, .ok ⟨n.term, false, n.db.lastIndex⟩)
  else
    match n.appendStepDown a.term a.leaderId with
    | .error e => (n, .error e)
    | .ok n' => n'.appendAccept a

end Node

end Append

namespace Node

/-- The rows from `first` on, as `_replicate` reads them one by one. -/
def wireItems (db : Database) : ℕ → ℕ → Except Exn (List Json)
  | _, 0 => .ok []
  | index, count + 1 =>
    match db.entry index with
    | none => .error (raftCoreError "leader log has a gap")
    | some e => do
      let items ← wireItems db (index + 1) count
      return wireItem index e :: items

/-- A message of `_replicate` and the index it was built from. -/
structure Message where
  nextIndex : ℕ
  args : AppendArgs
  deriving DecidableEq

/-- The first section of a turn of `_replicate`: `none` when the node no longer leads. -/
def replicateSend (n : Node) (peerId : NodeId) : Except Exn (Option Message) :=
  if n.role ≠ .leader then .ok none
  else
    let nextIndex := (n.next.get? peerId).getD (n.db.lastIndex + 1)
    match n.db.entryAt ((nextIndex : ℤ) - 1) with
    | none => .error (raftCoreError "leader log has a gap")
    | some previous => do
      let entries ← wireItems n.db nextIndex (n.db.lastIndex + 1 - nextIndex)
      return some
        { nextIndex := nextIndex
          args :=
            { term := n.term
              leaderId := n.nodeId
              prevIndex := (nextIndex : ℤ) - 1
              prevTerm := previous.term
              entries := entries
              leaderCommit := n.commitIndex } }

/-- The second section of a turn of `_replicate`; the flag says whether the loop goes on. -/
def replicateSettle (n : Node) (peerId : NodeId) (m : Message) (r : AppendReply) :
    Node × Except Exn Bool :=
  if n.term < r.term then
    match n.stepDown r.term none with
    | .error e => (n, .error e)
    | .ok n' => (n', .ok false)
  else if n.role ≠ .leader ∨ (n.term : ℤ) ≠ m.args.term then (n, .ok false)
  else if r.accepted then
    ({ n with
      matched := n.matched.put peerId r.index
      next := n.next.put peerId (r.index + 1) }, .ok false)
  else if m.nextIndex ≤ 1 then (n, .ok false)
  else ({ n with next := n.next.put peerId (m.nextIndex - 1) }, .ok true)

/-! ## Proposals -/

/-- The validation at the start of `propose`. -/
def checkProposal (command : Command) : Except Exn Unit := do
  match Json.lookup command "op", Json.lookup command "scope" with
  | some (.str "consume"), some (.str scope) =>
    if scope = "" then
      throw ⟨.valueError, "only scoped consumption commands are allowed"⟩
  | _, _ => throw ⟨.valueError, "only scoped consumption commands are allowed"⟩
  let token ← command.require "capability_id"
  let binding ← command.require "claims_digest"
  let expiry ← command.require "expires_at"
  let consumedAt ← command.require "consumed_at"
  let _ ← Replay.validateTransition token binding expiry consumedAt

/-- The first section of `propose`: the leader appends the command to its own log. -/
def proposeAppend [Platform] (n : Node) (command : Command) : Except Exn Node := do
  checkProposal command
  if n.role ≠ .leader then throw (raftCoreUnavailable "Raft node is not leader")
  let db ← n.db.insertEntry (n.db.lastIndex + 1) ⟨n.term, command⟩
  return { n with db := db }

/-- `1 + sum(int(idx >= position) for idx in self._match.values())`. -/
def acknowledgements (n : Node) (position : ℕ) : ℕ :=
  1 + n.matched.countP fun r ↦ position ≤ r.2

/-- Whether the commit section of `propose` goes on to write the commit index. -/
def commits (n : Node) (position : ℕ) : Bool :=
  n.role = .leader ∧ n.members.length / 2 < n.acknowledgements position

/-- An exception inside the transaction of the commit section: as in `append_entries`, and the node
gives up the role unless the indices are found inconsistent. -/
def giveUp (n : Node) (e : Exn) : Node × Exn :=
  match n.restoreCommittedIndices with
  | (n', .ok ()) => ({ n' with role := .follower, leaderId := none }, e)
  | (n', .error e') => (n', e')

/-- The commit section of `propose`. -/
def proposeCommit (n : Node) (position : ℕ) : Node × Except Exn (Option Outcome) :=
  if n.role ≠ .leader then
    (n, .error (raftCoreUnavailable "Raft leader lost term during proposal"))
  else if n.acknowledgements position ≤ n.members.length / 2 then
    (n, .error (raftCoreUnavailable "Raft proposal not durably acknowledged by quorum"))
  else
    match (n.setCommitIndex position).applyCommitted with
    | .error e =>
      let r := n.giveUp e
      (r.1, .error r.2)
    | .ok n' => (n', .ok (n'.db.replayResults.get? position))

/-- The end of `propose`: what it returns for the row it read. -/
def proposeAnswer (row : Option Outcome) : Except Exn Bool :=
  match row with
  | none => .error ⟨.typeError, "'NoneType' object is not subscriptable"⟩
  | some .collision =>
    .error ⟨.capabilityConsumptionError, "capability ID collided with different signed claims"⟩
  | some r => .ok (r = .fresh)

end Node

end EventHorizon.Raft
