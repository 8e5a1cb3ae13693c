import EventHorizon.Raft.Durable

/-!
# What each section does to a consistent node

A section of the code changes a consistent node in one of few ways. `Node.withVote` rewrites the
term, the vote and the role, in memory and in the database; `Node.withLog` rewrites the log, the
commit index and the replay tables. The lemmas below say, section by section, which of these it
makes, under what condition and with what result; no later proof unfolds a section.
-/

namespace EventHorizon.Raft

namespace Node

/-! ## The two rewrites -/

/-- The node with another term, vote, role and known leader. -/
def withVote (n : Node) (term : ℕ) (votedFor : NodeId) (role : Role) (leaderId : Option NodeId) :
    Node :=
  { n with
    term := term
    votedFor := votedFor
    role := role
    leaderId := leaderId
    db := { n.db with term := term, votedFor := votedFor } }

/-- The node with another log, committed and replayed up to `k`. -/
def withLog (n : Node) (l : List Entry) (k : ℕ) (rs : List Outcome)
    (consumed : Table (String × String) (String × ℤ)) : Node :=
  { n with
    commitIndex := k
    appliedIndex := k
    db := { n.db with
      raftLog := numberedFrom 1 l
      commitIndex := k
      appliedIndex := k
      replayResults := numberedFrom 1 rs
      consumed := consumed } }

/-- The node after a crash and a restart. -/
def restarted (n : Node) : Node :=
  { n with role := .follower, leaderId := none, next := [], matched := [] }

/-- The log of a node. -/
abbrev log (n : Node) : List Entry := n.db.log

/-- The vote that is in force once a term is adopted. -/
def voteAt (n : Node) (term : ℕ) : NodeId := if n.term < term then "" else n.votedFor

section Projections

variable {n : Node} {t k : ℕ} {v : NodeId} {r : Role} {x : Option NodeId} {l : List Entry}
  {rs : List Outcome} {c : Table (String × String) (String × ℤ)}

@[simp] theorem withVote_term : (n.withVote t v r x).term = t := rfl
@[simp] theorem withVote_votedFor : (n.withVote t v r x).votedFor = v := rfl
@[simp] theorem withVote_role : (n.withVote t v r x).role = r := rfl
@[simp] theorem withVote_log : (n.withVote t v r x).db.log = n.db.log := rfl
@[simp] theorem withVote_results : (n.withVote t v r x).db.results = n.db.results := rfl
@[simp] theorem withVote_consumed : (n.withVote t v r x).db.consumed = n.db.consumed := rfl
@[simp] theorem withVote_commitIndex : (n.withVote t v r x).commitIndex = n.commitIndex := rfl
@[simp] theorem withVote_nodeId : (n.withVote t v r x).nodeId = n.nodeId := rfl
@[simp] theorem withVote_members : (n.withVote t v r x).members = n.members := rfl
@[simp] theorem withVote_matched : (n.withVote t v r x).matched = n.matched := rfl
@[simp] theorem withVote_next : (n.withVote t v r x).next = n.next := rfl

@[simp] theorem withLog_term : (n.withLog l k rs c).term = n.term := rfl
@[simp] theorem withLog_votedFor : (n.withLog l k rs c).votedFor = n.votedFor := rfl
@[simp] theorem withLog_role : (n.withLog l k rs c).role = n.role := rfl
@[simp] theorem withLog_commitIndex : (n.withLog l k rs c).commitIndex = k := rfl
@[simp] theorem withLog_consumed : (n.withLog l k rs c).db.consumed = c := rfl
@[simp] theorem withLog_nodeId : (n.withLog l k rs c).nodeId = n.nodeId := rfl
@[simp] theorem withLog_members : (n.withLog l k rs c).members = n.members := rfl
@[simp] theorem withLog_matched : (n.withLog l k rs c).matched = n.matched := rfl
@[simp] theorem withLog_next : (n.withLog l k rs c).next = n.next := rfl

@[simp] theorem withLog_log : (n.withLog l k rs c).db.log = l := map_snd_numberedFrom 1 l

@[simp] theorem withLog_results : (n.withLog l k rs c).db.results = rs := map_snd_numberedFrom 1 rs

@[simp] theorem restarted_term : n.restarted.term = n.term := rfl
@[simp] theorem restarted_votedFor : n.restarted.votedFor = n.votedFor := rfl
@[simp] theorem restarted_role : n.restarted.role = .follower := rfl
@[simp] theorem restarted_db : n.restarted.db = n.db := rfl
@[simp] theorem restarted_commitIndex : n.restarted.commitIndex = n.commitIndex := rfl
@[simp] theorem restarted_nodeId : n.restarted.nodeId = n.nodeId := rfl

end Projections

variable {pinned : String} {members : List NodeId} {i : NodeId} {n n' : Node}

theorem Consistent.withVote (h : n.Consistent pinned members i) (t : ℕ) (v : NodeId) (r : Role)
    (x : Option NodeId) : (n.withVote t v r x).Consistent pinned members i where
  nodeId := h.nodeId
  members := h.members
  db := ⟨h.db.membership, h.db.rows, h.db.applied, h.db.commit_le, h.db.resultRows, h.db.replayed⟩
  term := rfl
  votedFor := rfl
  commitIndex := h.commitIndex
  appliedIndex := h.appliedIndex

theorem Consistent.withLog (h : n.Consistent pinned members i) {l : List Entry} {k : ℕ}
    {rs : List Outcome} {c : Table (String × String) (String × ℤ)} (hk : k ≤ l.length)
    (hrep : replayFrom [] (l.take k) = .ok (rs, c)) :
    (n.withLog l k rs c).Consistent pinned members i where
  nodeId := h.nodeId
  members := h.members
  db :=
    { membership := h.db.membership
      rows := by rw [withLog_log]; rfl
      applied := rfl
      commit_le := by rw [withLog_log]; exact hk
      resultRows := by rw [withLog_results]; rfl
      replayed := by rw [withLog_log, withLog_results]; exact hrep }
  term := h.term
  votedFor := h.votedFor
  commitIndex := rfl
  appliedIndex := rfl

theorem Consistent.restarted (h : n.Consistent pinned members i) :
    n.restarted.Consistent pinned members i := ⟨h.1, h.2, h.3, h.4, h.5, h.6, h.7⟩

/-- Role, leader and replication tables are not part of the durable state. -/
theorem Consistent.volatile (h : n.Consistent pinned members i) (r : Role) (x : Option NodeId)
    (next matched : Table NodeId ℕ) :
    { n with role := r, leaderId := x, next := next, matched := matched }.Consistent pinned members
      i := ⟨h.1, h.2, h.3, h.4, h.5, h.6, h.7⟩

theorem Consistent.commit_le (h : n.Consistent pinned members i) :
    n.commitIndex ≤ n.log.length := h.commitIndex ▸ h.db.commit_le

theorem Consistent.replayed (h : n.Consistent pinned members i) :
    replayFrom [] (n.log.take n.commitIndex) = .ok (n.db.results, n.db.consumed) :=
  h.commitIndex ▸ h.db.replayed

theorem Consistent.applied_eq (h : n.Consistent pinned members i) :
    n.appliedIndex = n.commitIndex := by
  rw [← h.appliedIndex, ← h.commitIndex, h.db.applied]

theorem Consistent.lastIndex_eq (h : n.Consistent pinned members i) :
    n.db.lastIndex = n.log.length := Database.lastIndex_eq h.db.rows

theorem Consistent.applying (h : n.Consistent pinned members i) :
    n.Applying n.log n.db.results where
  rows := h.db.rows
  resultRows := h.db.resultRows
  appliedIndex := h.appliedIndex
  applied_le := h.applied_eq ▸ h.commit_le
  replayed := h.applied_eq ▸ h.replayed

/-- A rewrite that changes nothing. -/
theorem Consistent.withVote_self (h : n.Consistent pinned members i) (r : Role)
    (x : Option NodeId) :
    n.withVote n.term n.votedFor r x = { n with role := r, leaderId := x } := by
  have ht := h.term
  have hv := h.votedFor
  obtain ⟨nodeId, members, db, term, votedFor, commitIndex, appliedIndex, role, leaderId, next,
    matched⟩ := n
  simp only at ht hv
  rw [Node.withVote, ← ht, ← hv]

/-- The log rewritten with the replay tables left as they are. -/
theorem Consistent.setLog_eq (h : n.Consistent pinned members i) (l : List Entry) :
    { n with db := { n.db with raftLog := numberedFrom 1 l } } =
      n.withLog l n.commitIndex n.db.results n.db.consumed := by
  have hres := h.db.resultRows
  have hc := h.commitIndex
  have ha := h.appliedIndex
  have happ := h.applied_eq
  obtain ⟨nodeId, members, ⟨membership, dterm, dvote, dcommit, dapplied, raftLog, replayResults,
    consumed⟩, term, votedFor, commitIndex, appliedIndex, role, leaderId, next, matched⟩ := n
  simp only at hres hc ha happ
  simp only [Node.withLog, ← hres]
  rw [← hc, ha, happ, ← hc]

/-! ## Terms and votes -/

theorem Consistent.stepDown_eq (h : n.Consistent pinned members i) {t : ℕ} (ht : n.term ≤ t)
    (x : Option NodeId) : n.stepDown t x = .ok (n.withVote t (n.voteAt t) .follower x) := by
  rw [stepDown, if_neg (Nat.not_lt.mpr ht), adoptTerm, voteAt]
  by_cases hlt : n.term < t
  · rw [if_pos hlt, if_pos hlt]
    rfl
  · have heq : t = n.term := by omega
    rw [if_neg hlt, if_neg hlt, heq, h.withVote_self]

theorem Consistent.requestVoteStepDown_eq (h : n.Consistent pinned members i) {t : ℤ}
    (ht : (n.term : ℤ) ≤ t) : ∃ r x, (r = .follower ∨ t.toNat = n.term ∧ r = n.role) ∧
      n.requestVoteStepDown t = .ok (n.withVote t.toNat (n.voteAt t.toNat) r x) := by
  rw [requestVoteStepDown]
  by_cases hlt : (n.term : ℤ) < t
  · rw [if_pos hlt, h.stepDown_eq (by omega)]
    exact ⟨.follower, none, .inl rfl, rfl⟩
  · have heq : t.toNat = n.term := by omega
    refine ⟨n.role, n.leaderId, .inr ⟨heq, rfl⟩, ?_⟩
    rw [if_neg hlt, heq, voteAt, if_neg (Nat.lt_irrefl _), h.withVote_self]

theorem requestVoteGrant_withVote (t : ℕ) (v : NodeId) (r : Role) (x : Option NodeId) (c : NodeId)
    (li lt : ℤ) :
    (n.withVote t v r x).requestVoteGrant c li lt =
      if n.upToDate li lt ∧ (v = "" ∨ v = c) then (n.withVote t c r x, (t, true))
      else (n.withVote t v r x, (t, false)) := rfl

/-- `request_vote` refuses, or it adopts the term and decides on the vote in force there. -/
theorem Consistent.requestVote_cases (h : n.Consistent pinned members i) (t : ℤ) (c : NodeId)
    (li lt : ℤ) :
    n.requestVote t c li lt = (n, .ok (n.term, false)) ∨
    c ≠ n.nodeId ∧ (n.term : ℤ) ≤ t ∧ ∃ r x, (r = .follower ∨ t.toNat = n.term ∧ r = n.role) ∧
      (n.upToDate li lt = true ∧ (n.voteAt t.toNat = "" ∨ n.voteAt t.toNat = c) ∧
        n.requestVote t c li lt = (n.withVote t.toNat c r x, .ok (t.toNat, true)) ∨
      n.requestVote t c li lt =
        (n.withVote t.toNat (n.voteAt t.toNat) r x, .ok (t.toNat, false))) := by
  rw [requestVote]
  by_cases hc : c ∉ n.members ∨ c = n.nodeId
  · rw [if_pos hc]
    exact .inl rfl
  by_cases ht : t < n.term
  · rw [if_neg hc, if_pos ht]
    exact .inl rfl
  obtain ⟨r, x, hr, hstep⟩ := h.requestVoteStepDown_eq (Int.not_lt.mp ht)
  refine .inr ⟨fun hci ↦ hc (.inr hci), Int.not_lt.mp ht, r, x, hr, ?_⟩
  rw [if_neg hc, if_neg ht, hstep]
  dsimp only
  rw [requestVoteGrant_withVote]
  by_cases hg : n.upToDate li lt = true ∧ (n.voteAt t.toNat = "" ∨ n.voteAt t.toNat = c)
  · rw [if_pos hg]
    exact .inl ⟨hg.1, hg.2, rfl⟩
  · rw [if_neg hg]
    exact .inr rfl

theorem Consistent.electStepDown_eq (h : n.Consistent pinned members i) :
    n.electStepDown = .ok (n.withVote (n.term + 1) "" .follower none) := by
  rw [electStepDown, h.stepDown_eq (Nat.le_succ _), voteAt, if_pos (Nat.lt_succ_self _)]

theorem Consistent.electStart_eq (h : n.Consistent pinned members i) :
    n.electStart = .ok (n.withVote (n.term + 1) n.nodeId .candidate none) := by
  rw [electStart, h.electStepDown_eq]
  rfl

/-- A reply with a later term ends the election; so does any change of term or role. -/
theorem Consistent.electCount_cases (h : n.Consistent pinned members i)
    (electionTerm votes theirTerm : ℕ) (grant : Bool) :
    n.term < theirTerm ∧ n.electCount electionTerm votes theirTerm grant =
      (n.withVote theirTerm "" .follower none, .ok .lost) ∨
    n.electCount electionTerm votes theirTerm grant = (n, .ok .lost) ∨
    theirTerm ≤ n.term ∧ n.term = electionTerm ∧ n.role = .candidate ∧
      n.electCount electionTerm votes theirTerm grant =
        (n, .ok (.counting (votes + if grant then 1 else 0))) := by
  rw [electCount]
  by_cases hlt : n.term < theirTerm
  · rw [if_pos hlt, h.stepDown_eq (Nat.le_of_lt hlt), voteAt, if_pos hlt]
    exact .inl ⟨hlt, rfl⟩
  by_cases hne : n.term ≠ electionTerm ∨ n.role ≠ .candidate
  · rw [if_neg hlt, if_pos hne]
    exact .inr (.inl rfl)
  · rw [if_neg hlt, if_neg hne]
    rw [not_or, not_not, not_not] at hne
    exact .inr (.inr ⟨Nat.not_lt.mp hlt, hne.1, hne.2, rfl⟩)

/-! ## Replication -/

theorem Consistent.replicateSettle_cases (h : n.Consistent pinned members i) (peer : NodeId)
    (m : Message) (r : AppendReply) :
    n.term < r.term ∧ n.replicateSettle peer m r =
      (n.withVote r.term "" .follower none, .ok false) ∨
    n.replicateSettle peer m r = (n, .ok false) ∨
    n.role = .leader ∧ (n.term : ℤ) = m.args.term ∧ r.accepted = true ∧
      n.replicateSettle peer m r =
        ({ n with
          matched := n.matched.put peer r.index
          next := n.next.put peer (r.index + 1) }, .ok false) ∨
    1 < m.nextIndex ∧ n.replicateSettle peer m r =
      ({ n with next := n.next.put peer (m.nextIndex - 1) }, .ok true) := by
  rw [replicateSettle]
  by_cases hlt : n.term < r.term
  · rw [if_pos hlt, h.stepDown_eq (Nat.le_of_lt hlt), voteAt, if_pos hlt]
    exact .inl ⟨hlt, rfl⟩
  by_cases hne : n.role ≠ .leader ∨ (n.term : ℤ) ≠ m.args.term
  · rw [if_neg hlt, if_pos hne]
    exact .inr (.inl rfl)
  rw [if_neg hlt, if_neg hne]
  rw [not_or, not_not, not_not] at hne
  by_cases hacc : r.accepted = true
  · rw [if_pos hacc]
    exact .inr (.inr (.inl ⟨hne.1, hne.2, hacc, rfl⟩))
  rw [if_neg hacc]
  by_cases hone : m.nextIndex ≤ 1
  · rw [if_pos hone]
    exact .inr (.inl rfl)
  · rw [if_neg hone]
    exact .inr (.inr (.inr ⟨Nat.not_le.mp hone, rfl⟩))

end Node

/-! ## Splicing entries into a log -/

section Append

variable [Platform] {commit : ℕ} {l l' : List Entry} {es : List Entry} {k : ℕ}

/-- `Spliced commit l k es l'`: the loop of `append_entries` turns the log `l` into `l'` when the
entries `es` belong after its first `k`. An entry that is there already is kept; one that is not is
written, and with it goes everything from its place on. -/
inductive Spliced (commit : ℕ) : List Entry → ℕ → List Entry → List Entry → Prop
  | nil {l : List Entry} {k : ℕ} : Spliced commit l k [] l
  | keep {l l' : List Entry} {k : ℕ} {e old : Entry} {es : List Entry} (hold : l[k]? = some old)
      (hterm : old.term = e.term) (heq : (Json.obj old.command).pyEq (.obj e.command) = true)
      (h : Spliced commit l (k + 1) es l') : Spliced commit l k (e :: es) l'
  | write {l l' : List Entry} {k : ℕ} {e : Entry} {command : Command} {es : List Entry}
      (hk : k ≤ l.length) (hcommit : commit ≤ k)
      (hcommand : canonicalCommand e.command = .ok command)
      (hnew : ∀ old, l[k]? = some old → old.term = e.term →
        (Json.obj old.command).pyEq (.obj e.command) = false)
      (h : Spliced commit (l.take k ++ [⟨e.term, command⟩]) (k + 1) es l') :
      Spliced commit l k (e :: es) l'

/-- Splicing leaves the committed prefix. -/
theorem Spliced.take_commit (h : Spliced commit l k es l') (hc : commit ≤ l.length) :
    l'.take commit = l.take commit ∧ commit ≤ l'.length := by
  induction h with
  | nil => exact ⟨rfl, hc⟩
  | keep _ _ _ _ ih => exact ih hc
  | @write l l' k e command es hk hcommit _ _ _ ih =>
    have hlen : (l.take k).length = k := by rw [List.length_take, Nat.min_eq_left hk]
    obtain ⟨htake, hle⟩ := ih (by rw [List.length_append, hlen]; omega)
    refine ⟨?_, hle⟩
    rw [htake, List.take_append_of_le_length (by omega), List.take_take, Nat.min_eq_left hcommit]

theorem Database.insertEntry_eq_ok {db db' : Database} {index : ℕ} {e : Entry} :
    db.insertEntry index e = .ok db' ↔ ∃ command, canonicalCommand e.command = .ok command ∧
      e.term < 2 ^ 63 ∧ db.raftLog.get? index = none ∧
      db' = { db with raftLog := db.raftLog ++ [(index, ⟨e.term, command⟩)] } := by
  rw [insertEntry, bind_eq_ok]
  constructor
  · rintro ⟨command, hcommand, h⟩
    obtain ⟨hterm, h⟩ := throw_if_eq_ok.mp h
    obtain ⟨hfree, h⟩ := throw_if_eq_ok.mp h
    rw [Bool.not_eq_true, Option.isSome_eq_false_iff, Option.isNone_iff_eq_none] at hfree
    exact ⟨command, hcommand, Nat.not_le.mp hterm, hfree, (Except.ok.inj h).symm⟩
  · rintro ⟨command, hcommand, hterm, hfree, rfl⟩
    refine ⟨command, hcommand, throw_if_eq_ok.mpr ⟨Nat.not_le.mpr hterm, ?_⟩⟩
    refine throw_if_eq_ok.mpr ⟨?_, rfl⟩
    rw [hfree]
    exact Bool.false_ne_true

/-- A row written after the last one of a log without a gap. -/
theorem Database.insertEntry_next {db db' : Database} (h : db.raftLog = numberedFrom 1 l)
    {e : Entry}
    (hins : db.insertEntry (l.length + 1) e = .ok db') :
    ∃ command, canonicalCommand e.command = .ok command ∧ e.term < 2 ^ 63 ∧
      db' = { db with raftLog := numberedFrom 1 (l ++ [⟨e.term, command⟩]) } := by
  obtain ⟨command, hcommand, hterm, -, rfl⟩ := insertEntry_eq_ok.mp hins
  refine ⟨command, hcommand, hterm, ?_⟩
  rw [numberedFrom_append_singleton, ← h, Nat.add_comm 1]

theorem Database.appendItem_cases {db db' : Database} (h : db.raftLog = numberedFrom 1 l)
    (hk : k ≤ l.length) (hc : commit ≤ l.length) {e : Entry}
    (happ : db.appendItem commit (k + 1) e = .ok db') :
    (∃ old, l[k]? = some old ∧ old.term = e.term ∧
      (Json.obj old.command).pyEq (.obj e.command) = true ∧ db' = db) ∨
    ∃ command, canonicalCommand e.command = .ok command ∧ commit ≤ k ∧
      (∀ old, l[k]? = some old → old.term = e.term →
        (Json.obj old.command).pyEq (.obj e.command) = false) ∧
      db' = { db with raftLog := numberedFrom 1 (l.take k ++ [⟨e.term, command⟩]) } := by
  rw [appendItem, entry_succ h] at happ
  cases hold : l[k]? with
  | none =>
    have hlen : l.length = k := Nat.le_antisymm (List.getElem?_eq_none_iff.mp hold) hk
    rw [hold] at happ
    dsimp only at happ
    rw [← hlen] at happ
    obtain ⟨command, hcommand, -, rfl⟩ := insertEntry_next h happ
    refine .inr ⟨command, hcommand, hlen ▸ hc, fun _ h ↦ (nomatch h), ?_⟩
    rw [← hlen, List.take_length]
  | some old =>
    rw [hold] at happ
    dsimp only at happ
    by_cases hne : old.term ≠ e.term ∨ (!(Json.obj old.command).pyEq (.obj e.command)) = true
    · rw [if_pos hne] at happ
      by_cases hcommit : k + 1 ≤ commit
      · rw [if_pos hcommit] at happ
        cases happ
      rw [if_neg hcommit] at happ
      have hrows : (db.deleteFrom (k + 1)).raftLog = numberedFrom 1 (l.take k) := by
        rw [deleteFrom, h, filter_numberedFrom_lt, Nat.add_sub_cancel]
      have hlen : (l.take k).length = k := by rw [List.length_take, Nat.min_eq_left hk]
      rw [← hlen] at happ
      obtain ⟨command, hcommand, -, rfl⟩ := insertEntry_next (hlen.symm ▸ hrows) happ
      refine .inr ⟨command, hcommand, by omega, ?_, ?_⟩
      · rintro _ ⟨⟩ hterm
        have hne := hne.resolve_left (fun h ↦ h hterm)
        rw [Bool.not_eq_true'] at hne
        exact hne
      · rw [hlen]
        rfl
    · rw [if_neg hne] at happ
      rw [not_or, not_not, Bool.not_eq_true, Bool.not_eq_false'] at hne
      exact .inl ⟨old, rfl, hne.1, hne.2, (Except.ok.inj happ).symm⟩

/-- The loop of `append_entries` on a log without a gap. -/
theorem Database.appendItems_spliced {db db' : Database} (h : db.raftLog = numberedFrom 1 l)
    (hk : k ≤ l.length) (hc : commit ≤ l.length)
    (happ : appendItems commit db (k + 1) es = .ok db') :
    ∃ l', Spliced commit l k es l' ∧ db' = { db with raftLog := numberedFrom 1 l' } := by
  induction es generalizing db l k with
  | nil =>
    refine ⟨l, .nil, ?_⟩
    rw [← h]
    exact (Except.ok.inj happ).symm
  | cons e es ih =>
    obtain ⟨db₁, h₁, hrest⟩ := bind_eq_ok.mp happ
    rcases appendItem_cases h hk hc h₁ with ⟨old, hold, hterm, heq, rfl⟩ |
      ⟨command, hcommand, hcommit, hnew, rfl⟩
    · obtain ⟨l', hl', rfl⟩ := ih h (List.getElem?_eq_some_iff.mp hold).1 hc hrest
      exact ⟨l', .keep hold hterm heq hl', rfl⟩
    · have hlen : (l.take k ++ [(⟨e.term, command⟩ : Entry)]).length = k + 1 := by
        rw [List.length_append, List.length_take, Nat.min_eq_left hk, List.length_singleton]
      obtain ⟨l', hl', rfl⟩ := ih rfl (by omega) (by omega) hrest
      exact ⟨l', .write hk hcommit hcommand hnew hl', rfl⟩

namespace Node

variable {pinned : String} {members : List NodeId} {i : NodeId} {n n' : Node}

omit [Platform] in
theorem Consistent.restoreCommittedIndices_eq (h : n.Consistent pinned members i) :
    n.restoreCommittedIndices = (n, .ok ()) := by
  have hself :
      { n with commitIndex := n.db.commitIndex, appliedIndex := n.db.appliedIndex } = n := by
    rw [h.commitIndex, h.appliedIndex]
  have hle : n.appliedIndex ≤ n.commitIndex ∧ n.commitIndex ≤ n.db.lastIndex :=
    ⟨Nat.le_of_eq h.applied_eq, h.lastIndex_eq ▸ h.commit_le⟩
  rw [restoreCommittedIndices, hself, if_pos hle]

omit [Platform] in
theorem Consistent.rollback_eq (h : n.Consistent pinned members i) (e : Exn) :
    n.rollback e = (n, e) := by
  rw [rollback, h.restoreCommittedIndices_eq]

omit [Platform] in
theorem Consistent.giveUp_eq (h : n.Consistent pinned members i) (e : Exn) :
    n.giveUp e = ({ n with role := .follower, leaderId := none }, e) := by
  rw [giveUp, h.restoreCommittedIndices_eq]

/-- The commit index after an accepted `append_entries`. -/
def commitAfter (n : Node) (leaderCommit : ℤ) (l : List Entry) : ℕ :=
  if (n.commitIndex : ℤ) < leaderCommit then min leaderCommit.toNat l.length else n.commitIndex

omit [Platform] in
theorem le_commitAfter (h : n.commitIndex ≤ l.length) (leaderCommit : ℤ) :
    n.commitIndex ≤ n.commitAfter leaderCommit l ∧ n.commitAfter leaderCommit l ≤ l.length := by
  rw [commitAfter]
  split <;> omega

/-- The transaction of `append_entries`, once the loop has written the log. -/
theorem Consistent.appendTransaction_eq_ok (h : n.Consistent pinned members i) {leaderCommit : ℤ}
    (hdb : Database.appendItems n.commitIndex n.db (k + 1) es =
      .ok { n.db with raftLog := numberedFrom 1 l' })
    (htake : l'.take n.commitIndex = n.log.take n.commitIndex) (hle : n.commitIndex ≤ l'.length) :
    n.appendTransaction (k + 1) es leaderCommit = .ok n' ↔
      n.commitAfter leaderCommit l' ≤ l'.length ∧ ∃ rs c,
        replayFrom [] (l'.take (n.commitAfter leaderCommit l')) = .ok (rs, c) ∧
        n' = n.withLog l' (n.commitAfter leaderCommit l') rs c := by
  -- the node the loop starts from: the new log, the new commit index, the old replay tables
  set m : Node := { n with
    commitIndex := n.commitAfter leaderCommit l'
    db := { n.db with
      raftLog := numberedFrom 1 l', commitIndex := n.commitAfter leaderCommit l' } } with hm
  have hm_eq : n.appendTransaction (k + 1) es leaderCommit = m.applyCommitted := by
    rw [appendTransaction, hdb, hm, commitAfter]
    change Node.applyCommitted _ = _
    by_cases hlt : (n.commitIndex : ℤ) < leaderCommit
    · rw [if_pos hlt]
      dsimp only
      rw [if_pos hlt, setCommitIndex, Database.lastIndex_eq rfl]
    · rw [if_neg hlt]
      dsimp only
      rw [if_neg hlt, ← h.commitIndex]
  have hmap : m.Applying l' n.db.results :=
    { rows := rfl
      resultRows := h.db.resultRows
      appliedIndex := h.appliedIndex
      applied_le := Nat.le_trans (Nat.le_of_eq h.applied_eq) hle
      replayed := by
        change replayFrom [] (l'.take n.appliedIndex) = _
        rw [h.applied_eq, htake]
        exact h.replayed }
  rw [hm_eq]
  exact hmap.applyCommitted_eq_ok
    (Nat.le_trans (Nat.le_of_eq h.applied_eq) (le_commitAfter hle leaderCommit).1)

theorem Consistent.appendTransaction_ok (h : n.Consistent pinned members i) {leaderCommit : ℤ}
    (hk : k ≤ n.log.length) (happ : n.appendTransaction (k + 1) es leaderCommit = .ok n') :
    ∃ l' rs c, Spliced n.commitIndex n.log k es l' ∧
      n.commitIndex ≤ n.commitAfter leaderCommit l' ∧ n.commitAfter leaderCommit l' ≤ l'.length ∧
      replayFrom [] (l'.take (n.commitAfter leaderCommit l')) = .ok (rs, c) ∧
      n' = n.withLog l' (n.commitAfter leaderCommit l') rs c := by
  obtain ⟨db, hdb, -⟩ := bind_eq_ok.mp happ
  obtain ⟨l', hl', rfl⟩ := Database.appendItems_spliced h.db.rows hk h.commit_le hdb
  obtain ⟨htake, hle⟩ := hl'.take_commit h.commit_le
  obtain ⟨hlen, rs, c, hrep, rfl⟩ := (h.appendTransaction_eq_ok hdb htake hle).mp happ
  exact ⟨l', rs, c, hl', (le_commitAfter hle leaderCommit).1, hlen, hrep, rfl⟩

omit [Platform] in
/-- A node that hears from the leader of a term that is not over adopts it. -/
theorem Consistent.appendStepDown_eq (h : n.Consistent pinned members i) {t : ℤ}
    (ht : (n.term : ℤ) ≤ t) (x : NodeId) :
    n.appendStepDown t x = .ok (n.withVote t.toNat (n.voteAt t.toNat) .follower (some x)) := by
  rw [appendStepDown]
  by_cases hne : (n.term : ℤ) < t ∨ n.role ≠ .follower
  · rw [if_pos hne, h.stepDown_eq (by omega)]
  · rw [if_neg hne]
    rw [not_or, not_not] at hne
    have heq : t.toNat = n.term := by omega
    rw [heq, voteAt, if_neg (Nat.lt_irrefl _), h.withVote_self, hne.2]

/-- `append_entries` refuses a term that is over; it may adopt the term and change nothing else; or
it accepts the entries. -/
theorem Consistent.appendEntries_cases (h : n.Consistent pinned members i) (a : AppendArgs) :
    (n.appendEntries a = (n, .ok ⟨n.term, false, n.db.lastIndex⟩)) ∨
    a.leaderId ≠ n.nodeId ∧ (n.term : ℤ) ≤ a.term ∧
      ∃ m, m = n.withVote a.term.toNat (n.voteAt a.term.toNat) .follower (some a.leaderId) ∧
      ((∃ r, n.appendEntries a = (m, r) ∧ ∀ x, r = .ok x → x.accepted = false ∧
          x.term = a.term.toNat) ∨
        ∃ prev es l' rs c, n.db.entryAt a.prevIndex = some prev ∧ (prev.term : ℤ) = a.prevTerm ∧
          parseItems a.prevIndex.toNat a.entries = .ok es ∧
          Spliced n.commitIndex n.log a.prevIndex.toNat es l' ∧
          n.commitIndex ≤ n.commitAfter a.leaderCommit l' ∧
          n.commitAfter a.leaderCommit l' ≤ l'.length ∧
          replayFrom [] (l'.take (n.commitAfter a.leaderCommit l')) = .ok (rs, c) ∧
          n.appendEntries a = (m.withLog l' (n.commitAfter a.leaderCommit l') rs c,
            .ok ⟨a.term.toNat, true, a.prevIndex.toNat + es.length⟩)) := by
  rw [appendEntries]
  by_cases hc : a.leaderId ∉ n.members ∨ a.leaderId = n.nodeId
  · rw [if_pos hc]
    exact .inl rfl
  by_cases ht : a.term < n.term
  · rw [if_neg hc, if_pos ht]
    exact .inl rfl
  refine .inr ⟨fun hci ↦ hc (.inr hci), Int.not_lt.mp ht, _, rfl, ?_⟩
  rw [if_neg hc, if_neg ht, h.appendStepDown_eq (Int.not_lt.mp ht)]
  dsimp only
  have hm := h.withVote a.term.toNat (n.voteAt a.term.toNat) .follower (some a.leaderId)
  set m := n.withVote a.term.toNat (n.voteAt a.term.toNat) .follower (some a.leaderId) with hmdef
  have hrefuse : ∀ x, (Except.ok ⟨m.term, false, m.db.lastIndex⟩ : Except Exn AppendReply) = .ok x →
      x.accepted = false ∧ x.term = a.term.toNat := by
    rintro x ⟨⟩
    exact ⟨rfl, rfl⟩
  rw [appendAccept]
  -- from here on the term is adopted, whatever becomes of the entries
  cases hprev : m.db.entryAt a.prevIndex with
  | none =>
    dsimp only
    split
    · exact .inl ⟨_, rfl, fun x hx ↦ by cases hx⟩
    · exact .inl ⟨_, rfl, hrefuse⟩
  | some prev =>
    dsimp only
    by_cases hpt : (prev.term : ℤ) ≠ a.prevTerm
    · rw [if_pos hpt]
      exact .inl ⟨_, rfl, hrefuse⟩
    rw [if_neg hpt]
    cases hparse : parseItems a.prevIndex.toNat a.entries with
    | error e => exact .inl ⟨_, rfl, fun x hx ↦ (nomatch hx)⟩
    | ok es =>
      dsimp only
      have hk : a.prevIndex.toNat ≤ m.log.length := by
        rw [Database.entryAt] at hprev
        split at hprev
        · cases hprev
        · cases hidx : a.prevIndex.toNat with
          | zero => exact Nat.zero_le _
          | succ j =>
            rw [hidx, Database.entry_succ hm.db.rows] at hprev
            exact (List.getElem?_eq_some_iff.mp hprev).1
      cases htx : m.appendTransaction (a.prevIndex.toNat + 1) es a.leaderCommit with
      | error e =>
        dsimp only
        -- the transaction is rolled back, and the memory is read again from the table
        rw [hm.rollback_eq]
        exact .inl ⟨_, rfl, fun x hx ↦ (nomatch hx)⟩
      | ok n₁ =>
        obtain ⟨l', rs, c, hl', hle, hlen, hrep, rfl⟩ := hm.appendTransaction_ok hk htx
        exact .inr ⟨prev, es, l', rs, c, hprev, not_not.mp hpt, rfl, hl', hle, hlen, hrep, rfl⟩

/-- The first section of `propose` adds the command to the leader's log. -/
theorem Consistent.proposeAppend_ok (h : n.Consistent pinned members i) {command : Command}
    (happ : n.proposeAppend command = .ok n') : checkProposal command = .ok () ∧
      n.role = .leader ∧ ∃ stored, canonicalCommand command = .ok stored ∧
        n' = n.withLog (n.log ++ [⟨n.term, stored⟩]) n.commitIndex n.db.results n.db.consumed := by
  obtain ⟨⟨⟩, hcheck, happ⟩ := bind_eq_ok.mp happ
  obtain ⟨hrole, happ⟩ := throw_if_eq_ok.mp happ
  obtain ⟨db, hdb, happ⟩ := bind_eq_ok.mp happ
  rw [h.lastIndex_eq] at hdb
  obtain ⟨stored, hstored, -, rfl⟩ := Database.insertEntry_next h.db.rows hdb
  refine ⟨hcheck, not_not.mp hrole, stored, hstored, ?_⟩
  rw [← h.setLog_eq]
  exact (Except.ok.inj happ).symm

omit [Platform] in
/-- The commit section of `propose`, when it does not commit behind the commit index. -/
theorem Consistent.proposeCommit_cases (h : n.Consistent pinned members i) {position : ℕ}
    (hpos : n.commits position = true → n.commitIndex ≤ position) :
    (∃ e, n.proposeCommit position = (n, .error e)) ∨
    (∃ e, n.proposeCommit position =
      (n.withVote n.term n.votedFor .follower none, .error e)) ∨
    n.commits position = true ∧ position ≤ n.log.length ∧ ∃ rs c,
      replayFrom [] (n.log.take position) = .ok (rs, c) ∧
      n.proposeCommit position = (n.withLog n.log position rs c,
        .ok ((numberedFrom 1 rs).get? position)) := by
  rw [proposeCommit]
  by_cases hrole : n.role ≠ .leader
  · rw [if_pos hrole]
    exact .inl ⟨_, rfl⟩
  by_cases hack : n.acknowledgements position ≤ n.members.length / 2
  · rw [if_neg hrole, if_pos hack]
    exact .inl ⟨_, rfl⟩
  rw [if_neg hrole, if_neg hack]
  have hcommits : n.commits position = true := by
    rw [commits, decide_eq_true_eq]
    exact ⟨not_not.mp hrole, Nat.not_le.mp hack⟩
  have happ : (n.setCommitIndex position).Applying n.log n.db.results :=
    ⟨h.applying.rows, h.applying.resultRows, h.applying.appliedIndex, h.applying.applied_le,
      h.applying.replayed⟩
  cases hc : (n.setCommitIndex position).applyCommitted with
  | error e =>
    dsimp only
    rw [h.giveUp_eq, ← h.withVote_self]
    exact .inr (.inl ⟨e, rfl⟩)
  | ok n₁ =>
    obtain ⟨hle, rs, c, hrep, rfl⟩ :=
      (happ.applyCommitted_eq_ok
        (Nat.le_trans (Nat.le_of_eq h.applied_eq) (hpos hcommits))).mp hc
    refine .inr (.inr ⟨hcommits, hle, rs, c, hrep, ?_⟩)
    have hself : n.withLog n.log position rs c =
        (n.setCommitIndex position).advance position rs c := by
      rw [Node.withLog, advance, setCommitIndex, Node.log, ← h.db.rows]
    rw [hself]
    rfl

end Node

end Append

/-! ## Restarts -/

section Restart

variable [Platform] {M : Membership} {i : NodeId} {n : Node}

theorem Node.Consistent.applyCommitted_restarted (h : n.Consistent M.pinned M.members i) :
    n.restarted.applyCommitted = .ok n.restarted := by
  rw [applyCommitted]
  have hz : n.restarted.commitIndex - n.restarted.appliedIndex = 0 := by
    rw [h.restarted.applied_eq, Nat.sub_self]
  rw [hz]
  rfl

/-- A consistent database opens, with nothing left to apply. -/
theorem Node.Consistent.open_eq (h : n.Consistent M.pinned M.members i) (hi : i ∈ M.members) :
    Node.open i M.members n.db = .ok n.restarted := by
  have hne : i ≠ "" := fun he ↦ M.nonempty (he ▸ hi)
  have hmem : ¬(M.members.length % 2 ≠ 1 ∨ M.members.length < 3 ∨ ¬M.members.Nodup ∨
      i ∉ M.members ∨ "" ∈ M.members) := by
    have h₁ := M.odd
    have h₂ := M.three_le
    rintro (h | h | h | h | h)
    · exact h h₁
    · omega
    · exact h M.nodup
    · exact h hi
    · exact M.nonempty h
  rw [Node.open, throw_if_eq_ok]
  refine ⟨hne, ?_⟩
  rw [throw_if_eq_ok]
  refine ⟨hmem, ?_⟩
  rw [bind_eq_ok]
  refine ⟨M.pinned, M.pinned_eq, ?_⟩
  simp only [h.db.membership, ne_eq, not_true_eq_false, if_false]
  have hdb : { n.db with membership := some M.pinned } = n.db := by rw [← h.db.membership]
  rw [hdb, throw_if_eq_ok]
  refine ⟨?_, ?_⟩
  · rw [h.lastIndex_eq, h.db.rows, length_numberedFrom]
    exact fun hne ↦ hne rfl
  rw [throw_if_eq_ok]
  refine ⟨fun hbad ↦ hbad ⟨Nat.le_of_eq h.db.applied, h.lastIndex_eq ▸ h.db.commit_le⟩, ?_⟩
  rw [h.term, h.votedFor, h.commitIndex, h.appliedIndex]
  have hnode := h.applyCommitted_restarted
  rw [Node.restarted, h.nodeId, h.members] at hnode
  rw [hnode, Node.restarted, h.nodeId, h.members]

theorem Node.mem_of_open_ok {db : Database} (h : Node.open i M.members db = .ok n) :
    i ∈ M.members := by
  rw [Node.open] at h
  obtain ⟨-, h⟩ := throw_if_eq_ok.mp h
  obtain ⟨hmem, -⟩ := throw_if_eq_ok.mp h
  rw [not_or, not_or, not_or, not_or] at hmem
  exact not_not.mp hmem.2.2.2.1

/-- What a crash between the durable writes of a remote call leaves: the node as it was, or with
the term of the call adopted. -/
def Node.MayAdopt (n : Node) (t : ℕ) (m : Node) : Prop :=
  m = n ∨ n.term ≤ t ∧ ∃ r x, m = n.withVote t (n.voteAt t) r x

theorem Node.Consistent.mayAdopt {m : Node} {t : ℕ} (hn : n.Consistent M.pinned M.members i)
    (hm : n.MayAdopt t m) : m.Consistent M.pinned M.members i := by
  rcases hm with rfl | ⟨-, r, x, rfl⟩
  · exact hn
  · exact hn.withVote _ _ _ _

theorem Node.Consistent.requestVoteCrash_eq (hn : n.Consistent M.pinned M.members i)
    (t : ℤ) (candidate : NodeId) :
    ∃ m, n.MayAdopt t.toNat m ∧ Cluster.requestVoteCrash n t candidate = m.db := by
  rw [Cluster.requestVoteCrash]
  by_cases hc : candidate ∉ n.members ∨ candidate = n.nodeId ∨ t < n.term
  · rw [if_pos hc]
    exact ⟨n, .inl rfl, rfl⟩
  · rw [if_neg hc]
    rw [not_or, not_or, Int.not_lt] at hc
    obtain ⟨r, x, -, h⟩ := hn.requestVoteStepDown_eq hc.2.2
    rw [h]
    exact ⟨_, .inr ⟨by omega, r, x, rfl⟩, rfl⟩

theorem Node.Consistent.appendCrash_eq (hn : n.Consistent M.pinned M.members i)
    (a : AppendArgs) : ∃ m, n.MayAdopt a.term.toNat m ∧ Cluster.appendCrash n a = m.db := by
  rw [Cluster.appendCrash]
  by_cases hc : a.leaderId ∉ n.members ∨ a.leaderId = n.nodeId ∨ a.term < n.term
  · rw [if_pos hc]
    exact ⟨n, .inl rfl, rfl⟩
  · rw [if_neg hc]
    rw [not_or, not_or, Int.not_lt] at hc
    rw [hn.appendStepDown_eq hc.2.2]
    exact ⟨_, .inr ⟨by omega, _, _, rfl⟩, rfl⟩

/-- A restart on the database of a consistent node. -/
theorem Node.Consistent.reopens {c c' : Cluster} (hn : n.Consistent M.pinned M.members i)
    (h : Reopens M c i n.db c') : c' = (c.endCallsOn i).setNode i n.restarted := by
  obtain ⟨n', hopen, rfl⟩ := h
  rw [hn.open_eq (Node.mem_of_open_ok hopen), Except.ok.injEq] at hopen
  rw [hopen]

theorem Node.Consistent.reopens_requestVote {c c' : Cluster} {t : ℤ} {candidate : NodeId}
    (hn : n.Consistent M.pinned M.members i)
    (h : Reopens M c i (Cluster.requestVoteCrash n t candidate) c') :
    ∃ m, n.MayAdopt t.toNat m ∧ c' = (c.endCallsOn i).setNode i m.restarted := by
  obtain ⟨m, hm, hdb⟩ := hn.requestVoteCrash_eq t candidate
  rw [hdb] at h
  exact ⟨m, hm, (hn.mayAdopt hm).reopens h⟩

theorem Node.Consistent.reopens_append {c c' : Cluster} {a : AppendArgs}
    (hn : n.Consistent M.pinned M.members i)
    (h : Reopens M c i (Cluster.appendCrash n a) c') :
    ∃ m, n.MayAdopt a.term.toNat m ∧ c' = (c.endCallsOn i).setNode i m.restarted := by
  obtain ⟨m, hm, hdb⟩ := hn.appendCrash_eq a
  rw [hdb] at h
  exact ⟨m, hm, (hn.mayAdopt hm).reopens h⟩

end Restart

end EventHorizon.Raft
