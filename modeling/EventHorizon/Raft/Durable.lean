import EventHorizon.Library.Except
import EventHorizon.Raft.Moves

/-!
# Consistent nodes

The durable state of a node whose lock is free: a log without a gap, commit and applied index
equal and inside it, and replay tables that are those of the committed prefix. `Node.Consistent`
adds that the process memory repeats the durable values.

A section of the code changes a consistent node in one of few ways. `withVote` rewrites the term,
the vote and the role; `withLog` rewrites the log and the replay tables with it. The lemmas
`stepDown_eq`, `requestVote_cases`, `appendEntries_cases` and so on say which of these a section
makes and when; no later proof unfolds a section.
-/

namespace EventHorizon.Raft

/-! ## Replay of a log -/

/-- The decisions on a list of entries and the consumed tokens after them. -/
def replayFrom (consumed : Table (String × String) (String × ℤ)) :
    List Entry → Except Exn (List Outcome × Table (String × String) (String × ℤ))
  | [] => .ok ([], consumed)
  | e :: es => do
    let (r, consumed) ← replayCommand consumed e.command
    let (rs, consumed) ← replayFrom consumed es
    return (r :: rs, consumed)

section Replay

variable {consumed consumed' : Table (String × String) (String × ℤ)} {l l' : List Entry}
  {e : Entry} {rs : List Outcome} {r : Outcome}

theorem replayFrom_cons_eq_ok {x : List Outcome × Table (String × String) (String × ℤ)} :
    replayFrom consumed (e :: l) = .ok x ↔ ∃ r c rs, replayCommand consumed e.command = .ok (r, c) ∧
      replayFrom c l = .ok (rs, x.2) ∧ x.1 = r :: rs := by
  rw [replayFrom, bind_eq_ok]
  constructor
  · rintro ⟨⟨r, c⟩, hr, h⟩
    obtain ⟨⟨rs, c'⟩, hrs, h⟩ := bind_eq_ok.mp h
    cases h
    exact ⟨r, c, rs, hr, hrs, rfl⟩
  · rintro ⟨r, c, rs, hr, hrs, hx⟩
    obtain ⟨rs', c'⟩ := x
    cases hx
    exact ⟨(r, c), hr, bind_eq_ok.mpr ⟨(rs, c'), hrs, rfl⟩⟩

theorem replayFrom_length (h : replayFrom consumed l = .ok (rs, consumed')) :
    rs.length = l.length := by
  induction l generalizing consumed rs with
  | nil => cases h; rfl
  | cons e l ih =>
    obtain ⟨r, c, rs', -, h', hrs⟩ := replayFrom_cons_eq_ok.mp h
    rw [show rs = r :: rs' from hrs, List.length_cons, List.length_cons, ih h']

theorem replayFrom_append (h : replayFrom consumed l = .ok (rs, consumed')) (l' : List Entry) :
    replayFrom consumed (l ++ l') =
      (replayFrom consumed' l').map fun x ↦ (rs ++ x.1, x.2) := by
  induction l generalizing consumed rs with
  | nil =>
    cases h
    rw [List.nil_append]
    cases replayFrom consumed' l' <;> rfl
  | cons e l ih =>
    obtain ⟨r, c, rs', hr, h', hrs⟩ := replayFrom_cons_eq_ok.mp h
    have hrs : rs = r :: rs' := hrs
    rw [List.cons_append, replayFrom, hr, hrs]
    change (replayFrom c (l ++ l') >>= _) = _
    rw [ih h']
    cases replayFrom consumed' l' <;> rfl

theorem replayFrom_append_error {x : Exn} (h : replayFrom consumed l = .error x) (l' : List Entry) :
    replayFrom consumed (l ++ l') = .error x := by
  induction l generalizing consumed with
  | nil => cases h
  | cons e l ih =>
    rw [List.cons_append, replayFrom]
    rw [replayFrom] at h
    cases hr : replayCommand consumed e.command with
    | error y => rw [hr] at h; exact h
    | ok a =>
      rw [hr] at h
      change (replayFrom a.2 l >>= _) = _ at h
      change (replayFrom a.2 (l ++ l') >>= _) = _
      cases hl : replayFrom a.2 l with
      | error y =>
        rw [hl] at h
        cases h
        rw [ih hl]
        rfl
      | ok b => rw [hl] at h; cases h

/-- A replay that ends normally did so on every prefix. -/
theorem replayFrom_of_append (h : replayFrom consumed (l ++ l') = .ok (rs, consumed')) :
    ∃ c, replayFrom consumed l = .ok (rs.take l.length, c) := by
  cases hl : replayFrom consumed l with
  | error x => rw [replayFrom_append_error hl] at h; cases h
  | ok a =>
    obtain ⟨rs', c⟩ := a
    rw [replayFrom_append hl, map_eq_ok] at h
    obtain ⟨x, -, hx⟩ := h
    have hrs : rs' ++ x.1 = rs := congrArg Prod.fst hx
    rw [← hrs, ← replayFrom_length hl, List.take_left]
    exact ⟨c, rfl⟩

end Replay

/-! ## Consistency -/

/-- The entries of the log in the order of their rows. -/
def Database.log (db : Database) : List Entry := db.raftLog.map Prod.snd

/-- The decisions on the applied entries in the order of their rows. -/
def Database.results (db : Database) : List Outcome := db.replayResults.map Prod.snd

/-- The durable state between two transactions. -/
structure Database.Consistent (pinned : String) (db : Database) : Prop where
  membership : db.membership = some pinned
  rows : db.raftLog = numberedFrom 1 db.log
  applied : db.appliedIndex = db.commitIndex
  commit_le : db.commitIndex ≤ db.log.length
  resultRows : db.replayResults = numberedFrom 1 db.results
  replayed : replayFrom [] (db.log.take db.commitIndex) = .ok (db.results, db.consumed)

/-- A node whose lock is free. -/
structure Node.Consistent (pinned : String) (members : List NodeId) (i : NodeId) (n : Node) :
    Prop where
  nodeId : n.nodeId = i
  members : n.members = members
  db : n.db.Consistent pinned
  term : n.db.term = n.term
  votedFor : n.db.votedFor = n.votedFor
  commitIndex : n.db.commitIndex = n.commitIndex
  appliedIndex : n.db.appliedIndex = n.appliedIndex

namespace Database

variable {db : Database} {l : List Entry} {k : ℕ}

theorem lastIndex_eq (h : db.raftLog = numberedFrom 1 l) : db.lastIndex = l.length := by
  rw [lastIndex, h, maxKey_numberedFrom_one]

@[simp] theorem entry_zero : db.entry 0 = some ⟨0, []⟩ := rfl

theorem entry_succ (h : db.raftLog = numberedFrom 1 l) (k : ℕ) : db.entry (k + 1) = l[k]? := by
  rw [entry, if_neg (Nat.succ_ne_zero k), h, get?_numberedFrom, if_pos (by omega),
    Nat.add_sub_cancel]

theorem lastTerm_eq (h : db.raftLog = numberedFrom 1 l) :
    db.lastTerm = (l.getLast?.map Entry.term).getD 0 := by
  rw [lastTerm, lastIndex_eq h]
  rcases l.eq_nil_or_concat with rfl | ⟨l, e, rfl⟩
  · rfl
  · rw [List.length_concat, entry_succ h]
    simp

theorem Consistent.length_results {pinned : String} (h : db.Consistent pinned) :
    db.results.length = db.commitIndex := by
  rw [replayFrom_length h.replayed, List.length_take, Nat.min_eq_left h.commit_le]

end Database

/-! ## Applying committed entries -/

namespace Node

variable {n n' : Node} {l : List Entry} {rs : List Outcome}

/-- The replay tables and the applied index rewritten. -/
def advance (n : Node) (k : ℕ) (rs : List Outcome)
    (consumed : Table (String × String) (String × ℤ)) : Node :=
  { n with
    appliedIndex := k
    db := { n.db with
      consumed := consumed
      replayResults := numberedFrom 1 rs
      appliedIndex := k } }

/-- What the loop of `_apply_committed` needs of a node in the middle of a transaction. -/
structure Applying (n : Node) (l : List Entry) (rs : List Outcome) : Prop where
  rows : n.db.raftLog = numberedFrom 1 l
  resultRows : n.db.replayResults = numberedFrom 1 rs
  appliedIndex : n.db.appliedIndex = n.appliedIndex
  applied_le : n.appliedIndex ≤ l.length
  replayed : replayFrom [] (l.take n.appliedIndex) = .ok (rs, n.db.consumed)

theorem Applying.length (h : n.Applying l rs) : rs.length = n.appliedIndex := by
  rw [replayFrom_length h.replayed, List.length_take, Nat.min_eq_left h.applied_le]

theorem Applying.advance_self (h : n.Applying l rs) :
    n.advance n.appliedIndex rs n.db.consumed = n := by
  have hres := h.resultRows
  have happ := h.appliedIndex
  obtain ⟨nodeId, members, db, term, votedFor, commitIndex, appliedIndex, role, leaderId, next,
    matched⟩ := n
  simp only at hres happ
  rw [advance, ← hres, ← happ]

/-- One turn of the loop writes the decision on the next entry. -/
theorem Applying.applyNext_eq_ok (h : n.Applying l rs) :
    n.applyNext = .ok n' ↔ ∃ e r c, l[n.appliedIndex]? = some e ∧
      replayCommand n.db.consumed e.command = .ok (r, c) ∧
      n' = n.advance (n.appliedIndex + 1) (rs ++ [r]) c := by
  have hnew (r : Outcome) : n.db.replayResults.insertNew (n.appliedIndex + 1) r =
      numberedFrom 1 (rs ++ [r]) := by
    rw [h.resultRows, Table.insertNew_of_none, numberedFrom_append_singleton, h.length,
      Nat.add_comm 1]
    rw [get?_numberedFrom, if_pos (by omega), List.getElem?_eq_none (by rw [h.length]; omega)]
  rw [applyNext, Database.entry_succ h.rows]
  cases he : l[n.appliedIndex]? with
  | none =>
    exact ⟨fun h ↦ (nomatch h), fun ⟨_, _, _, h, _⟩ ↦ (nomatch h)⟩
  | some e =>
    constructor
    · intro hn
      obtain ⟨⟨r, c⟩, hr, hn⟩ := bind_eq_ok.mp hn
      cases hn
      refine ⟨e, r, c, rfl, hr, ?_⟩
      rw [advance, hnew]
    · rintro ⟨e', r, c, he', hr, rfl⟩
      cases he'
      refine bind_eq_ok.mpr ⟨(r, c), hr, ?_⟩
      rw [advance, ← hnew]
      rfl

theorem Applying.advance (h : n.Applying l rs) {e : Entry} {r : Outcome}
    {c : Table (String × String) (String × ℤ)} (he : l[n.appliedIndex]? = some e)
    (hr : replayCommand n.db.consumed e.command = .ok (r, c)) :
    (n.advance (n.appliedIndex + 1) (rs ++ [r]) c).Applying l (rs ++ [r]) where
  rows := h.rows
  resultRows := rfl
  appliedIndex := rfl
  applied_le := (List.getElem?_eq_some_iff.mp he).1
  replayed := by
    change replayFrom [] (l.take (n.appliedIndex + 1)) = _
    rw [List.take_add_one, he, replayFrom_append h.replayed]
    change Except.map _ (replayCommand n.db.consumed e.command >>= _) = _
    rw [hr]
    rfl

/-- `_apply_committed` replays the log up to the commit index, or raises. -/
theorem Applying.applyLoop_eq_ok {fuel : ℕ} (h : n.Applying l rs)
    (hfuel : n.appliedIndex + fuel = n.commitIndex) :
    applyLoop fuel n = .ok n' ↔ n.commitIndex ≤ l.length ∧ ∃ rs' c,
      replayFrom [] (l.take n.commitIndex) = .ok (rs', c) ∧ n' = n.advance n.commitIndex rs' c := by
  induction fuel generalizing n rs with
  | zero =>
    have hk : n.appliedIndex = n.commitIndex := by omega
    rw [applyLoop, ← hk]
    constructor
    · intro hn
      have hn := Except.ok.inj hn
      subst hn
      exact ⟨h.applied_le, rs, n.db.consumed, h.replayed, h.advance_self.symm⟩
    · rintro ⟨-, rs', c, hrep, rfl⟩
      rw [h.replayed] at hrep
      cases hrep
      rw [h.advance_self]
  | succ fuel ih =>
    rw [applyLoop, if_pos (by omega), bind_eq_ok]
    constructor
    · rintro ⟨m, hm, hn⟩
      obtain ⟨e, r, c, he, hr, rfl⟩ := h.applyNext_eq_ok.mp hm
      obtain ⟨hle, rs', c', hrep, rfl⟩ :=
        (ih (h.advance he hr) (by change n.appliedIndex + 1 + fuel = n.commitIndex; omega)).mp hn
      exact ⟨hle, rs', c', hrep, rfl⟩
    · rintro ⟨hle, rs', c', hrep, rfl⟩
      have hlt : n.appliedIndex < l.length := by omega
      have he : l[n.appliedIndex]? = some l[n.appliedIndex] := List.getElem?_eq_getElem hlt
      -- the replay up to the commit index passes through the next entry
      have htake : l.take n.commitIndex = l.take (n.appliedIndex + 1) ++
          (l.take n.commitIndex).drop (n.appliedIndex + 1) := by
        nth_rewrite 1 [← List.take_append_drop (n.appliedIndex + 1) (l.take n.commitIndex)]
        rw [List.take_take, Nat.min_eq_left (by omega)]
      rw [htake] at hrep
      obtain ⟨c₁, h₁⟩ := replayFrom_of_append hrep
      rw [List.take_add_one, he, replayFrom_append h.replayed, map_eq_ok] at h₁
      obtain ⟨x, hx, -⟩ := h₁
      obtain ⟨r, c, -, hr, -, -⟩ := replayFrom_cons_eq_ok.mp hx
      refine ⟨_, h.applyNext_eq_ok.mpr ⟨_, r, c, he, hr, rfl⟩, ?_⟩
      rw [ih (h.advance he hr) (by change n.appliedIndex + 1 + fuel = n.commitIndex; omega)]
      refine ⟨hle, rs', c', ?_, rfl⟩
      rw [← htake] at hrep
      exact hrep

theorem Applying.applyCommitted_eq_ok (h : n.Applying l rs) (hle : n.appliedIndex ≤ n.commitIndex) :
    n.applyCommitted = .ok n' ↔ n.commitIndex ≤ l.length ∧ ∃ rs' c,
      replayFrom [] (l.take n.commitIndex) = .ok (rs', c) ∧ n' = n.advance n.commitIndex rs' c :=
  h.applyLoop_eq_ok (by omega)

end Node

end EventHorizon.Raft
