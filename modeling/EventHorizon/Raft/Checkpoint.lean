import EventHorizon.Canonical.Forms
import EventHorizon.Raft.Convergence

/-!
# The checkpoint of the committed prefix

`committed_checkpoint` digests every committed entry with its decision in one object, and
`RaftConsensus.propose` asks for the checkpoint before it proposes. The canonical form of an object
has a limit on the items of an array and on its levels, and the history grows: as long as it fits,
the checkpoint identifies the committed prefix; once it does not, there is no checkpoint any more,
and no proposal.
-/

namespace EventHorizon.Raft

open Protocol (FloatReader)

/-! ## The code -/

/-- The text of a decision in `replay_results`. -/
def Outcome.text : Outcome → String
  | .noop => "noop"
  | .fresh => "fresh"
  | .duplicate => "duplicate"
  | .collision => "collision"

theorem Outcome.text_injective : Function.Injective Outcome.text := by
  intro r s h
  cases r <;> cases s <;> first | rfl | exact absurd h (by decide)

/-- One item of `committed_entries`. -/
def checkpointEntry (index : ℕ) (e : Entry) (r : Outcome) : Json :=
  .obj [("index", .int index), ("term", .int e.term), ("command", .obj e.command),
    ("result", .str r.text)]

/-- The loop of `committed_checkpoint` over the indices from `index` on. -/
def Database.checkpointEntries (db : Database) : ℕ → ℕ → Except Exn (List Json)
  | _, 0 => .ok []
  | index, count + 1 =>
    match db.entry index with
    | none => .error (raftCoreError "committed Raft log entry missing")
    | some e =>
      match db.replayResults.get? index with
      | none => .error (raftCoreError "committed replay result missing")
      | some r => do
        let entries ← checkpointEntries db (index + 1) count
        return checkpointEntry index e r :: entries

/-- The object that `committed_checkpoint` digests. -/
def checkpointValue (members : List NodeId) (entries : List Json) : Json :=
  .obj [("schema", .str "event-horizon.raft-research-checkpoint.v1"),
    ("membership", .arr (members.map .str)), ("committed_entries", .arr entries)]

section Code

variable [Platform]

/-- `committed_checkpoint`. -/
def Node.committedCheckpoint (n : Node) : Except Exn (ℕ × String) := do
  let entries ← n.db.checkpointEntries 1 n.commitIndex
  let d ← digest (checkpointValue n.members entries)
  return (n.commitIndex, d)

/-- What `RaftConsensus.propose` raises for an exception of the core. -/
def raftUnavailable (e : Exn) : Exn :=
  if e.cls = .raftCoreUnavailable then
    ⟨.raftUnavailableError, "research Raft proposal lacked durable quorum or leadership"⟩
  else e

/-- `RaftConsensus.propose` on a durable core. -/
def consensusPropose (peers : List NodeId) (i : NodeId) (nodes : NodeId → Node) (command : Command)
    (checkpoint checkpointDigest : Json) : Except Exn Bool × (NodeId → Node) :=
  match (nodes i).committedCheckpoint with
  | .error e => (.error e, nodes)
  | .ok (expectedIndex, expectedDigest) =>
    if checkpoint ≠ .int expectedIndex ∨ checkpointDigest ≠ .str expectedDigest then
      (.error ⟨.raftUnavailableError,
        "research Raft committed checkpoint changed; deny stale proposal"⟩, nodes)
    else
      let (result, nodes) := propose peers i nodes command
      (result.mapError raftUnavailable, nodes)

end Code

/-! ## Committed prefixes -/

/-- The rows of some indices: the entry and the decision, if there are. -/
def Database.rowsFrom (db : Database) (index count : ℕ) : List (Option Entry × Option Outcome) :=
  (List.range' index count).map fun k ↦ (db.entry k, db.replayResults.get? k)

/-- The committed prefix: commands, terms and decisions. -/
def Node.committedPrefix (n : Node) : List (Option Entry × Option Outcome) :=
  n.db.rowsFrom 1 n.commitIndex

/-- What the checkpoint has room for: the committed entries are in the log, and they are not too
many, their terms not too large and their commands not nested too deeply. -/
structure Node.CheckpointFits (n : Node) : Prop where
  present : n.commitIndex ≤ n.db.lastIndex
  items : n.commitIndex ≤ maxCanonicalItems
  terms : ∀ e ∈ n.log.take n.commitIndex, e.term ≤ maxSafeInteger
  depth : ∀ e ∈ n.log.take n.commitIndex, (Json.obj e.command).height + 3 ≤ maxCanonicalDepth

/-- The items of consecutive rows. -/
def checkpointItems : ℕ → List (Entry × Outcome) → List Json
  | _, [] => []
  | index, row :: rows => checkpointEntry index row.1 row.2 :: checkpointItems (index + 1) rows

variable {db : Database} {index count : ℕ} {rows rows' : List (Entry × Outcome)} {items : List Json}

/-- The loop needs every row, and takes them as they are. -/
theorem checkpointEntries_eq_ok : db.checkpointEntries index count = .ok items ↔
    ∃ rows : List (Entry × Outcome),
      db.rowsFrom index count = rows.map (fun r ↦ (some r.1, some r.2)) ∧
        items = checkpointItems index rows := by
  induction count generalizing index items with
  | zero =>
    rw [Database.checkpointEntries, Database.rowsFrom, List.range'_zero, List.map_nil,
      Except.ok.injEq]
    constructor
    · rintro rfl
      exact ⟨[], rfl, rfl⟩
    · rintro ⟨rows, hrows, rfl⟩
      rw [List.map_eq_nil_iff.mp hrows.symm]
      rfl
  | succ count ih =>
    have hrows : db.rowsFrom index (count + 1) =
        (db.entry index, db.replayResults.get? index) :: db.rowsFrom (index + 1) count := by
      rw [Database.rowsFrom, List.range'_succ, List.map_cons, Database.rowsFrom]
    rw [hrows, Database.checkpointEntries]
    have hmissing : ∀ {o : Option Entry × Option Outcome}, (o.1 = none ∨ o.2 = none) →
        ¬∃ rows : List (Entry × Outcome), o :: db.rowsFrom (index + 1) count =
          rows.map (fun r ↦ (some r.1, some r.2)) ∧ items = checkpointItems index rows := by
      rintro o ho ⟨rows, hmap, -⟩
      cases rows with
      | nil => cases hmap
      | cons r rows =>
        rw [List.map_cons, List.cons.injEq] at hmap
        rw [hmap.1] at ho
        exact ho.elim nofun nofun
    cases hentry : db.entry index with
    | none => exact ⟨nofun, fun h ↦ absurd h (hmissing (.inl rfl))⟩
    | some e =>
      cases hresult : db.replayResults.get? index with
      | none => exact ⟨nofun, fun h ↦ absurd h (hmissing (.inr rfl))⟩
      | some r =>
        constructor
        · intro h
          obtain ⟨items', hitems', h⟩ := bind_eq_ok.mp h
          cases h
          obtain ⟨rows, hmap, rfl⟩ := ih.mp hitems'
          exact ⟨(e, r) :: rows, by rw [hmap, List.map_cons], rfl⟩
        · rintro ⟨rows, hmap, rfl⟩
          cases rows with
          | nil => cases hmap
          | cons row rows =>
            rw [List.map_cons, List.cons.injEq, Prod.mk.injEq, Option.some.injEq,
              Option.some.injEq] at hmap
            obtain ⟨⟨rfl, rfl⟩, hmap⟩ := hmap
            exact bind_eq_ok.mpr ⟨_, ih.mpr ⟨rows, hmap, rfl⟩, rfl⟩

theorem length_checkpointItems : (checkpointItems index rows).length = rows.length := by
  induction rows generalizing index with
  | nil => rfl
  | cons row rows ih => rw [checkpointItems, List.length_cons, List.length_cons, ih]

section Fits

variable [Platform]

/-! ## When there is a checkpoint -/

theorem canonicalizes_checkpointEntry {e : Entry} {r : Outcome}
    (hcommand : canonicalCommand e.command = .ok e.command) (hindex : index ≤ maxSafeInteger) :
    Canonicalizes 2 (checkpointEntry index e r) ↔
      e.term ≤ maxSafeInteger ∧ (Json.obj e.command).height + 3 ≤ maxCanonicalDepth := by
  have hself : Canonicalizes 0 (.obj e.command) := ⟨_, canonicalCommand_eq_ok.mp hcommand⟩
  have hkey : ∀ k ∈ ["index", "term", "command", "result"], IsCanonicalString k := by
    have hascii : ∀ k ∈ ["index", "term", "command", "result"],
        isAscii k = true ∧ k.toList.length ≤ maxCanonicalStringBytes := by decide
    exact fun k hk ↦ isCanonicalString_of_isAscii (hascii k hk).1 (hascii k hk).2
  have htext : IsCanonicalString r.text := by
    have hascii : isAscii r.text = true ∧ r.text.toList.length ≤ maxCanonicalStringBytes := by
      cases r <;> decide
    exact isCanonicalString_of_isAscii hascii.1 hascii.2
  have hdeep := canonicalizes_iff_height 3 (.obj e.command)
  rw [checkpointEntry, canonicalizes_obj]
  simp only [List.forall_mem_cons, List.length_cons, List.length_nil, canonicalizes_int,
    canonicalizes_str, htext, hdeep, hself, hkey _ List.mem_cons_self]
  have h₂ : IsCanonicalString "term" := hkey _ (by decide)
  have h₃ : IsCanonicalString "command" := hkey _ (by decide)
  have h₄ : IsCanonicalString "result" := hkey _ (by decide)
  simp [h₂, h₃, h₄, maxCanonicalDepth, maxCanonicalItems]
  omega

theorem canonicalizes_checkpointItems (hlen : index + rows.length ≤ maxSafeInteger)
    (hrows : ∀ row ∈ rows, canonicalCommand row.1.command = .ok row.1.command) :
    (∀ item ∈ checkpointItems index rows, Canonicalizes 2 item) ↔
      ∀ row ∈ rows, row.1.term ≤ maxSafeInteger ∧
        (Json.obj row.1.command).height + 3 ≤ maxCanonicalDepth := by
  induction rows generalizing index with
  | nil => simp [checkpointItems]
  | cons row rows ih =>
    obtain ⟨hrow, hrows⟩ := List.forall_mem_cons.mp hrows
    rw [List.length_cons] at hlen
    rw [checkpointItems, List.forall_mem_cons, List.forall_mem_cons,
      canonicalizes_checkpointEntry hrow (by omega), ih (by omega) hrows]

theorem canonicalizes_checkpointValue {members : List NodeId} {pinned : String}
    (hmembers : membershipDigest members = .ok pinned)
    (hrows : ∀ row ∈ rows, canonicalCommand row.1.command = .ok row.1.command) :
    Canonicalizes 0 (checkpointValue members (checkpointItems 1 rows)) ↔
      rows.length ≤ maxCanonicalItems ∧ ∀ row ∈ rows, row.1.term ≤ maxSafeInteger ∧
        (Json.obj row.1.command).height + 3 ≤ maxCanonicalDepth := by
  have hcluster : Canonicalizes 1 (.arr (members.map .str)) := by
    obtain ⟨-, -, hfields⟩ := canonicalizes_obj.mp (exists_digest_eq_ok.mp ⟨pinned, hmembers⟩)
    exact (hfields _ List.mem_cons_self).2.2
  have hascii : ∀ s ∈ ["schema", "event-horizon.raft-research-checkpoint.v1", "membership",
      "committed_entries"], isAscii s = true ∧ s.toList.length ≤ maxCanonicalStringBytes := by
    decide
  have hkey : ∀ s ∈ ["schema", "event-horizon.raft-research-checkpoint.v1", "membership",
      "committed_entries"], IsCanonicalString s := fun s hs ↦
    isCanonicalString_of_isAscii (hascii s hs).1 (hascii s hs).2
  have hitems : Canonicalizes 1 (.arr (checkpointItems 1 rows)) ↔
      rows.length ≤ maxCanonicalItems ∧ ∀ row ∈ rows, row.1.term ≤ maxSafeInteger ∧
        (Json.obj row.1.command).height + 3 ≤ maxCanonicalDepth := by
    rw [canonicalizes_arr, length_checkpointItems]
    constructor
    · rintro ⟨-, hlen, hall⟩
      have hsafe : 1 + rows.length ≤ maxSafeInteger :=
        Nat.le_trans (Nat.add_le_add_left hlen 1) (by decide)
      exact ⟨hlen, (canonicalizes_checkpointItems hsafe hrows).mp hall⟩
    · rintro ⟨hlen, hall⟩
      have hsafe : 1 + rows.length ≤ maxSafeInteger :=
        Nat.le_trans (Nat.add_le_add_left hlen 1) (by decide)
      exact ⟨by decide, hlen, (canonicalizes_checkpointItems hsafe hrows).mpr hall⟩
  rw [checkpointValue, canonicalizes_obj, ← hitems]
  simp only [List.forall_mem_cons, canonicalizes_str, hcluster]
  have h₁ := hkey "schema" (by decide)
  have h₂ := hkey "event-horizon.raft-research-checkpoint.v1" (by decide)
  have h₃ := hkey "membership" (by decide)
  have h₄ := hkey "committed_entries" (by decide)
  simp [h₁, h₂, h₃, h₄, maxCanonicalDepth, maxCanonicalItems]

namespace Node

variable {M : Membership} {G : Command → Prop} {i j : NodeId} {n n' : Node}

/-- The rows of a committed prefix are those of the log. -/
theorem Sound.map_fst_rows (h : n.Sound M G i)
    (hrows : n.committedPrefix = rows.map fun r ↦ (some r.1, some r.2)) :
    rows.length = n.commitIndex ∧ n.commitIndex ≤ n.log.length ∧
      rows.map Prod.fst = n.log.take n.commitIndex := by
  have hlen : rows.length = n.commitIndex := by
    have := congrArg List.length hrows
    rw [committedPrefix, Database.rowsFrom, List.length_map, List.length_range',
      List.length_map] at this
    exact this.symm
  have hget : ∀ k (hk : k < rows.length), n.log[k]? = some rows[k].1 := by
    intro k hk
    have := congrArg (·[k]?) hrows
    rw [committedPrefix, Database.rowsFrom, List.getElem?_map, List.getElem?_map,
      List.getElem?_range' (hlen ▸ hk), List.getElem?_eq_getElem hk, Option.map_some,
      Option.map_some, Option.some.injEq, Prod.mk.injEq, Nat.one_mul, Nat.add_comm 1,
      Database.entry_succ h.rows] at this
    exact this.1
  have hle : n.commitIndex ≤ n.log.length := by
    rw [← hlen]
    by_contra hgt
    have hk : n.log.length < rows.length := Nat.not_le.mp hgt
    have := hget _ hk
    rw [List.getElem?_eq_none (Nat.le_refl _)] at this
    cases this
  refine ⟨hlen, hle, List.ext_getElem (by rw [List.length_map, List.length_take, hlen]; omega) ?_⟩
  intro k hk hk'
  rw [List.length_map] at hk
  have := hget k hk
  rw [List.getElem?_eq_getElem (by omega), Option.some.injEq] at this
  rw [List.getElem_map, List.getElem_take, this]

/-- As long as the committed entries are in the log, the loop finds every row. -/
theorem Sound.exists_rows (h : n.Sound M G i) (hle : n.commitIndex ≤ n.log.length) :
    ∃ rows : List (Entry × Outcome),
      n.committedPrefix = rows.map fun r ↦ (some r.1, some r.2) := by
  have hall : ∀ count index, index + count ≤ n.commitIndex → ∃ rows : List (Entry × Outcome),
      n.db.rowsFrom (index + 1) count = rows.map fun r ↦ (some r.1, some r.2) := by
    intro count
    induction count with
    | zero => exact fun index _ ↦ ⟨[], rfl⟩
    | succ count ih =>
      intro index hindex
      obtain ⟨rows, hrows⟩ := ih (index + 1) (by omega)
      have hle := h.commit_le
      have hlt : index < n.log.length := by omega
      have hentry : n.db.entry (index + 1) = some n.log[index] := by
        rw [Database.entry_succ h.rows, List.getElem?_eq_getElem]
      obtain ⟨r, hr⟩ := Option.isSome_iff_exists.mp
        (h.results (index + 1) (Nat.succ_pos _) (by omega))
      refine ⟨(n.log[index], r) :: rows, ?_⟩
      rw [Database.rowsFrom, List.range'_succ, List.map_cons, List.map_cons, hentry, hr, ← hrows,
        Database.rowsFrom]
  exact hall n.commitIndex 0 (Nat.le_of_eq (Nat.zero_add _))

theorem committedCheckpoint_eq_ok {p : ℕ × String} : n.committedCheckpoint = .ok p ↔
    ∃ rows : List (Entry × Outcome),
      n.committedPrefix = rows.map (fun r ↦ (some r.1, some r.2)) ∧
        ∃ d, digest (checkpointValue n.members (checkpointItems 1 rows)) = .ok d ∧
          p = (n.commitIndex, d) := by
  constructor
  · intro h
    obtain ⟨items, hitems, hrest⟩ := bind_eq_ok.mp h
    obtain ⟨rows, hrows, rfl⟩ := checkpointEntries_eq_ok.mp hitems
    obtain ⟨d, hd, hp⟩ := bind_eq_ok.mp hrest
    exact ⟨rows, hrows, d, hd, (Except.ok.inj hp).symm⟩
  · rintro ⟨rows, hrows, d, hd, rfl⟩
    exact bind_eq_ok.mpr ⟨_, checkpointEntries_eq_ok.mpr ⟨rows, hrows, rfl⟩,
      bind_eq_ok.mpr ⟨d, hd, rfl⟩⟩

theorem Sound.committed_stored (h : n.Sound M G i)
    (hrows : rows.map Prod.fst = n.log.take n.commitIndex) :
    ∀ row ∈ rows, canonicalCommand row.1.command = .ok row.1.command := fun row hrow ↦
  (h.entries row.1 (List.mem_of_mem_take (hrows ▸ List.mem_map_of_mem hrow))).command

/-- There is a checkpoint exactly as long as the history fits. -/
theorem Sound.exists_checkpoint (h : n.Sound M G i) :
    (∃ p, n.committedCheckpoint = .ok p) ↔ n.CheckpointFits := by
  have hvalue := fun (rows : List (Entry × Outcome))
      (hrows : rows.map Prod.fst = n.log.take n.commitIndex) ↦
    canonicalizes_checkpointValue (h.members.symm ▸ M.pinned_eq)
      (h.committed_stored hrows)
  constructor
  · rintro ⟨p, hp⟩
    obtain ⟨rows, hrows, d, hd, rfl⟩ := committedCheckpoint_eq_ok.mp hp
    obtain ⟨hlen, hle, hfst⟩ := h.map_fst_rows hrows
    obtain ⟨hitems, hall⟩ := (hvalue rows hfst).mp (exists_digest_eq_ok.mp ⟨d, hd⟩)
    have hlog : ∀ e ∈ n.log.take n.commitIndex, e.term ≤ maxSafeInteger ∧
        (Json.obj e.command).height + 3 ≤ maxCanonicalDepth := by
      rw [← hfst]
      intro e he
      obtain ⟨row, hrow, rfl⟩ := List.mem_map.mp he
      exact hall row hrow
    exact ⟨h.lastIndex_eq ▸ hle, hlen ▸ hitems, fun e he ↦ (hlog e he).1, fun e he ↦ (hlog e he).2⟩
  · intro hfits
    obtain ⟨rows, hrows⟩ := h.exists_rows (h.lastIndex_eq ▸ hfits.present)
    obtain ⟨hlen, -, hfst⟩ := h.map_fst_rows hrows
    have hall : ∀ row ∈ rows, row.1.term ≤ maxSafeInteger ∧
        (Json.obj row.1.command).height + 3 ≤ maxCanonicalDepth := fun row hrow ↦
      have hmem : row.1 ∈ n.log.take n.commitIndex := hfst ▸ List.mem_map_of_mem hrow
      ⟨hfits.terms _ hmem, hfits.depth _ hmem⟩
    obtain ⟨d, hd⟩ := exists_digest_eq_ok.mpr ((hvalue rows hfst).mpr ⟨hlen ▸ hfits.items, hall⟩)
    exact ⟨_, committedCheckpoint_eq_ok.mpr ⟨rows, hrows, d, hd, rfl⟩⟩

/-! ## What the checkpoint identifies -/

/-- The bytes that `committed_checkpoint` digests. -/
def checkpointBytes (n : Node) : Except Exn (List ℕ) := do
  let entries ← n.db.checkpointEntries 1 n.commitIndex
  canonicalBytes (checkpointValue n.members entries)

theorem exists_bytes_of_digest {d : String}
    (hrows : n.committedPrefix = rows.map fun r ↦ (some r.1, some r.2))
    (hd : digest (checkpointValue n.members (checkpointItems 1 rows)) = .ok d) :
    ∃ b, canonicalBytes (checkpointValue n.members (checkpointItems 1 rows)) = .ok b ∧
      n.checkpointBytes = .ok b ∧ d = Platform.sha256 b := by
  obtain ⟨b, hb, rfl⟩ := map_eq_ok.mp hd
  exact ⟨b, hb, bind_eq_ok.mpr ⟨_, checkpointEntries_eq_ok.mpr ⟨rows, hrows, rfl⟩, hb⟩, rfl⟩

end Node

end Fits

section Identity

variable [Platform] [FloatReader]

/-- A command that a Python dictionary can be: no key stands twice in an object, and a finite float
has the text that it is read from. -/
def Command.Proper (command : Command) : Prop := (PyValue.ofJson (.obj command)).Proper

omit [FloatReader] in
/-- Items with one form come from the same rows. -/
theorem eq_of_sameForm_checkpointItems
    (hrows : ∀ row ∈ rows, canonicalCommand row.1.command = .ok row.1.command)
    (hrows' : ∀ row ∈ rows', canonicalCommand row.1.command = .ok row.1.command)
    (h : List.Forall₂ (SameForm 2) (checkpointItems index rows) (checkpointItems index rows')) :
    rows = rows' := by
  induction rows generalizing index rows' with
  | nil =>
    cases rows' with
    | nil => rfl
    | cons => cases h
  | cons row rows ih =>
    cases rows' with
    | nil => cases h
    | cons row' rows' =>
      obtain ⟨hrow, hrows⟩ := List.forall_mem_cons.mp hrows
      obtain ⟨hrow', hrows'⟩ := List.forall_mem_cons.mp hrows'
      cases h with
      | cons hitem hitems =>
        have hterm : row.1.term = row'.1.term :=
          Int.ofNat_inj.mp (SameForm.int (hitem.lookup (k := "term") rfl rfl))
        have hcommand : Json.obj row.1.command = .obj row'.1.command :=
          (hitem.lookup (k := "command") rfl rfl).eq_of_self (canonicalCommand_eq_ok.mp hrow)
            (canonicalCommand_eq_ok.mp hrow')
        have hresult : row.2 = row'.2 :=
          Outcome.text_injective (SameForm.str (hitem.lookup (k := "result") rfl rfl))
        rw [ih hrows hrows' hitems]
        obtain ⟨⟨term, command⟩, r⟩ := row
        obtain ⟨⟨term', command'⟩, r'⟩ := row'
        cases hterm
        cases hcommand
        cases hresult
        rfl

omit [Platform] in
theorem proper_checkpointItems (hproper : ∀ row ∈ rows, row.1.command.Proper) :
    ∀ item ∈ checkpointItems index rows, (PyValue.ofJson item).Proper := by
  induction rows generalizing index with
  | nil => nofun
  | cons row rows ih =>
    obtain ⟨hrow, hproper⟩ := List.forall_mem_cons.mp hproper
    have hkeys : ["index", "term", "command", "result"].Nodup := by decide
    refine List.forall_mem_cons.mpr ⟨PyValue.proper_obj hkeys ?_, ih hproper⟩
    simp only [List.forall_mem_cons]
    exact ⟨⟨trivial, trivial⟩, ⟨trivial, trivial⟩, hrow, ⟨trivial, trivial⟩, nofun⟩

omit [Platform] in
theorem proper_checkpointValue (members : List NodeId)
    (hproper : ∀ row ∈ rows, row.1.command.Proper) :
    (PyValue.ofJson (checkpointValue members (checkpointItems 1 rows))).Proper := by
  have hkeys : ["schema", "membership", "committed_entries"].Nodup := by decide
  refine PyValue.proper_obj hkeys ?_
  simp only [List.forall_mem_cons]
  refine ⟨⟨trivial, trivial⟩, PyValue.proper_arr (List.forall_mem_map.mpr fun _ _ ↦ ?_),
    PyValue.proper_arr (proper_checkpointItems hproper), nofun⟩
  exact ⟨trivial, trivial⟩

variable {M : Membership} {G : Command → Prop} {i j : NodeId} {n n' : Node}

/-- No two different byte strings under the checkpoints of the nodes have one digest. -/
def Node.DigestsApart (n n' : Node) : Prop :=
  ∀ b b', n.checkpointBytes = .ok b → n'.checkpointBytes = .ok b' →
    Platform.sha256 b = Platform.sha256 b' → b = b'

/-- Two nodes of a cluster have the same checkpoint exactly if they have committed the same. -/
theorem Node.Sound.committedCheckpoint_eq_iff (h : n.Sound M G i) (h' : n'.Sound M G j)
    (hproper : ∀ e ∈ n.log.take n.commitIndex, e.command.Proper)
    (hproper' : ∀ e ∈ n'.log.take n'.commitIndex, e.command.Proper) (hdigest : n.DigestsApart n')
    {p p' : ℕ × String} (hp : n.committedCheckpoint = .ok p)
    (hp' : n'.committedCheckpoint = .ok p') : p = p' ↔ n.committedPrefix = n'.committedPrefix := by
  obtain ⟨rows, hrows, d, hd, rfl⟩ := committedCheckpoint_eq_ok.mp hp
  obtain ⟨rows', hrows', d', hd', rfl⟩ := committedCheckpoint_eq_ok.mp hp'
  obtain ⟨b, hb, hbytes, rfl⟩ := exists_bytes_of_digest hrows hd
  obtain ⟨b', hb', hbytes', rfl⟩ := exists_bytes_of_digest hrows' hd'
  obtain ⟨hlen, -, hfst⟩ := h.map_fst_rows hrows
  obtain ⟨hlen', -, hfst'⟩ := h'.map_fst_rows hrows'
  rw [Prod.mk.injEq]
  constructor
  · rintro ⟨-, hsha⟩
    have hbb := hdigest b b' hbytes hbytes' hsha
    obtain ⟨c, hc, hspell⟩ := map_eq_ok.mp hb
    obtain ⟨c', hc', hspell'⟩ := map_eq_ok.mp hb'
    have hrow : ∀ row ∈ rows, row.1.command.Proper := fun row hrow ↦
      hproper _ (hfst ▸ List.mem_map_of_mem hrow)
    have hrow' : ∀ row ∈ rows', row.1.command.Proper := fun row hrow ↦
      hproper' _ (hfst' ▸ List.mem_map_of_mem hrow)
    have hform : c = c' := by
      have hjson := PyValue.canonicalValue_ofJson 0
      refine PyValue.Proper.eq_of_spell_eq (proper_checkpointValue n.members hrow)
        (proper_checkpointValue n'.members hrow') ((hjson _).trans hc) ((hjson _).trans hc') ?_
      rw [hspell, hspell', hbb]
    have hsame : SameForm 0 (checkpointValue n.members (checkpointItems 1 rows))
        (checkpointValue n'.members (checkpointItems 1 rows')) := ⟨c, hc, hform ▸ hc'⟩
    have hentries : SameForm 1 (.arr (checkpointItems 1 rows)) (.arr (checkpointItems 1 rows')) :=
      hsame.lookup (k := "committed_entries") rfl rfl
    rw [hrows, hrows', eq_of_sameForm_checkpointItems (h.committed_stored hfst)
      (h'.committed_stored hfst') hentries.arr]
  · intro heq
    have hinj : Function.Injective fun r : Entry × Outcome ↦ (some r.1, some r.2) := by
      rintro ⟨e, r⟩ ⟨e', r'⟩ hsome
      simpa using hsome
    have hrowseq : rows = rows' := hinj.list_map (hrows.symm.trans (heq.trans hrows'))
    subst hrowseq
    rw [h.members, ← h'.members, hb', Except.ok.injEq] at hb
    exact ⟨hlen.symm.trans hlen', congrArg _ hb.symm⟩

/-! ## Equal checkpoints, equal committed prefixes -/

/-- What the checkpoints of two nodes of one cluster are for: there are two, they are equal exactly
if the committed prefixes are, and a proposal with the first one is not refused as stale. -/
def Node.Identified (n n' : Node) : Prop :=
  ∃ p p', n.committedCheckpoint = .ok p ∧ n'.committedCheckpoint = .ok p' ∧
    (p = p' ↔ n.committedPrefix = n'.committedPrefix) ∧
    ∀ peers i nodes command, nodes i = n →
      consensusPropose peers i nodes command (.int p.1) (.str p.2) =
        ((propose peers i nodes command).1.mapError raftUnavailable,
          (propose peers i nodes command).2)

omit [FloatReader] in
theorem consensusPropose_of_checkpoint {peers : List NodeId} {nodes : NodeId → Node}
    {command : Command} {p : ℕ × String} (hp : (nodes i).committedCheckpoint = .ok p) :
    consensusPropose peers i nodes command (.int p.1) (.str p.2) =
      ((propose peers i nodes command).1.mapError raftUnavailable,
        (propose peers i nodes command).2) := by
  rw [consensusPropose, hp]
  dsimp only
  rw [if_neg (by simp)]

/-! ## Long histories -/

omit [Platform] [FloatReader] in
theorem noop_applicable : Command.Applicable [("op", .str "noop")] := fun _ ↦ ⟨_, rfl⟩

omit [FloatReader] in
/-- A new node that is sent committed entries in one call has them. -/
theorem exists_reachable_commit {leader : NodeId} (hi : i ∈ M.members) (hl : leader ∈ M.members)
    (hne : leader ≠ i) {es : List Entry} (hes : ∀ e ∈ es, e.Sound Command.Applicable) :
    ∃ n, Reachable M anyInterleaving i n ∧ n.commitIndex = es.length := by
  have hinit : (M.initialNode i).Sound M Command.Applicable i := Node.initial_sound M i
  obtain ⟨f, hf, hsound, -, hlog, hcommit, -⟩ := hinit.exists_appendStepDown (Nat.zero_le 1) leader
  have hrows : f.db.raftLog = numberedFrom 1 [] := hsound.rows.trans (congrArg _ hlog)
  have hdb : Database.appendItems f.commitIndex f.db 1 es =
      .ok { f.db with raftLog := numberedFrom 1 es } :=
    Database.appendItems_end hrows f.commitIndex fun e he ↦ (hes e he).toStorable
  set m : Node := { f with db := { f.db with raftLog := numberedFrom 1 es } } with hm
  set m' : Node := if (m.commitIndex : ℤ) < es.length then
    m.setCommitIndex (min (es.length : ℤ).toNat m.db.lastIndex) else m with hm'
  have hlast : m.db.lastIndex = es.length := Database.lastIndex_eq rfl
  have hcommit' : m'.commitIndex = es.length := by
    rw [hm']
    split
    case isTrue =>
      change min (es.length : ℤ).toNat m.db.lastIndex = es.length
      rw [hlast, Int.toNat_natCast, Nat.min_self]
    case isFalse hge =>
      have hzero : m.commitIndex = 0 := hcommit
      omega
  have hrows' : m'.db.raftLog = numberedFrom 1 es := by
    rw [hm']
    split <;> rfl
  obtain ⟨f', hf'⟩ : ∃ f', m'.applyCommitted = .ok f' :=
    Node.exists_applyLoop hrows' (fun _ e _ _ he ↦ (hes e (List.mem_of_getElem? he)).kind)
      (.inl (Nat.le_of_eq hcommit'))
  have htransaction : f.appendTransaction 1 es es.length = .ok f' := bind_eq_ok.mpr ⟨_, hdb, hf'⟩
  have hparse : parseItems 0 (wireFrom 1 es) = .ok es :=
    parseItems_wireFrom_eq_ok fun e he ↦ (hes e he).term_pos
  -- a leader of the first term sends all entries at once, and all of them are committed
  set a : AppendArgs := ⟨1, leader, 0, 0, wireFrom 1 es, es.length⟩ with ha
  have hcall : ((M.initialNode i).appendEntries a).1 = f' := by
    have hmember : ¬(a.leaderId ∉ (M.initialNode i).members ∨
        a.leaderId = (M.initialNode i).nodeId) := fun hc ↦ hc.elim (fun hc ↦ hc hl) hne
    have hterm : ¬a.term < (M.initialNode i).term := (by decide : ¬(1 : ℤ) < (0 : ℕ))
    rw [Node.appendEntries, if_neg hmember, if_neg hterm]
    rw [show (M.initialNode i).appendStepDown a.term a.leaderId = .ok f from hf]
    dsimp only
    rw [Node.appendAccept, show f.db.entryAt a.prevIndex = some ⟨0, []⟩ from rfl]
    dsimp only
    have hprev : ¬((0 : ℕ) : ℤ) ≠ a.prevTerm := not_not.mpr rfl
    rw [if_neg hprev,
      show parseItems a.prevIndex.toNat a.entries = .ok es from hparse]
    dsimp only
    rw [show f.appendTransaction (a.prevIndex.toNat + 1) es a.leaderCommit = .ok f' from
      htransaction]
  have hstep : (machine M).step (machine M).init (.appendEntries i a) =
      some ((Cluster.initial M).setNode i ((M.initialNode i).appendEntries a).1) := if_pos hi
  refine ⟨f', ⟨_, Machine.Path.refl.tail trivial hstep, ?_⟩, ?_⟩
  · rw [Cluster.setNode_node_self, hcall]
  · obtain ⟨⟨_, _, _, _, rfl⟩, -⟩ := Node.applyCommitted_applied hf'
    exact hcommit'

end Identity

/-- **Checkpoints identify the committed prefix exactly as long as the history fits.** For any two
nodes of a cluster in states reached under any interleaving. -/
theorem identified_iff_fits [Platform] [FloatReader] (M : Membership) {i j : NodeId} {n n' : Node}
    (hn : Reachable M anyInterleaving i n) (hn' : Reachable M anyInterleaving j n')
    (hproper : ∀ e ∈ n.log.take n.commitIndex, e.command.Proper)
    (hproper' : ∀ e ∈ n'.log.take n'.commitIndex, e.command.Proper)
    (hdigest : n.DigestsApart n') :
    n.Identified n' ↔ n.CheckpointFits ∧ n'.CheckpointFits := by
  constructor
  · rintro ⟨p, p', hp, hp', -⟩
    exact ⟨hn.sound.exists_checkpoint.mp ⟨p, hp⟩, hn'.sound.exists_checkpoint.mp ⟨p', hp'⟩⟩
  · rintro ⟨hfits, hfits'⟩
    obtain ⟨p, hp⟩ := hn.sound.exists_checkpoint.mpr hfits
    obtain ⟨p', hp'⟩ := hn'.sound.exists_checkpoint.mpr hfits'
    refine ⟨p, p', hp, hp', hn.sound.committedCheckpoint_eq_iff hn'.sound hproper hproper' hdigest
      hp
      hp', fun peers k nodes command hk ↦ consensusPropose_of_checkpoint (hk ▸ hp)⟩

/-- The entry that `b` commits first while it leads the second term. -/
def overtakingEntry : Entry :=
  ⟨2, [("capability_id", .str "cap_00000000000000000000000b"),
    ("claims_digest", .str "0000000000000000000000000000000000000000000000000000000000000000"),
    ("consumed_at", .int 1), ("expires_at", .int 2), ("op", .str "consume"), ("scope", .str "lab")]⟩

theorem overtakingEntry_proper [FloatReader] : overtakingEntry.command.Proper := by
  refine PyValue.proper_obj (by decide) ?_
  simp only [overtakingEntry, List.forall_mem_cons]
  exact ⟨⟨trivial, trivial⟩, ⟨trivial, trivial⟩, ⟨trivial, trivial⟩, ⟨trivial, trivial⟩,
    ⟨trivial, trivial⟩, ⟨trivial, trivial⟩, nofun⟩

/-- Two nodes that have committed the same entry. -/
theorem identified_iff_fits_sample :
    let _ : Platform := pythonPlatform
    let _ : FloatReader := ⟨fun _ ↦ ⟨true, false, none, "0.5", "0.5"⟩⟩
    ∃ n n', Reachable laboratory anyInterleaving "a" n ∧
      Reachable laboratory anyInterleaving "b" n' ∧
      (n.commitIndex = 1 ∧ n.log = [overtakingEntry]) ∧
      (n'.commitIndex = 1 ∧ n'.log = [overtakingEntry]) ∧
      (n.Identified n' ↔ n.CheckpointFits ∧ n'.CheckpointFits) := by
  let := pythonPlatform
  intro _ _
  have hrun : ((machine laboratory).runIf anyInterleaving (machine laboratory).init
      (overtaken.take 28)).map (fun c ↦ (((c.node "a").commitIndex, (c.node "a").log),
        ((c.node "b").commitIndex, (c.node "b").log),
        decide ((c.node "a").checkpointBytes = (c.node "b").checkpointBytes))) =
      some ((1, [overtakingEntry]), (1, [overtakingEntry]), true) := by decide +kernel
  obtain ⟨c, hc, hstate⟩ := Option.map_eq_some_iff.mp hrun
  simp only [Prod.mk.injEq, decide_eq_true_eq] at hstate
  obtain ⟨⟨hcommit, hlog⟩, ⟨hcommit', hlog'⟩, hbytes⟩ := hstate
  have hreach : (machine laboratory).Reach anyInterleaving c := Machine.path_of_runIf hc
  have hproper : ∀ {n : Node}, n.log = [overtakingEntry] →
      ∀ e ∈ n.log.take n.commitIndex, e.command.Proper := by
    intro n hn e he
    have hmem := List.mem_of_mem_take he
    rw [hn] at hmem
    rw [List.mem_singleton.mp hmem]
    exact overtakingEntry_proper
  have hdigest : (c.node "a").DigestsApart (c.node "b") :=
    fun b b' hb hb' _ ↦ Except.ok.inj (hb.symm.trans (hbytes.trans hb'))
  exact ⟨_, _, ⟨c, hreach, rfl⟩, ⟨c, hreach, rfl⟩, ⟨hcommit, hlog⟩, ⟨hcommit', hlog'⟩,
    identified_iff_fits laboratory ⟨c, hreach, rfl⟩ ⟨c, hreach, rfl⟩ (hproper hlog)
      (hproper hlog') hdigest⟩

/-- A node that follows has committed 257 entries, and has no checkpoint any more: whoever proposes
on it is refused. -/
theorem not_identified_long : ∃ n, @Reachable pythonPlatform laboratory anyInterleaving "a" n ∧
    n.commitIndex = 257 ∧ (∀ p, @Node.committedCheckpoint pythonPlatform n ≠ .ok p) ∧
    ∀ peers nodes command checkpoint checkpointDigest, nodes "a" = n →
      ∃ e, (@consensusPropose pythonPlatform peers "a" nodes command checkpoint
        checkpointDigest).1 = .error e := by
  let := pythonPlatform
  have hes : ∀ e ∈ List.replicate 257 (⟨1, [("op", .str "noop")]⟩ : Entry),
      e.Sound Command.Applicable := by
    intro e he
    rw [List.eq_of_mem_replicate he]
    exact ⟨⟨by decide +kernel, Nat.one_pos, by decide⟩, noop_applicable⟩
  obtain ⟨n, hn, hcommit⟩ := exists_reachable_commit (M := laboratory) (by decide : "a" ∈ _)
    (by decide : "b" ∈ _) (by decide) hes
  have hnone : ∀ p, n.committedCheckpoint ≠ .ok p := by
    intro p hp
    have hfits := hn.sound.exists_checkpoint.mp ⟨p, hp⟩
    have hitems := hfits.items
    rw [hcommit, List.length_replicate] at hitems
    exact absurd hitems (by decide)
  refine ⟨n, hn, hcommit.trans List.length_replicate, hnone, ?_⟩
  intro peers nodes command checkpoint checkpointDigest ha
  rw [consensusPropose, ha]
  cases hp : n.committedCheckpoint with
  | error e => exact ⟨e, rfl⟩
  | ok p => exact absurd hp (hnone p)

end EventHorizon.Raft
