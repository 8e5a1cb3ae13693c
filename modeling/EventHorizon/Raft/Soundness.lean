import EventHorizon.Raft.Atomic
import EventHorizon.Raft.Calls

/-!
# Sound nodes

What every node has in every run, whatever the interleaving: a log without a gap whose entries can
be written, memory that agrees with the database, and nothing committed that is not
applied. A commit section that sets the commit index back breaks the index discipline, but none of
this.

Of the commands in the log one can say what is true of the stored form of all that come in, by
`propose` or by a call of `append_entries` from outside. What `propose` validates can be applied; an
`append_entries` from outside can write any other command.
-/

namespace EventHorizon.Raft

/-! ## Entries that can be applied -/

/-- The replay of the command does not raise. -/
def Command.Applicable (command : Command) : Prop :=
  ∀ consumed, ∃ x, replayCommand consumed command = .ok x

theorem Command.applicable_of_consumption {command : Command} {x : (String × String) × (String × ℤ)}
    (hop : Json.lookup command "op" = some (.str "consume")) (hx : command.consumption = .ok x) :
    command.Applicable := by
  intro consumed
  have hreplay : replayCommand consumed command =
      if (consumed.insertNew x.1 x.2).get? x.1 ≠ some x.2 then
        .ok (.collision, consumed.insertNew x.1 x.2)
      else if (consumed.get? x.1).isSome then .ok (.duplicate, consumed.insertNew x.1 x.2)
      else .ok (.fresh, consumed.insertNew x.1 x.2) := by
    rw [replayCommand, hop]
    dsimp only
    rw [hx]
    rfl
  rw [hreplay]
  split
  · exact ⟨_, rfl⟩
  split
  · exact ⟨_, rfl⟩
  · exact ⟨_, rfl⟩

section Stored

variable [Platform] {command stored : Command}

theorem lookup_stored_int (h : canonicalCommand command = .ok stored) {k : String} {n : ℤ}
    (hk : Json.lookup command k = some (.int n)) : Json.lookup stored k = some (.int n) := by
  obtain ⟨v, hv, hok⟩ := lookup_canonical_eq_some (canonicalCommand_eq_ok.mp h) hk
  rw [hv, eq_of_canonicalValue_int hok]

omit [Platform] in
theorem Command.require_eq_ok {k : String} {v : Json} :
    command.require k = .ok v ↔ Json.lookup command k = some v := by
  rw [Command.require]
  cases Json.lookup command k with
  | none => exact ⟨(fun h ↦ by cases h), (fun h ↦ by cases h)⟩
  | some w => exact ⟨fun h ↦ congrArg some (Except.ok.inj h), fun h ↦ by cases h; rfl⟩

/-- What `propose` accepts can be applied once it is stored. -/
theorem applicable_of_checkProposal (hcheck : Node.checkProposal command = .ok ())
    (hstored : canonicalCommand command = .ok stored) : stored.Applicable := by
  rw [Node.checkProposal] at hcheck
  split at hcheck
  case h_2 => cases hcheck
  case h_1 scope hop hscope =>
    obtain ⟨-, hcheck⟩ := throw_if_eq_ok.mp hcheck
    obtain ⟨token, htoken, hcheck⟩ := bind_eq_ok.mp hcheck
    obtain ⟨binding, hbinding, hcheck⟩ := bind_eq_ok.mp hcheck
    obtain ⟨expiry, hexpiry, hcheck⟩ := bind_eq_ok.mp hcheck
    obtain ⟨consumedAt, hconsumedAt, hcheck⟩ := bind_eq_ok.mp hcheck
    obtain ⟨c, hc, -⟩ := bind_eq_ok.mp hcheck
    obtain ⟨rfl, rfl, rfl, rfl⟩ := Replay.validateTransition_ok hc
    rw [Command.require_eq_ok] at htoken hbinding hexpiry hconsumedAt
    refine Command.applicable_of_consumption
      (x := ((scope, c.capabilityId), (c.claimsDigest, c.expiresAt)))
        (lookup_stored_str hstored hop) ?_
    refine bind_eq_ok.mpr ⟨.str scope,
      Command.require_eq_ok.mpr (lookup_stored_str hstored hscope), ?_⟩
    refine bind_eq_ok.mpr ⟨_, Command.require_eq_ok.mpr (lookup_stored_str hstored htoken), ?_⟩
    refine bind_eq_ok.mpr ⟨_, Command.require_eq_ok.mpr (lookup_stored_str hstored hbinding), ?_⟩
    refine bind_eq_ok.mpr ⟨_, Command.require_eq_ok.mpr (lookup_stored_int hstored hexpiry), ?_⟩
    refine bind_eq_ok.mpr ⟨_, Command.require_eq_ok.mpr (lookup_stored_int hstored hconsumedAt), ?_⟩
    exact bind_eq_ok.mpr ⟨c, hc, rfl⟩

variable (G : Command → Prop)

/-- What every command is that `propose` accepts, once it is stored. -/
def Proposed : Prop :=
  ∀ command stored, Node.checkProposal command = .ok () → canonicalCommand command = .ok stored →
    G stored

/-- An entry that can be written as it is, with a command of some kind. -/
structure Entry.Sound (e : Entry) : Prop extends e.Storable where
  kind : G e.command

/-- The entries of a call, each of some kind once it is stored. -/
def Supplies (es : List Entry) : Prop :=
  ∀ e ∈ es, ∀ stored, canonicalCommand e.command = .ok stored → G stored

variable {G}

theorem proposed_applicable : Proposed Command.Applicable :=
  fun _ _ ↦ applicable_of_checkProposal

theorem supplies_of_sound {es : List Entry} (h : ∀ e ∈ es, e.Sound G) : Supplies G es := by
  intro e he stored hstored
  rw [(h e he).command, Except.ok.injEq] at hstored
  exact hstored ▸ (h e he).kind

omit [Platform] in
theorem parseItem_term_pos {cursor : ℕ} {item : Json} {e : Entry}
    (h : parseItem cursor item = some e) : 0 < e.term := by
  obtain ⟨fields, -, h⟩ := Option.bind_eq_some_iff.mp h
  obtain ⟨index, -, h⟩ := Option.bind_eq_some_iff.mp h
  obtain ⟨term, -, h⟩ := Option.bind_eq_some_iff.mp h
  obtain ⟨command, -, h⟩ := Option.bind_eq_some_iff.mp h
  split at h
  case isTrue hpos =>
    cases h
    dsimp only
    omega
  case isFalse => cases h

omit [Platform] in
/-- The validation loop lets no entry through whose term is not positive. -/
theorem parseItems_term_pos {cursor : ℕ} {items : List Json} {es : List Entry}
    (h : parseItems cursor items = .ok es) : ∀ e ∈ es, 0 < e.term := by
  induction items generalizing cursor es with
  | nil =>
    cases h
    nofun
  | cons item items ih =>
    rw [parseItems] at h
    split at h
    · cases h
    next e he =>
      obtain ⟨rest, hrest, h⟩ := bind_eq_ok.mp h
      cases h
      exact List.forall_mem_cons.mpr ⟨parseItem_term_pos he, ih hrest⟩

end Stored

/-! ## Writing entries -/

section Append

variable [Platform] {commit k : ℕ} {l l' es : List Entry} {db db' : Database}

/-- The commit index only forbids. -/
theorem Database.appendItem_zero {e : Entry} (h : db.appendItem commit (k + 1) e = .ok db') :
    db.appendItem 0 (k + 1) e = .ok db' := by
  rw [appendItem] at h ⊢
  split at h
  · exact h
  split at h
  case isTrue hne =>
    split at h
    · cases h
    · rw [if_pos hne, if_neg (Nat.not_succ_le_zero k)]
      exact h
  case isFalse hne =>
    rw [if_neg hne]
    exact h

theorem Database.appendItems_zero (h : appendItems commit db (k + 1) es = .ok db') :
    appendItems 0 db (k + 1) es = .ok db' := by
  induction es generalizing db k with
  | nil => exact h
  | cons e es ih =>
    obtain ⟨db₁, h₁, h⟩ := bind_eq_ok.mp h
    exact bind_eq_ok.mpr ⟨db₁, appendItem_zero h₁, ih h⟩

/-- SQLite refuses a term that does not fit into 64 bits. -/
theorem Database.appendItems_term_lt (h : appendItems commit db k es = .ok db')
    (hdb : ∀ r ∈ db.raftLog, r.2.term < 2 ^ 63) : ∀ r ∈ db'.raftLog, r.2.term < 2 ^ 63 := by
  induction es generalizing db k with
  | nil =>
    cases h
    exact hdb
  | cons e es ih =>
    obtain ⟨db₁, h₁, h⟩ := bind_eq_ok.mp h
    refine ih h ?_
    have hinsert : ∀ {db₀ : Database}, (∀ r ∈ db₀.raftLog, r.2.term < 2 ^ 63) →
        db₀.insertEntry k e = .ok db₁ → ∀ r ∈ db₁.raftLog, r.2.term < 2 ^ 63 := by
      intro db₀ hdb₀ hins r hr
      obtain ⟨command, -, hlt, -, rfl⟩ := insertEntry_eq_ok.mp hins
      rcases List.mem_append.mp hr with hr | hr
      · exact hdb₀ r hr
      · rw [List.mem_singleton.mp hr]
        exact hlt
    rw [appendItem] at h₁
    split at h₁
    · exact hinsert hdb h₁
    split at h₁
    · split at h₁
      · cases h₁
      · exact hinsert (fun r hr ↦ hdb r (List.mem_of_mem_filter hr)) h₁
    · cases h₁
      exact hdb

/-- Splicing writes only entries that were supplied. -/
theorem Spliced.forall_mem {P : Entry → Prop} (h : Spliced commit l k es l') (hl : ∀ e ∈ l, P e)
    (hes : ∀ e ∈ es, ∀ stored, canonicalCommand e.command = .ok stored → P ⟨e.term, stored⟩) :
    ∀ e ∈ l', P e := by
  induction h with
  | nil => exact hl
  | keep _ _ _ _ ih => exact ih hl fun e he ↦ hes e (List.mem_cons_of_mem _ he)
  | write hk hcommit hcommand hnew h ih =>
    refine ih (fun e he ↦ ?_) fun e he ↦ hes e (List.mem_cons_of_mem _ he)
    rcases List.mem_append.mp he with he | he
    · exact hl e (List.mem_of_mem_take he)
    · rw [List.mem_singleton.mp he]
      exact hes _ List.mem_cons_self _ hcommand

end Append

/-! ## Nodes -/

section Nodes

variable [Platform] (M : Membership) (G : Command → Prop)

/-- Every index that is applied has its decision. -/
def Node.HasResults (n : Node) : Prop :=
  ∀ k, 0 < k → k ≤ n.appliedIndex → (n.db.replayResults.get? k).isSome

/-- What every node has in every run. -/
structure Node.Sound (i : NodeId) (n : Node) : Prop extends n.Mirrors where
  nodeId : n.nodeId = i
  members : n.members = M.members
  rows : n.db.raftLog = numberedFrom 1 n.log
  entries : ∀ e ∈ n.log, e.Sound G
  term : n.term = n.db.term
  commit_le : n.commitIndex ≤ n.appliedIndex
  results : n.HasResults
  leads : n.role = .leader → 0 < n.term

/-- A section leaves a node sound and its term no smaller. -/
structure Node.SoundTo (i : NodeId) (n n' : Node) : Prop where
  sound : n'.Sound M G i
  term_le : n.term ≤ n'.term

variable {M G} {i : NodeId} {n n' : Node}

namespace Node

/-- What the loop of `_apply_committed` writes. -/
def Applied (n n' : Node) : Prop :=
  ∃ k k' rs consumed, n' = { n with
    appliedIndex := k
    db := { n.db with appliedIndex := k', replayResults := rs, consumed := consumed } }

omit [Platform] in
theorem applyLoop_applied {fuel : ℕ} (h : applyLoop fuel n = .ok n') :
    n.Applied n' ∧ (n.commitIndex ≤ n.appliedIndex + fuel → n'.commitIndex ≤ n'.appliedIndex) := by
  induction fuel generalizing n with
  | zero =>
    cases h
    exact ⟨⟨_, _, _, _, rfl⟩, id⟩
  | succ fuel ih =>
    rw [applyLoop] at h
    split at h
    case isTrue =>
      obtain ⟨n₁, h₁, h⟩ := bind_eq_ok.mp h
      rw [applyNext] at h₁
      split at h₁
      · cases h₁
      obtain ⟨⟨r, consumed⟩, -, h₁⟩ := bind_eq_ok.mp h₁
      cases h₁
      obtain ⟨⟨k, k', rs, c, rfl⟩, hle⟩ := ih h
      exact ⟨⟨k, k', rs, c, rfl⟩, fun h ↦ hle (by dsimp only; omega)⟩
    case isFalse hle =>
      cases h
      exact ⟨⟨_, _, _, _, rfl⟩, fun _ ↦ Nat.not_lt.mp hle⟩

omit [Platform] in
theorem applyCommitted_applied (h : n.applyCommitted = .ok n') :
    n.Applied n' ∧ n'.commitIndex ≤ n'.appliedIndex :=
  (applyLoop_applied h).imp_right fun hle ↦ hle (by omega)

end Node

omit [Platform] in
theorem Node.applyLoop_hasResults {fuel : ℕ} (hn : n.HasResults) (h : applyLoop fuel n = .ok n') :
    n'.HasResults := by
  induction fuel generalizing n with
  | zero =>
    cases h
    exact hn
  | succ fuel ih =>
    rw [applyLoop] at h
    split at h
    case isTrue =>
      obtain ⟨n₁, h₁, h⟩ := bind_eq_ok.mp h
      refine ih (fun k hpos hk ↦ ?_) h
      rw [applyNext] at h₁
      split at h₁
      · cases h₁
      obtain ⟨⟨r, consumed⟩, -, h₁⟩ := bind_eq_ok.mp h₁
      cases h₁
      dsimp only at hk ⊢
      rw [Table.get?_insertNew]
      split
      case isTrue => rfl
      case isFalse hne =>
        exact hn k hpos (Nat.le_of_lt_succ (Nat.lt_of_le_of_ne hk hne))
    case isFalse =>
      cases h
      exact hn

omit [Platform] in
/-- Committed entries are applied if the ones that are not yet applied can be. -/
theorem Node.exists_applyLoop {l : List Entry} {fuel : ℕ} (hrows : n.db.raftLog = numberedFrom 1 l)
    (happ : ∀ k e, n.appliedIndex ≤ k → k < n.commitIndex → l[k]? = some e →
      e.command.Applicable)
    (hle : n.commitIndex ≤ l.length ∨ n.commitIndex ≤ n.appliedIndex) :
    ∃ n', applyLoop fuel n = .ok n' := by
  induction fuel generalizing n with
  | zero => exact ⟨n, rfl⟩
  | succ fuel ih =>
    rw [applyLoop]
    split
    case isFalse => exact ⟨n, rfl⟩
    case isTrue hlt =>
      have hbound : n.appliedIndex < l.length := by omega
      have hentry : n.db.entry (n.appliedIndex + 1) = some l[n.appliedIndex] := by
        rw [Database.entry_succ hrows, List.getElem?_eq_getElem hbound]
      obtain ⟨⟨r, consumed⟩, hr⟩ := happ n.appliedIndex _ (Nat.le_refl _) hlt
        (List.getElem?_eq_getElem hbound) n.db.consumed
      have hnext : n.applyNext = .ok { n with
          appliedIndex := n.appliedIndex + 1
          db := { n.db with
            consumed := consumed
            replayResults := n.db.replayResults.insertNew (n.appliedIndex + 1) r
            appliedIndex := n.appliedIndex + 1 } } := by
        rw [applyNext, hentry]
        exact bind_eq_ok.mpr ⟨_, hr, rfl⟩
      obtain ⟨n', hn'⟩ := ih (n := { n with
          appliedIndex := n.appliedIndex + 1
          db := { n.db with
            consumed := consumed
            replayResults := n.db.replayResults.insertNew (n.appliedIndex + 1) r
            appliedIndex := n.appliedIndex + 1 } }) hrows
              (fun k e hk ↦ happ k e (Nat.le_of_succ_le hk)) (by dsimp only; omega)
      exact ⟨n', bind_eq_ok.mpr ⟨_, hnext, hn'⟩⟩

namespace Node.Sound

theorem lastIndex_eq (h : n.Sound M G i) : n.db.lastIndex = n.log.length :=
  Database.lastIndex_eq h.rows

/-- A section that writes neither the log nor an index. -/
theorem of_frame (h : n.Sound M G i) (hid : n'.nodeId = n.nodeId)
    (hmembers : n'.members = n.members)
    (hlog : n'.db.raftLog = n.db.raftLog) (hterm : n'.term = n'.db.term)
    (hmirrors : n'.Mirrors) (hle : n'.commitIndex ≤ n'.appliedIndex) (hresults : n'.HasResults)
    (hleads : n'.role = .leader → 0 < n'.term) : n'.Sound M G i := by
  have hlogs : n'.log = n.log := congrArg (List.map Prod.snd) hlog
  exact ⟨hmirrors, hid.trans h.nodeId, hmembers.trans h.members, by rw [hlog, hlogs, ← h.rows],
    by rw [hlogs]; exact h.entries, hterm, hle, hresults, hleads⟩

theorem soundTo_self (h : n.Sound M G i) : n.SoundTo M G i n := ⟨h, Nat.le_refl _⟩

theorem stepDown (h : n.Sound M G i) {t : ℕ} {leader : Option NodeId}
    (hn : n.stepDown t leader = .ok n') : n.SoundTo M G i n' ∧ t ≤ n'.term := by
  have hmirrors := (stepDown_sameButVote hn).mirrors h.toMirrors
  rw [Node.stepDown] at hn
  split at hn
  · cases hn
  case isFalse ht =>
    cases hn
    rw [adoptTerm] at hmirrors ⊢
    split
    case isTrue hlt =>
      rw [if_pos hlt] at hmirrors
      exact ⟨⟨h.of_frame rfl rfl rfl rfl hmirrors h.commit_le h.results (fun h ↦ by cases h),
        Nat.le_of_lt hlt⟩, Nat.le_refl _⟩
    case isFalse hlt =>
      rw [if_neg hlt] at hmirrors
      exact ⟨⟨h.of_frame rfl rfl rfl h.term hmirrors h.commit_le h.results (fun h ↦ by cases h),
        Nat.le_refl _⟩, Nat.not_lt.mp hlt⟩

/-- The first section of `elect` starts a term that is not the first of all. -/
theorem electStart (h : n.Sound M G i) (hn : n.electStart = .ok n') :
    n.SoundTo M G i n' ∧ 0 < n'.term := by
  have hmirrors := electStart_mirrors h.toMirrors hn
  obtain ⟨n₁, h₁, hn⟩ := bind_eq_ok.mp hn
  cases hn
  obtain ⟨hsound, hterm⟩ := h.stepDown h₁
  exact ⟨⟨hsound.sound.of_frame rfl rfl rfl hsound.sound.term hmirrors hsound.sound.commit_le
    hsound.sound.results nofun,
    hsound.term_le⟩, Nat.lt_of_lt_of_le (Nat.succ_pos _) hterm⟩

theorem electStepDown (h : n.Sound M G i) (hn : n.electStepDown = .ok n') : n.SoundTo M G i n' :=
  (h.stepDown hn).1

theorem requestVoteStepDown (h : n.Sound M G i) {t : ℤ} (hn : n.requestVoteStepDown t = .ok n') :
    n.SoundTo M G i n' := by
  rw [Node.requestVoteStepDown] at hn
  split at hn
  · exact (h.stepDown hn).1
  · cases hn
    exact h.soundTo_self

theorem requestVote (h : n.Sound M G i) (t : ℤ) (candidate : NodeId) (li lt : ℤ) :
    n.SoundTo M G i (n.requestVote t candidate li lt).1 := by
  have hmirrors := requestVote_mirrors h.toMirrors t candidate li lt
  obtain ⟨m, hm⟩ := n.requestVoteStepDown_ok t
  have hsound := h.requestVoteStepDown hm
  rw [Node.requestVote, hm] at hmirrors ⊢
  split
  · exact h.soundTo_self
  split
  · exact h.soundTo_self
  next h₁ h₂ =>
    rw [if_neg h₁, if_neg h₂] at hmirrors
    dsimp only at hmirrors ⊢
    rw [requestVoteGrant] at hmirrors ⊢
    split
    case isTrue hg =>
      rw [if_pos hg] at hmirrors
      exact ⟨hsound.sound.of_frame rfl rfl rfl hsound.sound.term hmirrors hsound.sound.commit_le
        hsound.sound.results hsound.sound.leads, hsound.term_le⟩
    case isFalse => exact hsound

theorem electCount (h : n.Sound M G i) (electionTerm votes theirTerm : ℕ) (grant : Bool) :
    n.SoundTo M G i (n.electCount electionTerm votes theirTerm grant).1 := by
  rw [Node.electCount]
  split
  · split
    · exact h.soundTo_self
    next n₁ h₁ => exact (h.stepDown h₁).1
  split
  · exact h.soundTo_self
  · exact h.soundTo_self

theorem electFinish (h : n.Sound M G i) (hterm : 0 < n.term) (peers : List NodeId) (votes : ℕ) :
    n.SoundTo M G i (n.electFinish peers votes) := by
  have hmirrors := electFinish_mirrors h.toMirrors peers votes
  rw [Node.electFinish] at hmirrors ⊢
  split
  case isTrue hwins =>
    rw [if_pos hwins] at hmirrors
    exact ⟨h.of_frame rfl rfl rfl h.term hmirrors h.commit_le h.results fun _ ↦ hterm, Nat.le_refl
      _⟩
  case isFalse => exact h.soundTo_self

theorem replicateSettle (h : n.Sound M G i) (peer : NodeId) (m : Message) (r : AppendReply) :
    n.SoundTo M G i (n.replicateSettle peer m r).1 := by
  rw [Node.replicateSettle]
  split
  · split
    · exact h.soundTo_self
    next n₁ h₁ => exact (h.stepDown h₁).1
  split
  · exact h.soundTo_self
  split
  · exact ⟨h.of_frame rfl rfl rfl h.term ⟨h.commitIndex, h.appliedIndex⟩ h.commit_le h.results
      h.leads,
      Nat.le_refl _⟩
  split
  · exact h.soundTo_self
  · exact ⟨h.of_frame rfl rfl rfl h.term ⟨h.commitIndex, h.appliedIndex⟩ h.commit_le h.results
      h.leads,
      Nat.le_refl _⟩

/-- A node that has applied what is committed. -/
theorem of_applied (h : n.Sound M G i) {m : Node} (happ : m.applyCommitted = .ok n')
    (hm : m.Mirrors) (hid : m.nodeId = n.nodeId) (hmembers : m.members = n.members)
    (hlog : m.db.raftLog = n.db.raftLog) (hterm : m.term = m.db.term) (hresults : m.HasResults)
    (hleads : m.role = .leader → 0 < m.term) : n'.Sound M G i ∧ n'.term = m.term := by
  have hmirrors := (applyLoop_keeps (k := 0) happ).2.2 hm
  have hresults' := applyLoop_hasResults hresults happ
  obtain ⟨⟨_, _, _, _, rfl⟩, hle⟩ := applyCommitted_applied happ
  exact ⟨h.of_frame hid hmembers hlog hterm hmirrors hle hresults' hleads, rfl⟩

theorem proposeAppend (h : n.Sound M G i) (hG : Proposed G) {command : Command}
    (hn : n.proposeAppend command = .ok n') : n.SoundTo M G i n' := by
  have hmirrors := proposeAppend_mirrors h.toMirrors hn
  obtain ⟨⟨⟩, hcheck, hn⟩ := bind_eq_ok.mp hn
  obtain ⟨hrole, hn⟩ := throw_if_eq_ok.mp hn
  obtain ⟨db, hdb, hn⟩ := bind_eq_ok.mp hn
  rw [h.lastIndex_eq] at hdb
  obtain ⟨stored, hstored, hlt, rfl⟩ := Database.insertEntry_next h.rows hdb
  cases hn
  have hlog : (numberedFrom 1 (n.log ++ [⟨n.term, stored⟩])).map Prod.snd =
      n.log ++ [⟨n.term, stored⟩] := map_snd_numberedFrom _ _
  refine ⟨⟨hmirrors, h.nodeId, h.members, congrArg (numberedFrom 1) hlog.symm, fun e he ↦ ?_,
    h.term, h.commit_le, h.results, h.leads⟩, Nat.le_refl _⟩
  have he : e ∈ n.log ++ [⟨n.term, stored⟩] := hlog.symm ▸ he
  rcases List.mem_append.mp he with he | he
  · exact h.entries e he
  · rw [List.mem_singleton.mp he]
    exact ⟨⟨canonicalCommand_idem hstored, h.leads (not_not.mp hrole), hlt⟩,
      hG command stored hcheck hstored⟩

/-- A rollback gives back the node of before the transaction. -/
theorem rollback_fst (h : n.Sound M G i) (e : Exn) : (n.rollback e).1 = n := by
  rw [Node.rollback_fst, ← h.commitIndex, ← h.appliedIndex]

theorem proposeCommit (h : n.Sound M G i) (position : ℕ) :
    n.SoundTo M G i (n.proposeCommit position).1 := by
  have hmirrors := proposeCommit_mirrors h.toMirrors position
  rw [Node.proposeCommit] at hmirrors ⊢
  split
  · exact h.soundTo_self
  split
  · exact h.soundTo_self
  next h₁ h₂ =>
    rw [if_neg h₁, if_neg h₂] at hmirrors
    split
    next e he =>
      dsimp only
      rcases n.giveUp_fst e with heq | heq <;> rw [heq, h.rollback_fst]
      · exact h.soundTo_self
      · exact ⟨h.of_frame rfl rfl rfl h.term ⟨h.commitIndex, h.appliedIndex⟩ h.commit_le h.results
          (fun hl ↦ by cases hl), Nat.le_refl _⟩
    next n₁ happ =>
      obtain ⟨hsound, hterm⟩ := h.of_applied happ (setCommitIndex_mirrors h.toMirrors position)
        rfl rfl rfl h.term h.results h.leads
      exact ⟨hsound, Nat.le_of_eq hterm.symm⟩

omit [Platform] in
theorem entryAt_le (hrows : n.db.raftLog = numberedFrom 1 n.log) {index : ℤ} {e : Entry}
    (he : n.db.entryAt index = some e) : index.toNat ≤ n.log.length := by
  rw [Database.entryAt] at he
  split at he
  · cases he
  case isFalse hnonneg =>
    obtain ⟨k, hk⟩ : ∃ k : ℕ, index = k := ⟨index.toNat, by omega⟩
    rw [hk, Int.toNat_natCast] at he ⊢
    cases k with
    | zero => exact Nat.zero_le _
    | succ k =>
      rw [Database.entry_succ hrows] at he
      exact (List.getElem?_eq_some_iff.mp he).1

theorem appendTransaction (h : n.Sound M G i) {k : ℕ} {es : List Entry} {leaderCommit : ℤ}
    (hk : k ≤ n.log.length) (hpos : ∀ e ∈ es, 0 < e.term) (hes : Supplies G es)
    (hn : n.appendTransaction (k + 1) es leaderCommit = .ok n') :
    n'.Sound M G i ∧ n'.term = n.term := by
  obtain ⟨db, hdb, happ⟩ := bind_eq_ok.mp hn
  obtain ⟨-, hindices, -⟩ := Database.appendItems_keeps hdb
  obtain ⟨l', hl', rfl⟩ := Database.appendItems_spliced h.rows hk (Nat.zero_le _)
    (Database.appendItems_zero hdb)
  have hlog : (numberedFrom 1 l').map Prod.snd = l' := map_snd_numberedFrom _ _
  have hterms : ∀ e ∈ l', e.term < 2 ^ 63 := by
    intro e he
    obtain ⟨r, hr, rfl⟩ := List.mem_map.mp (hlog ▸ he)
    refine Database.appendItems_term_lt hdb (fun r hr ↦ ?_) r hr
    exact (h.entries r.2 (List.mem_map_of_mem hr)).term_lt
  have hsound : ∀ e ∈ l', e.Sound G := fun e he ↦
    hl'.forall_mem (P := fun e ↦ e.term < 2 ^ 63 → e.Sound G) (fun e he _ ↦ h.entries e he)
      (fun e he stored hstored hlt ↦
        ⟨⟨canonicalCommand_idem hstored, hpos e he, hlt⟩, hes e he stored hstored⟩) e he
          (hterms e he)
  set m : Node := { n with db := { n.db with raftLog := numberedFrom 1 l' } } with hm
  have hmsound : m.Sound M G i :=
    ⟨⟨h.commitIndex, h.appliedIndex⟩, h.nodeId, h.members, congrArg (numberedFrom 1) hlog.symm,
      fun e he ↦ hsound e (hlog ▸ he), h.term, h.commit_le, h.results, h.leads⟩
  dsimp only at happ
  split at happ
  · exact (hmsound.of_applied happ (setCommitIndex_mirrors hmsound.toMirrors _) rfl rfl rfl
      hmsound.term hmsound.results hmsound.leads :)
  · exact (hmsound.of_applied happ hmsound.toMirrors rfl rfl rfl hmsound.term
      hmsound.results hmsound.leads :)

theorem appendStepDown (h : n.Sound M G i) {term : ℤ} {leaderId : NodeId}
    (hn : n.appendStepDown term leaderId = .ok n') : n.SoundTo M G i n' ∧ n'.log = n.log := by
  have hlog : n'.log = n.log := by
    obtain ⟨_, _, _, _, _, _, rfl⟩ := appendStepDown_sameButVote hn
    rfl
  rw [Node.appendStepDown] at hn
  split at hn
  · exact ⟨(h.stepDown hn).1, hlog⟩
  · cases hn
    exact ⟨⟨h.of_frame rfl rfl rfl h.term ⟨h.commitIndex, h.appliedIndex⟩ h.commit_le h.results
      h.leads,
      Nat.le_refl _⟩, hlog⟩

/-- A call that carries entries that are sound once they are stored. -/
theorem appendEntries (h : n.Sound M G i) (a : AppendArgs)
    (ha : ∀ es, parseItems a.prevIndex.toNat a.entries = .ok es → Supplies G es) :
    n.SoundTo M G i (n.appendEntries a).1 := by
  rw [Node.appendEntries]
  split
  · exact h.soundTo_self
  split
  · exact h.soundTo_self
  split
  · exact h.soundTo_self
  next n₁ hn₁ =>
    obtain ⟨hsound, -⟩ := h.appendStepDown hn₁
    rw [appendAccept]
    split
    · split <;> exact hsound
    next prev hprev =>
    split
    · exact hsound
    split
    · exact hsound
    next es hes =>
      split
      next e he =>
        dsimp only
        rw [hsound.sound.rollback_fst]
        exact hsound
      next n₂ hn₂ =>
        obtain ⟨hsound₂, hterm⟩ := hsound.sound.appendTransaction
          (entryAt_le hsound.sound.rows hprev) (parseItems_term_pos hes) (ha es hes) hn₂
        exact ⟨hsound₂, hterm ▸ hsound.term_le⟩

end Node.Sound

/-- A database opens to a sound node if it was that of one. -/
theorem Node.Sound.reopened (h : n.Sound M G i) (hn : Node.open i M.members n.db = .ok n') :
    n.SoundTo M G i n' := by
  obtain ⟨pinned, happ⟩ := applyCommitted_of_open hn
  have hmoved : ({ n with nodeId := i, members := M.members } : Node).Sound M G i :=
    h.of_frame h.nodeId.symm h.members.symm rfl h.term ⟨h.commitIndex, h.appliedIndex⟩ h.commit_le
      h.results h.leads
  obtain ⟨hsound, hterm⟩ := hmoved.of_applied happ ⟨rfl, rfl⟩ rfl rfl rfl rfl
    (fun k hpos hk ↦ h.results k hpos (h.appliedIndex ▸ hk)) nofun
  exact ⟨hsound, Nat.le_of_eq (h.term.trans hterm.symm)⟩

theorem Node.initial_sound (M : Membership) (i : NodeId) : (M.initialNode i).Sound M G i :=
  ⟨⟨rfl, rfl⟩, rfl, rfl, rfl, nofun, rfl, Nat.le_refl _, fun _ h h' ↦ absurd h' (Nat.not_le.mpr h),
    nofun⟩

/-! ## Clusters -/

/-- What a call in progress needs for the nodes to stay sound. -/
def Call.Sound (G : Command → Prop) (c : Cluster) : Call → Prop
  | .elect e => 0 < (c.node e.node).term
  | .propose p => ∀ peer turns m, p.stage = .inflight peer turns m →
      ∀ es, parseItems m.args.prevIndex.toNat m.args.entries = .ok es → Supplies G es

/-- The nodes of a cluster are sound, and what its calls carry is. -/
structure Cluster.Sound (M : Membership) (G : Command → Prop) (c : Cluster) : Prop where
  nodes : ∀ j, (c.node j).Sound M G j
  calls : ∀ r ∈ c.calls, r.2.Sound G c

/-- The guard of runs in which a call of `append_entries` from outside carries commands of some kind
only, once they are stored. -/
def supplies (G : Command → Prop) (_ : Cluster) : Action → Prop
  | .appendEntries _ args =>
    ∀ es, parseItems args.prevIndex.toNat args.entries = .ok es → Supplies G es
  | _ => True

variable {c c' : Cluster} {a : Action}

omit [Platform] in
theorem mem_put_calls {id : ℕ} {call : Call} {r : ℕ × Call} (h : r ∈ c.calls.put id call) :
    r.2 = call ∨ r ∈ c.calls :=
  (Table.mem_of_mem_put h).imp_left fun h ↦ congrArg Prod.snd h

/-- A message of a sound leader. -/
theorem Node.Sound.replicateSend (h : n.Sound M G i) {peer : NodeId} {m : Node.Message}
    (hm : n.replicateSend peer = .ok (some m)) {es : List Entry}
    (hes : parseItems m.args.prevIndex.toNat m.args.entries = .ok es) : Supplies G es := by
  rw [Node.replicateSend] at hm
  split at hm
  · cases hm
  dsimp only at hm
  split at hm
  · cases hm
  next previous hprev =>
    obtain ⟨items, hitems, hm⟩ := bind_eq_ok.mp hm
    cases hm
    dsimp only at hes
    have hle := entryAt_le h.rows hprev
    generalize hnext : (n.next.get? peer).getD (n.db.lastIndex + 1) = next at *
    obtain ⟨k, rfl⟩ : ∃ k, next = k + 1 := by
      refine ⟨next - 1, ?_⟩
      by_contra hzero
      rw [Database.entryAt, if_pos (by omega)] at hprev
      cases hprev
    have hk : (((k + 1 : ℕ) : ℤ) - 1).toNat = k := by omega
    rw [hk] at hes hle
    have hcount : n.db.lastIndex + 1 - (k + 1) = n.log.length - k := by
      rw [h.lastIndex_eq]
      omega
    rw [hcount] at hitems
    rw [wireItems_eq h.rows (Nat.add_sub_of_le hle) hitems] at hes
    rw [parseItems_wireFrom hes]
    exact supplies_of_sound fun e he ↦ h.entries e (List.mem_of_mem_drop he)

theorem requestVoteCrash_sound (h : n.Sound M G i) (t : ℤ) (x : NodeId) :
    ∃ m, n.SoundTo M G i m ∧ Cluster.requestVoteCrash n t x = m.db := by
  rw [Cluster.requestVoteCrash]
  split
  · exact ⟨n, h.soundTo_self, rfl⟩
  split
  · exact ⟨n, h.soundTo_self, rfl⟩
  next m hm => exact ⟨m, h.requestVoteStepDown hm, rfl⟩

theorem appendCrash_sound (h : n.Sound M G i) (args : AppendArgs) :
    ∃ m, n.SoundTo M G i m ∧ Cluster.appendCrash n args = m.db := by
  rw [Cluster.appendCrash]
  split
  · exact ⟨n, h.soundTo_self, rfl⟩
  split
  · exact ⟨n, h.soundTo_self, rfl⟩
  next m hm => exact ⟨m, (h.appendStepDown hm).1, rfl⟩

theorem Call.Sound.mono {call : Call} (h : call.Sound G c)
    (hterm : ∀ j, (c.node j).term ≤ (c'.node j).term) : call.Sound G c' := by
  cases call with
  | elect e => exact Nat.lt_of_lt_of_le h (hterm e.node)
  | propose p => exact h

namespace Cluster.Sound

variable {c₀ : Cluster}

/-- A step under which the nodes and the calls stay sound. -/
theorem next (h : c.Sound M G) (hnode : ∀ j, (c.node j).SoundTo M G j (c'.node j))
    (hcalls : ∀ r ∈ c'.calls, r ∈ c.calls ∨ r.2.Sound G c') : c'.Sound M G :=
  ⟨fun j ↦ (hnode j).sound, fun r hr ↦ (hcalls r hr).elim
    (fun hr ↦ (h.calls r hr).mono fun j ↦ (hnode j).term_le) id⟩

theorem soundTo_setNode (h : c.Sound M G) (hnode : c₀.node = c.node)
    (hn : (c.node i).SoundTo M G i n) (j : NodeId) :
    (c.node j).SoundTo M G j ((c₀.setNode i n).node j) := by
  by_cases hj : j = i
  · subst hj
    rw [Cluster.setNode_node_self]
    exact hn
  · rw [Cluster.setNode_node_ne hj, hnode]
    exact (h.nodes j).soundTo_self

/-- A step that changes one node, with calls that were sound before. -/
theorem setNode (h : c.Sound M G) (hnode : c₀.node = c.node) (hn : (c.node i).SoundTo M G i n)
    (hcalls : ∀ r ∈ c₀.calls, r ∈ c.calls ∨ r.2.Sound G c) : (c₀.setNode i n).Sound M G :=
  h.next (h.soundTo_setNode hnode hn) fun r hr ↦ (hcalls r hr).imp_right fun hr ↦
    hr.mono fun j ↦ (h.soundTo_setNode hnode hn j).term_le

/-- A call that is put in the place of another, or started. -/
theorem setCall (h : c.Sound M G) {id : ℕ} {call : Call} (hcall : call.Sound G c) :
    (c.setCall id call).Sound M G := by
  refine h.next (fun j ↦ (h.nodes j).soundTo_self) fun r hr ↦ ?_
  rcases mem_put_calls hr with heq | hr
  · exact .inr (heq ▸ hcall.mono fun _ ↦ Nat.le_refl _)
  · exact .inl hr

theorem endCall (h : c.Sound M G) (id : ℕ) : (c.endCall id).Sound M G :=
  h.next (fun j ↦ (h.nodes j).soundTo_self) fun _ hr ↦ .inl (Cluster.mem_endCall_calls hr)

theorem record (h : c.Sound M G) (events : List Event) : (c.record events).Sound M G :=
  h.next (fun j ↦ (h.nodes j).soundTo_self) fun _ hr ↦ .inl hr

theorem reopens (h : c.Sound M G) {m : Node} (hm : (c.node i).SoundTo M G i m)
    (ho : Reopens M c i m.db c') : c'.Sound M G := by
  obtain ⟨n, hn, rfl⟩ := ho
  have hopen := hm.sound.reopened hn
  exact h.setNode rfl ⟨hopen.sound, Nat.le_trans hm.term_le hopen.term_le⟩ fun r hr ↦
    .inl (Cluster.mem_endCallsOn_calls hr).1

end Cluster.Sound

/-- One step, in any interleaving. -/
theorem Move.sound (h : c.Sound M G) (hG : Proposed G) (hok : supplies G c a)
    (hmove : Move M c a c') :
    c'.Sound M G := by
  have helect : ∀ {id e}, c.calls.get? id = some (.elect e) → 0 < (c.node e.node).term :=
    fun hcall ↦ h.calls _ (Table.mem_of_get? hcall)
  have hpropose : ∀ {id p}, c.calls.get? id = some (.propose p) → (Call.propose p).Sound G c :=
    fun hcall ↦ h.calls _ (Table.mem_of_get? hcall)
  have hidle : ∀ {p : ProposeCall}, (∀ peer turns m, p.stage ≠ .inflight peer turns m) →
      (Call.propose p).Sound G c := fun hne peer turns m hs ↦ absurd hs (hne peer turns m)
  -- what a node stores was on a node, in a message or in the action before
  cases hmove with
  | elect _ _ hn =>
    obtain ⟨hsound, hterm⟩ := (h.nodes _).electStart hn
    refine ((h.setNode rfl hsound fun _ ↦ .inl).record _).setCall ?_
    change 0 < ((c.setNode _ _).node _).term
    rw [startedElect, Cluster.setNode_node_self]
    exact hterm
  | electCrash hm ho => exact h.reopens ((h.nodes _).electStepDown hm) ho
  | @askLost _ e _ rest hcall =>
    have hsound : (Call.elect { e with pending := rest }).Sound G c :=
      show 0 < (c.node e.node).term from helect hcall
    exact h.setCall hsound
  | @askCrash _ e _ rest _ hcall _ _ ho =>
    have hsound : (Call.elect { e with pending := rest }).Sound G c :=
      show 0 < (c.node e.node).term from helect hcall
    obtain ⟨m, hm, hdb⟩ := requestVoteCrash_sound (h.nodes _) _ _
    rw [hdb] at ho
    exact (h.setCall hsound).reopens hm ho
  | @ask _ _ e p _ n _ hcall _ _ hn =>
    have hsound := (h.nodes p).requestVote e.electionTerm e.node e.lastIndex e.lastTerm
    rw [hn] at hsound
    refine ((h.setNode rfl hsound fun _ ↦ .inl).record _).setCall ?_
    exact Nat.lt_of_lt_of_le (helect hcall) (h.soundTo_setNode rfl hsound e.node).term_le
  | @count _ e theirTerm _ grant _ hcall _ hn =>
    have hsound := (h.nodes e.node).electCount e.electionTerm e.votes theirTerm grant
    rw [hn] at hsound
    refine (h.setNode rfl hsound fun _ ↦ .inl).setCall ?_
    exact Nat.lt_of_lt_of_le (helect hcall) (h.soundTo_setNode rfl hsound e.node).term_le
  | @countLost _ e theirTerm grant _ _ _ hn =>
    have hsound := (h.nodes e.node).electCount e.electionTerm e.votes theirTerm grant
    rw [hn] at hsound
    exact (h.setNode rfl hsound fun _ ↦ .inl).endCall _
  | finish hcall _ _ =>
    exact (h.setNode rfl ((h.nodes _).electFinish (helect hcall) _ _) fun _ ↦ .inl).endCall _
  | propose _ _ _ hn =>
    exact (h.setNode rfl ((h.nodes _).proposeAppend hG hn) fun _ ↦ .inl).setCall
      (hidle fun _ _ _ hs ↦ by cases hs)
  | proposeRefused => exact h
  | enter => exact h.setCall (hidle fun _ _ _ hs ↦ by cases hs)
  | sendDone => exact h.setCall (hidle fun _ _ _ hs ↦ by cases hs)
  | sendFail => exact h.endCall _
  | @send _ p peer turns m _ _ hm =>
    refine h.setCall fun peer' turns' m' heq es hes ↦ ?_
    cases heq
    exact (h.nodes p.node).replicateSend hm hes
  | deliverLost => exact h.setCall (hidle fun _ _ _ hs ↦ by cases hs)
  | deliverCrash _ _ ho =>
    -- the peer restarts from the database that the crash has left
    obtain ⟨m, hm, hdb⟩ := appendCrash_sound (h.nodes _) _
    rw [hdb] at ho
    exact (h.setCall (hidle fun _ _ _ hs ↦ by cases hs)).reopens hm ho
  | @deliver _ _ peer _ m _ _ hcall hs hn =>
    have hsound := (h.nodes peer).appendEntries m.args (hpropose hcall _ _ _ hs)
    rw [hn] at hsound
    exact (h.setNode rfl hsound fun _ ↦ .inl).setCall (hidle fun _ _ _ hs ↦ by cases hs)
  | @deliverFail _ _ peer _ m _ _ hcall hs hn =>
    have hsound := (h.nodes peer).appendEntries m.args (hpropose hcall _ _ _ hs)
    rw [hn] at hsound
    exact (h.setNode rfl hsound fun _ ↦ .inl).endCall _
  | @deliverReplyLost _ _ peer _ m hcall hs =>
    exact (h.setNode rfl ((h.nodes peer).appendEntries m.args (hpropose hcall _ _ _ hs))
      fun _ ↦ .inl).setCall (hidle fun _ _ _ hs ↦ by cases hs)
  | @settle _ p peer _ m r _ again _ _ hn =>
    have hsound := (h.nodes p.node).replicateSettle peer m r
    rw [hn] at hsound
    refine (h.setNode rfl hsound fun _ ↦ .inl).setCall fun _ _ _ heq ↦ ?_
    cases again <;> cases heq
  | @commit _ p _ _ _ _ _ hs hn =>
    have hsound := (h.nodes p.node).proposeCommit p.position
    rw [hn] at hsound
    refine (h.setNode rfl hsound fun _ ↦ .inl).setCall fun _ _ _ heq ↦ ?_
    cases hs.symm.trans heq
  | @commitFail _ p _ _ _ _ hn =>
    have hsound := (h.nodes p.node).proposeCommit p.position
    rw [hn] at hsound
    exact (h.setNode rfl hsound fun _ ↦ .inl).endCall _
  | answer => exact (h.record _).endCall _
  | answerFail => exact h.endCall _
  | abandon => exact h.endCall _
  | restart ho => exact h.reopens (h.nodes _).soundTo_self ho
  | @requestVote i term candidateId li lt _ _ _ hn =>
    have hsound := (h.nodes i).requestVote term candidateId li lt
    rw [hn] at hsound
    exact (h.setNode rfl hsound fun _ ↦ .inl).record _
  | appendEntries => exact h.setNode rfl ((h.nodes _).appendEntries _ hok) fun _ ↦ .inl

/-- In every run, whatever the interleaving. -/
theorem sound_of_supplies (hG : Proposed G) (h : (machine M).Reach (supplies G) c) : c.Sound M G :=
  h.invariant ⟨Node.initial_sound M, nofun⟩ fun hc hok hstep ↦
    (Cluster.step_move hstep).sound hc hG hok

theorem supplies_of_anyInterleaving (h : (machine M).Reach anyInterleaving c) :
    (machine M).Reach (supplies fun _ ↦ True) c := by
  refine Machine.Path.mono h fun {_ a} _ ↦ ?_
  cases a with
  | appendEntries => exact fun _ _ _ _ _ _ ↦ trivial
  | _ => trivial

/-- A node in some state that a cluster can reach in guarded runs. -/
def Reachable (M : Membership) (ok : Cluster → Action → Prop) (i : NodeId) (n : Node) : Prop :=
  ∃ c, (machine M).Reach ok c ∧ c.node i = n

theorem Reachable.sound (h : Reachable M anyInterleaving i n) : n.Sound M (fun _ ↦ True) i := by
  obtain ⟨c, hc, rfl⟩ := h
  exact (sound_of_supplies (fun _ _ _ _ ↦ trivial) (supplies_of_anyInterleaving hc)).nodes i

end Nodes

end EventHorizon.Raft
