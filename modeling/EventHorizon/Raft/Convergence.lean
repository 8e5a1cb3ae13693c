import EventHorizon.Raft.Soundness

/-!
# `_replicate` converges

One call of `_replicate` makes at most as many attempts as the leader's log has entries, and one
more. Each attempt that a follower refuses takes the next index back by one, and the attempt at the
first index is never refused, so there are enough of them whatever index the call starts from. The
attempt that is accepted finds the two logs equal up to there, by log matching; from there on an
entry of the follower is either the leader's or is overwritten, together with all that follow it.
-/

namespace EventHorizon.Raft

/-- Entries of one term at one index have equal prefixes. -/
def LogMatching (L l : List Entry) : Prop :=
  ∀ k e e', L[k]? = some e → l[k]? = some e' → e.term = e'.term → L.take (k + 1) = l.take (k + 1)

theorem LogMatching.entry_eq {L l : List Entry} (h : LogMatching L l) {k : ℕ} {e e' : Entry}
    (he : L[k]? = some e) (he' : l[k]? = some e') (hterm : e.term = e'.term) : e = e' := by
  have htake := congrArg (·[k]?) (h k e e' he he' hterm)
  simpa [List.getElem?_take, he, he'] using htake

/-- The logs do not differ where the follower has committed. -/
def NoConflict (commit : ℕ) (L l : List Entry) : Prop :=
  ∀ k < commit, ∀ e e', L[k]? = some e → l[k]? = some e' → e = e'

section Follower

variable [Platform] {M : Membership} {G : Command → Prop} {i p : NodeId} {n f : Node}
  {L l : List Entry} {commit k : ℕ}

theorem Database.appendItems_merge {db : Database} (h : db.raftLog = numberedFrom 1 l)
    (htake : l.take k = L.take k) (hk : k ≤ L.length) (hL : ∀ e ∈ L, e.Storable)
    (hmatch : LogMatching L l) (hcommit : NoConflict commit L l) :
    ∃ l', appendItems commit db (k + 1) (L.drop k) =
      .ok { db with raftLog := numberedFrom 1 l' } ∧ L <+: l' ∧ (l' = l ∨ l' = L) := by
  induction hrest : L.length - k generalizing k with
  | zero =>
    have hlen : k = L.length := by omega
    subst hlen
    rw [List.take_length] at htake
    refine ⟨l, ?_, htake ▸ List.take_prefix _ _, .inl rfl⟩
    rw [List.drop_length, appendItems, ← h]
  | succ rest ih =>
    have hlt : k < L.length := by omega
    have hLk : L[k]? = some L[k] := List.getElem?_eq_getElem hlt
    have hlen : (L.take k).length = k := List.length_take_of_le hk
    -- Once an entry is written, the log ends there and takes everything that is left.
    have hwrite : ∀ {db₁ : Database}, db₁.raftLog = numberedFrom 1 (L.take (k + 1)) →
        appendItems commit db₁ (k + 1 + 1) (L.drop (k + 1)) =
          .ok { db₁ with raftLog := numberedFrom 1 L } := by
      intro db₁ h₁
      have hdrop : ∀ e ∈ L.drop (k + 1), e.Storable := fun e he ↦ hL e (List.mem_of_mem_drop he)
      have hend := appendItems_end h₁ commit hdrop
      rwa [List.length_take_of_le hlt, List.take_append_drop] at hend
    have hinsert : ∀ {db₀ : Database}, db₀.raftLog = numberedFrom 1 (L.take k) →
        db₀.insertEntry (k + 1) L[k] =
          .ok { db₀ with raftLog := numberedFrom 1 (L.take (k + 1)) } := by
      intro db₀ h₀
      have hstorable := hL L[k] (List.getElem_mem hlt)
      refine insertEntry_eq_ok.mpr ⟨_, hstorable.command, hstorable.term_lt, ?_, ?_⟩
      · rw [h₀, get?_numberedFrom, if_pos (by omega), List.getElem?_eq_none (by omega)]
      · rw [List.take_add_one, hLk, Option.toList_some, numberedFrom_append_singleton, hlen, h₀,
          Nat.add_comm 1]
    rw [List.drop_eq_getElem_cons hlt, appendItems]
    cases hold : l[k]? with
    | none =>
      have hl : l = L.take k := by
        rw [← htake, List.take_of_length_le (List.getElem?_eq_none_iff.mp hold)]
      refine ⟨L, bind_eq_ok.mpr ⟨{ db with raftLog := numberedFrom 1 (L.take (k + 1)) }, ?_,
        hwrite rfl⟩, List.prefix_rfl, .inr rfl⟩
      rw [appendItem, entry_succ h, hold]
      exact hinsert (hl ▸ h)
    | some old =>
      by_cases hterm : L[k].term = old.term
      · have hsame : L[k] = old := hmatch.entry_eq hLk hold hterm
        obtain ⟨l', hl', hpre, hcase⟩ := ih (k := k + 1) (by
          rw [List.take_add_one, List.take_add_one, htake, hold, hLk, hsame]) hlt (by omega)
        refine ⟨l', bind_eq_ok.mpr ⟨db, ?_, hl'⟩, hpre, hcase⟩
        rw [appendItem, entry_succ h, hold, ← hsame]
        dsimp only
        rw [if_neg (by simp)]
      · refine ⟨L, bind_eq_ok.mpr ⟨{ db with raftLog := numberedFrom 1 (L.take (k + 1)) }, ?_,
          hwrite rfl⟩, List.prefix_rfl, .inr rfl⟩
        have hnot : ¬k + 1 ≤ commit := fun hle ↦
          hterm (congrArg Entry.term (hcommit k hle _ _ hLk hold))
        rw [appendItem, entry_succ h, hold]
        dsimp only
        rw [if_pos (.inl fun heq ↦ hterm heq.symm), if_neg hnot]
        have hdeleted : (db.deleteFrom (k + 1)).raftLog = numberedFrom 1 (L.take k) := by
          rw [deleteFrom, h, filter_numberedFrom_lt, Nat.add_sub_cancel, htake]
        exact hinsert hdeleted

omit [Platform] in
/-- The entries that a follower applies when it has the leader's log and commit index, and had not
applied before, can be applied. -/
def Node.CanApply (n f : Node) : Prop :=
  ∀ k e, f.appliedIndex ≤ k → k < n.commitIndex →
    (n.log[k]? = some e ∨ n.log <+: f.log ∧ f.log[k]? = some e) → e.command.Applicable

theorem Node.Sound.appendTransaction_eq_ok (h : f.Sound M G p) (htake : f.log.take k = n.log.take k)
    (hk : k ≤ n.log.length) (hL : ∀ e ∈ n.log, e.Storable) (hmatch : LogMatching n.log f.log)
    (hcommit : NoConflict f.commitIndex n.log f.log) (happ : n.CanApply f) :
    ∃ f', f.appendTransaction (k + 1) (n.log.drop k) n.commitIndex = .ok f' ∧ f'.term = f.term ∧
      n.log <+: f'.log ∧ (f'.log = f.log ∨ f'.log = n.log) := by
  obtain ⟨l', hdb, hpre, hcase⟩ := Database.appendItems_merge h.rows htake hk hL hmatch hcommit
  -- What is applied then is in the leader's log, or behind it in a log that goes on.
  have happ' : ∀ k e, f.appliedIndex ≤ k → k < n.commitIndex → l'[k]? = some e →
      e.command.Applicable := by
    intro k e hge hlt he
    rcases hcase with rfl | rfl
    · exact happ k e hge hlt (.inr ⟨hpre, he⟩)
    · exact happ k e hge hlt (.inl he)
  have hend : ∀ {m : Node}, m.db.raftLog = numberedFrom 1 l' → m.term = f.term →
      (∀ k e, m.appliedIndex ≤ k → k < m.commitIndex → l'[k]? = some e → e.command.Applicable) →
      (m.commitIndex ≤ l'.length ∨ m.commitIndex ≤ m.appliedIndex) →
      ∃ f', m.applyCommitted = .ok f' ∧ f'.term = f.term ∧ f'.log = l' := by
    intro m hrows hterm hkinds hle
    obtain ⟨f', hf'⟩ : ∃ f', m.applyCommitted = .ok f' := exists_applyLoop hrows hkinds hle
    obtain ⟨⟨_, _, _, _, rfl⟩, -⟩ := applyCommitted_applied hf'
    refine ⟨_, hf', hterm, ?_⟩
    change m.db.raftLog.map Prod.snd = l'
    rw [hrows, map_snd_numberedFrom]
  set m : Node := { f with db := { f.db with raftLog := numberedFrom 1 l' } }
  have htransaction : f.appendTransaction (k + 1) (n.log.drop k) n.commitIndex =
      (if (m.commitIndex : ℤ) < n.commitIndex then
        m.setCommitIndex (min (n.commitIndex : ℤ).toNat m.db.lastIndex) else m).applyCommitted := by
    rw [Node.appendTransaction, hdb]
    rfl
  obtain ⟨f', hf', hterm, hlog⟩ : ∃ f', f.appendTransaction (k + 1) (n.log.drop k) n.commitIndex =
      .ok f' ∧ f'.term = f.term ∧ f'.log = l' := by
    rw [htransaction]
    split
    · refine hend rfl rfl (fun k e hge hlt he ↦ happ' k e hge ?_ he) (.inl ?_)
      · exact Nat.lt_of_lt_of_le hlt (Nat.min_le_left _ _)
      · exact Nat.le_trans (Nat.min_le_right _ _) (Nat.le_of_eq (Database.lastIndex_eq rfl))
    · refine hend rfl rfl (fun k e hge hlt he ↦ ?_) (.inr h.commit_le)
      exact absurd (Nat.lt_of_lt_of_le hlt h.commit_le) (Nat.not_lt.mpr hge)
  exact ⟨f', hf', hterm, hlog ▸ hpre, hlog ▸ hcase⟩

theorem Node.Sound.exists_appendStepDown (h : f.Sound M G p) {t : ℕ} (hterm : f.term ≤ t)
    (leader : NodeId) : ∃ f', f.appendStepDown t leader = .ok f' ∧ f'.Sound M G p ∧ f'.term = t ∧
      f'.log = f.log ∧ f'.commitIndex = f.commitIndex ∧ f'.appliedIndex = f.appliedIndex := by
  have hstep : ∃ f', f.appendStepDown t leader = .ok f' ∧ f'.term = t := by
    rw [Node.appendStepDown]
    split
    case isTrue =>
      rw [Node.stepDown, Int.toNat_natCast, if_neg (Nat.not_lt.mpr hterm)]
      refine ⟨_, rfl, ?_⟩
      rw [adoptTerm]
      split
      case isTrue => rfl
      case isFalse hlt => exact Nat.le_antisymm hterm (Nat.not_lt.mp hlt)
    case isFalse hlt => exact ⟨_, rfl, by dsimp only; omega⟩
  obtain ⟨f', hf', hterm'⟩ := hstep
  obtain ⟨hsound, hlog⟩ := h.appendStepDown hf'
  refine ⟨f', hf', hsound.sound, hterm', hlog, ?_⟩
  obtain ⟨_, _, _, _, _, _, rfl⟩ := appendStepDown_sameButVote hf'
  exact ⟨rfl, rfl⟩

theorem Node.appendAccept_refused {a : AppendArgs}
    (h : ∀ e, n.db.entryAt a.prevIndex = some e → (e.term : ℤ) ≠ a.prevTerm)
    (hindex : n.db.entryAt a.prevIndex = none →
      -(2 ^ 63 : ℕ) ≤ a.prevIndex ∧ a.prevIndex < (2 ^ 63 : ℕ)) :
    n.appendAccept a = (n, .ok ⟨n.term, false, n.db.lastIndex⟩) := by
  rw [appendAccept]
  split
  next hprev =>
    have hrange := hindex hprev
    rw [if_neg (by omega)]
  next prev hprev => rw [if_pos (h prev hprev)]

theorem Node.Sound.appendAccept_message (hn : n.Sound M G i) (h : f.Sound M G p)
    (hterm : f.term = n.term) (hmatch : LogMatching n.log f.log)
    (hcommit : NoConflict f.commitIndex n.log f.log) (happ : n.CanApply f) {s : ℕ}
    (hk : k ≤ n.log.length) (hs : termBefore n.log k = some s) {e : Entry}
    (he : f.db.entryAt k = some e) (hes : e.term = s) :
    ∃ f', f.appendAccept (n.message k s).args = (f', .ok ⟨n.term, true, n.log.length⟩) ∧
      f'.term = n.term ∧ n.log <+: f'.log ∧ (f'.log = f.log ∨ f'.log = n.log) := by
  have htake : f.log.take k = n.log.take k := by
    obtain ⟨-, hbefore⟩ := entryAt_eq h.rows he
    cases k with
    | zero => rfl
    | succ k =>
      rw [termBefore, if_neg (Nat.succ_ne_zero k), Nat.add_sub_cancel] at hs hbefore
      obtain ⟨e₁, he₁, rfl⟩ := Option.map_eq_some_iff.mp hs
      obtain ⟨e₂, he₂, heq⟩ := Option.map_eq_some_iff.mp hbefore
      exact (hmatch k e₁ e₂ he₁ he₂ (heq.trans hes).symm).symm
  obtain ⟨f', hf', hterm', hlog⟩ := h.appendTransaction_eq_ok htake hk
    (fun e he ↦ (hn.entries e he).toStorable) hmatch hcommit happ
  refine ⟨f', ?_, hterm'.trans hterm, hlog⟩
  have hparse : parseItems k (wireFrom (k + 1) (n.log.drop k)) = .ok (n.log.drop k) :=
    parseItems_wireFrom_eq_ok fun e he ↦ (hn.entries e (List.mem_of_mem_drop he)).term_pos
  rw [appendAccept, show (n.message k s).args.prevIndex = k from rfl, he]
  dsimp only
  rw [show (n.message k s).args.prevTerm = s from rfl, hes, if_neg (not_not.mpr rfl),
    Int.toNat_natCast, show (n.message k s).args.entries = wireFrom (k + 1) (n.log.drop k) from rfl,
    hparse]
  dsimp only
  rw [show (n.message k s).args.leaderCommit = n.commitIndex from rfl, hf']
  dsimp only
  rw [hterm', hterm, List.length_drop, Nat.add_sub_of_le hk]

/-- What a follower answers to a leader, and what is left of it: either the leader's log is a
beginning of its own, or it refuses and only follows. -/
theorem Node.Sound.appendEntries_message (hn : n.Sound M G i) (h : f.Sound M G p)
    (hi : i ∈ M.members) (hp : p ≠ i) (hterm : f.term ≤ n.term) (hmatch : LogMatching n.log f.log)
    (hcommit : NoConflict f.commitIndex n.log f.log) (happ : n.CanApply f) {s : ℕ}
    (hk : k ≤ n.log.length) (hs : termBefore n.log k = some s)
    (hfound : k < 2 ^ 63 ∨ n.log.take k <+: f.log) :
    (∃ f', f.appendEntries (n.message k s).args = (f', .ok ⟨n.term, true, n.log.length⟩) ∧
      f'.term = n.term ∧ n.log <+: f'.log ∧ (f'.log = f.log ∨ f'.log = n.log)) ∨
    0 < k ∧ ∃ f' index, f.appendEntries (n.message k s).args = (f', .ok ⟨n.term, false, index⟩) ∧
      f'.Sound M G p ∧ f'.term = n.term ∧ f'.log = f.log ∧ f'.commitIndex = f.commitIndex ∧
      f'.appliedIndex = f.appliedIndex := by
  obtain ⟨f₁, hf₁, hsound, hterm₁, hlog, hindex, happlied⟩ := h.exists_appendStepDown hterm n.nodeId
  have hcall : f.appendEntries (n.message k s).args = f₁.appendAccept (n.message k s).args := by
    have hmember : ¬((n.message k s).args.leaderId ∉ f.members ∨
        (n.message k s).args.leaderId = f.nodeId) := by
      rw [show (n.message k s).args.leaderId = n.nodeId from rfl, h.members, h.nodeId, hn.nodeId]
      exact fun hc ↦ hc.elim (fun hc ↦ hc hi) hp.symm
    have hlate : ¬(n.message k s).args.term < f.term := Int.not_lt.mpr (Int.ofNat_le.mpr hterm)
    rw [Node.appendEntries, if_neg hmember, if_neg hlate,
      show f.appendStepDown (n.message k s).args.term (n.message k s).args.leaderId = .ok f₁
        from hf₁]
  by_cases hagree : ∃ e, f₁.db.entryAt k = some e ∧ e.term = s
  · obtain ⟨e, he, hes⟩ := hagree
    obtain ⟨f', hf', hterm', hpre, hcase⟩ := hn.appendAccept_message hsound hterm₁
      (hlog.symm ▸ hmatch) (by rwa [hlog, hindex]) (by rwa [CanApply, hlog, happlied]) hk hs he hes
    exact .inl ⟨f', hcall.trans hf', hterm', hpre, hlog ▸ hcase⟩
  · have hrange : f₁.db.entryAt k = none → -(2 ^ 63 : ℕ) ≤ (k : ℤ) ∧ (k : ℤ) < (2 ^ 63 : ℕ) := by
      intro hnone
      rcases hfound with hlt | hpre
      · omega
      · -- An index within the follower's log has an entry.
        have hlen := hpre.length_le
        rw [List.length_take_of_le hk, ← hlog] at hlen
        obtain ⟨e, he, -⟩ := Database.exists_entryAt hsound.rows hlen
        rw [he] at hnone
        cases hnone
    have hrefused := appendAccept_refused (n := f₁) (a := (n.message k s).args)
      (fun e he heq ↦ hagree ⟨e, he, Int.ofNat_inj.mp heq⟩) hrange
    rw [hterm₁] at hrefused
    refine .inr ⟨Nat.pos_of_ne_zero fun hk₀ ↦ hagree ?_, f₁, _, hcall.trans hrefused, hsound,
      hterm₁, hlog, hindex, happlied⟩
    -- There is always an entry before the first one.
    subst hk₀
    exact ⟨⟨0, []⟩, rfl, Option.some.inj hs⟩

end Follower

/-! ## The loop -/

section Loop

variable [Platform] (M : Membership) (G : Command → Prop) {i p : NodeId} {nodes : NodeId → Node}
  {turns : ℕ}

/-- A leader and a follower that it can bring up to date, whatever their logs are behind the part
they share. -/
structure Diverged (i p : NodeId) (nodes : NodeId → Node) : Prop where
  mem : i ∈ M.members
  ne : p ≠ i
  leader : (nodes i).Sound M G i
  role : (nodes i).role = .leader
  follower : (nodes p).Sound M G p
  term_le : (nodes p).term ≤ (nodes i).term
  matching : LogMatching (nodes i).log (nodes p).log
  noConflict : NoConflict (nodes p).commitIndex (nodes i).log (nodes p).log
  canApply : (nodes i).CanApply (nodes p)
  next_le : (nodes i).nextIndex p ≤ (nodes i).log.length + 1
  /-- The index before the first message is one that SQLite can look up, or has a row. -/
  found : (nodes i).nextIndex p ≤ 2 ^ 63 ∨
    (nodes i).log.take ((nodes i).nextIndex p - 1) <+: (nodes p).log

/-- What replication to some peers makes of the nodes: each of them has the log of the leader, with
what it had before after it or not, the leader knows it, and no other node takes part. -/
structure Replicated (i : NodeId) (peers : List NodeId) (nodes nodes' : NodeId → Node) : Prop where
  others : ∀ j, j ≠ i → j ∉ peers → nodes' j = nodes j
  leader : nodes' i =
    { nodes i with next := (nodes' i).next, matched := (nodes' i).matched }
  next_others : ∀ j, j ∉ peers → (nodes' i).next.get? j = (nodes i).next.get? j
  matched_others : ∀ j, j ∉ peers → (nodes' i).matched.get? j = (nodes i).matched.get? j
  keys : (∀ p ∈ peers, p ∈ (nodes i).matched.map Prod.fst) →
    (nodes' i).matched.map Prod.fst = (nodes i).matched.map Prod.fst
  next : ∀ p ∈ peers, (nodes' i).next.get? p = some ((nodes i).log.length + 1)
  matched : ∀ p ∈ peers, (nodes' i).matched.get? p = some (nodes i).log.length
  sound : ∀ p ∈ peers, (nodes' p).Sound M G p
  term : ∀ p ∈ peers, (nodes' p).term = (nodes i).term
  isPrefix : ∀ p ∈ peers, (nodes i).log <+: (nodes' p).log
  log : ∀ p ∈ peers, (nodes' p).log = (nodes p).log ∨ (nodes' p).log = (nodes i).log

variable {M G}

theorem Replicated.of_next {nodes₁ nodes' : NodeId → Node} {k : ℕ}
    (h : Replicated M G i [p] nodes₁ nodes')
    (hi : nodes₁ i = { nodes i with next := (nodes i).next.put p k })
    (hlog : (nodes₁ p).log = (nodes p).log) (hothers : ∀ j, j ≠ i → j ≠ p → nodes₁ j = nodes j) :
    Replicated M G i [p] nodes nodes' where
  others j hji hjp := (h.others j hji hjp).trans (hothers j hji (by simpa using hjp))
  leader := h.leader.trans (by rw [hi])
  next_others j hj := by
    rw [h.next_others j hj, hi]
    exact Table.get?_put_ne (by simpa using hj)
  matched_others j hj := by rw [h.matched_others j hj, hi]
  keys hmem := by rw [h.keys (by rwa [hi]), hi]
  next q hq := by rw [h.next q hq, hi]
  matched q hq := by rw [h.matched q hq, hi]
  sound := h.sound
  term q hq := by rw [h.term q hq, hi]
  isPrefix q hq := by
    have hpre := h.isPrefix q hq
    rwa [hi] at hpre
  log q hq := by
    have hcase := h.log q hq
    rw [hi] at hcase
    rw [List.mem_singleton.mp hq] at hcase ⊢
    rwa [hlog] at hcase

theorem Replicated.of_end {m : Node} (hp : p ≠ i) (hsound : m.Sound M G p)
    (hterm : m.term = (nodes i).term) (hpre : (nodes i).log <+: m.log)
    (hlog : m.log = (nodes p).log ∨ m.log = (nodes i).log) :
    Replicated M G i [p] nodes (Function.update (Function.update nodes p m) i { nodes i with
      matched := (nodes i).matched.put p (nodes i).log.length
      next := (nodes i).next.put p ((nodes i).log.length + 1) }) where
  others j hji hjp := by
    rw [Function.update_of_ne hji, Function.update_of_ne (by simpa using hjp)]
  leader := by rw [Function.update_self]
  next_others j hj := by
    rw [Function.update_self]
    exact Table.get?_put_ne (by simpa using hj)
  matched_others j hj := by
    rw [Function.update_self]
    exact Table.get?_put_ne (by simpa using hj)
  keys hmem := by
    rw [Function.update_self]
    exact Table.keys_put_of_mem (hmem p (List.mem_singleton_self p))
  next q hq := by
    rw [List.mem_singleton.mp hq, Function.update_self]
    exact Table.get?_put_self
  matched q hq := by
    rw [List.mem_singleton.mp hq, Function.update_self]
    exact Table.get?_put_self
  sound q hq := by
    rwa [List.mem_singleton.mp hq, Function.update_of_ne hp, Function.update_self]
  term q hq := by
    rwa [List.mem_singleton.mp hq, Function.update_of_ne hp, Function.update_self]
  isPrefix q hq := by
    rwa [List.mem_singleton.mp hq, Function.update_of_ne hp, Function.update_self]
  log q hq := by
    rwa [List.mem_singleton.mp hq, Function.update_of_ne hp, Function.update_self]

theorem Diverged.turn (h : Diverged M G i p nodes) {k : ℕ} (hk : (nodes i).nextIndex p = k + 1) :
    (∃ nodes', replicateLoop i p (turns + 1) nodes = (.ok (), nodes') ∧
      Replicated M G i [p] nodes nodes') ∨
    0 < k ∧ ∃ nodes₁, replicateLoop i p (turns + 1) nodes = replicateLoop i p turns nodes₁ ∧
      Diverged M G i p nodes₁ ∧ (nodes₁ i).nextIndex p = k ∧
      ∀ nodes', Replicated M G i [p] nodes₁ nodes' → Replicated M G i [p] nodes nodes' := by
  have hle : k ≤ (nodes i).log.length := by
    have := h.next_le
    omega
  have hfound : k < 2 ^ 63 ∨ (nodes i).log.take k <+: (nodes p).log := by
    have hfound := h.found
    rw [hk, Nat.add_sub_cancel] at hfound
    exact hfound
  obtain ⟨s, hs, hsend⟩ := Node.replicateSend_eq_ok h.leader.rows h.role hk hle
  rcases h.leader.appendEntries_message h.follower h.mem h.ne h.term_le h.matching h.noConflict
    h.canApply hle hs hfound with
    ⟨f, hf, hterm, hpre, hcase⟩ | ⟨hpos, f, index, hf, hsound, hterm, hlog, hindex, happlied⟩
  -- the peer has accepted, and the loop ends
  · left
    have hsettle := Node.replicateSettle_accepted h.role p k s (nodes i).log.length
    have hsound := (h.follower.appendEntries _ fun _ ↦ h.leader.replicateSend hsend).sound
    rw [hf] at hsound
    rw [replicateLoop, hsend]
    dsimp only
    rw [hf, Function.update_of_ne h.ne.symm]
    dsimp only
    rw [hsettle]
    exact ⟨_, rfl, .of_end h.ne hsound hterm hpre hcase⟩
  -- the peer has refused, and the next index goes down by one
  · right
    have hsettle := Node.replicateSettle_refused h.role p hpos s index
    set nodes₁ := Function.update (Function.update nodes p f) i
      { nodes i with next := (nodes i).next.put p k } with hnodes
    have hi : nodes₁ i = { nodes i with next := (nodes i).next.put p k } := Function.update_self ..
    have hpf : nodes₁ p = f := by rw [hnodes, Function.update_of_ne h.ne, Function.update_self]
    have hnext : (nodes₁ i).nextIndex p = k := by
      rw [hi, Node.nextIndex, Table.get?_put_self, Option.getD_some]
    have hlogi : (nodes₁ i).log = (nodes i).log := by rw [hi]
    refine ⟨hpos, nodes₁, ?_, ⟨h.mem, h.ne, ?_, ?_, ?_, ?_, ?_, ?_, ?_, ?_, ?_⟩, hnext,
      fun nodes' h' ↦ h'.of_next hi (by rw [hpf, hlog]) fun j hji hjp ↦ ?_⟩
    · rw [replicateLoop, hsend]
      dsimp only
      rw [hf, Function.update_of_ne h.ne.symm]
      dsimp only
      rw [hsettle]
    · rw [hi]
      exact h.leader.of_frame rfl rfl rfl h.leader.term ⟨h.leader.commitIndex,
        h.leader.appliedIndex⟩ h.leader.commit_le h.leader.results h.leader.leads
    · rw [hi]
      exact h.role
    · rwa [hpf]
    · rw [hpf, hterm, hi]
    · rw [hpf, hlog, hlogi]
      exact h.matching
    · rw [hpf, hlog, hlogi, hindex]
      exact h.noConflict
    · rw [hpf, hi, Node.CanApply, hlog, happlied]
      exact h.canApply
    · rw [hnext, hlogi]
      exact Nat.le_succ_of_le hle
    · rw [hnext, hlogi, hpf, hlog]
      refine hfound.imp Nat.le_of_lt fun hpre ↦ ?_
      exact (List.take_prefix_take_left (Nat.sub_le k 1)).trans hpre
    · rw [hnodes, Function.update_of_ne hji, Function.update_of_ne hjp]

theorem Diverged.replicateLoop (h : Diverged M G i p nodes) (hpos : 1 ≤ (nodes i).nextIndex p)
    (hturns : (nodes i).nextIndex p ≤ turns) :
    ∃ nodes', Raft.replicateLoop i p turns nodes = (.ok (), nodes') ∧
      Replicated M G i [p] nodes nodes' := by
  induction turns generalizing nodes with
  | zero => omega
  | succ turns ih =>
    obtain ⟨k, hk⟩ : ∃ k, (nodes i).nextIndex p = k + 1 :=
      ⟨(nodes i).nextIndex p - 1, (Nat.sub_add_cancel hpos).symm⟩
    rcases h.turn hk with hdone | ⟨hk₀, nodes₁, hloop, h₁, hnext, hback⟩
    · exact hdone
    · obtain ⟨nodes', hloop', h'⟩ := ih h₁ (hnext.symm ▸ hk₀) (by omega)
      exact ⟨nodes', hloop.trans hloop', hback nodes' h'⟩

end Loop

/-- What `_replicate` is for. -/
structure Converged (i p : NodeId) (nodes nodes' : NodeId → Node) : Prop where
  leader : (nodes' i).log = (nodes i).log
  follower : (nodes i).log <+: (nodes' p).log
  matched : (nodes' i).matched.get? p = some (nodes i).db.lastIndex

/-- **`_replicate` converges.** One call brings a follower up to date, from whatever next index the
leader has for it, if the follower's term is not later, the two logs match, they do not differ where
the follower has committed, and what the follower newly applies can be applied. The call makes at
most `last_index + 1` attempts, as `replicate` does. An index of the leader's log is one that SQLite
has for a row. -/
theorem replicate_converges [Platform] (M : Membership) {i p : NodeId} {n f : Node}
    (hleader : Reachable M anyInterleaving i n) (hfollower : Reachable M anyInterleaving p f)
    (hi : i ∈ M.members) (hp : p ≠ i) (hrole : n.role = .leader) (hterm : f.term ≤ n.term)
    (hmatch : LogMatching n.log f.log) (hcommit : NoConflict f.commitIndex n.log f.log)
    (happ : n.CanApply f) (hindex : n.db.lastIndex < 2 ^ 63) (next : Table NodeId ℕ)
    (hpos : 1 ≤ ({ n with next := next } : Node).nextIndex p)
    (hle : ({ n with next := next } : Node).nextIndex p ≤ n.db.lastIndex + 1)
    (nodes : NodeId → Node) (hnodesi : nodes i = { n with next := next }) (hnodesp : nodes p = f) :
    ∃ nodes', replicate i p nodes = (.ok (), nodes') ∧ Converged i p nodes nodes' := by
  have hsound := hleader.sound
  have hlast : n.db.lastIndex = n.log.length := hsound.lastIndex_eq
  have hdiverged : Diverged M (fun _ ↦ True) i p nodes := by
    refine ⟨hi, hp, ?_, ?_, hnodesp ▸ hfollower.sound, ?_, ?_, ?_, ?_, ?_, ?_⟩
    · rw [hnodesi]
      exact hsound.of_frame rfl rfl rfl hsound.term ⟨hsound.commitIndex, hsound.appliedIndex⟩
        hsound.commit_le hsound.results hsound.leads
    · rw [hnodesi]
      exact hrole
    · rwa [hnodesi, hnodesp]
    · rwa [hnodesi, hnodesp]
    · rwa [hnodesi, hnodesp]
    · rwa [hnodesi, hnodesp]
    · rw [hnodesi]
      exact hlast ▸ hle
    · rw [hnodesi]
      exact .inl (Nat.le_trans hle hindex)
  have hturns : (nodes i).nextIndex p ≤ (nodes i).db.lastIndex + 1 := by rwa [hnodesi]
  obtain ⟨nodes', hloop, h⟩ := hdiverged.replicateLoop (by rwa [hnodesi]) hturns
  have hself := List.mem_singleton_self p
  refine ⟨nodes', hloop, by rw [h.leader], h.isPrefix p hself, ?_⟩
  rw [h.matched p hself, hdiverged.leader.lastIndex_eq]

/-- `b` leads with an entry of term two, `a` has one of term one in its place, and `b` tries first
what comes after it. -/
theorem replicate_converges_sample : ∃ (nodes : NodeId → Node) (nodes' : NodeId → Node),
    (nodes "a").log.map Entry.term = [1] ∧ (nodes "b").log.map Entry.term = [2] ∧
      @replicate pythonPlatform "b" "a" nodes = (.ok (), nodes') ∧
      Converged "b" "a" nodes nodes' := by
  let := pythonPlatform
  have hrun : ((machine laboratory).runIf anyInterleaving (machine laboratory).init
      (overtaken.take 13)).map (fun c ↦ (((c.node "a").term, (c.node "a").log.map Entry.term,
        (c.node "a").commitIndex), (c.node "b").role, (c.node "b").term,
        (c.node "b").log.map Entry.term, (c.node "b").db.lastIndex, (c.node "b").commitIndex)) =
      some ((2, [1], 0), .leader, 2, [2], 1, 0) := by decide +kernel
  obtain ⟨c, hc, hstate⟩ := Option.map_eq_some_iff.mp hrun
  simp only [Prod.mk.injEq] at hstate
  obtain ⟨⟨htermA, hlogA, hcommitA⟩, hrole, htermB, hlogB, hlast, hcommitB⟩ := hstate
  have hreach : (machine laboratory).Reach anyInterleaving c := Machine.path_of_runIf hc
  have hmatch : LogMatching (c.node "b").log (c.node "a").log := by
    intro k e e' he he' hterm
    have hb : ([2] : List ℕ)[k]? = some e.term := by rw [← hlogB, List.getElem?_map, he]; rfl
    have ha : ([1] : List ℕ)[k]? = some e'.term := by rw [← hlogA, List.getElem?_map, he']; rfl
    cases k with
    | zero => cases ((hb.trans (congrArg some hterm)).trans ha.symm)
    | succ k => cases hb
  set nodes : NodeId → Node := Function.update c.node "b"
    { c.node "b" with next := [("a", 2)] } with hnodes
  have hnodesA : nodes "a" = c.node "a" := Function.update_of_ne (by decide) _ _
  have hnodesB : nodes "b" = { c.node "b" with next := [("a", 2)] } := Function.update_self ..
  obtain ⟨nodes', hnodes', hconv⟩ := replicate_converges laboratory ⟨c, hreach, rfl⟩
    ⟨c, hreach, rfl⟩ (by decide) (by decide) hrole (by omega) hmatch
    (hcommitA ▸ fun k hk ↦ absurd hk (Nat.not_lt_zero k))
    (fun k _ _ hk ↦ absurd (hcommitB ▸ hk) (Nat.not_lt_zero k)) (by omega) [("a", 2)]
    (show 1 ≤ 2 by omega) (show 2 ≤ (c.node "b").db.lastIndex + 1 by omega) nodes hnodesB hnodesA
  exact ⟨nodes, nodes', by rwa [hnodesA], by rwa [hnodesB], hnodes', hconv⟩

/-- After its commit index was set back behind an applied entry, `a` takes another entry in its
place from a caller outside the cluster, with a command that no node knows, and is elected. -/
def overwritten : List Action :=
  overtaken ++
  [.appendEntries "a"
    { term := 4
      leaderId := "b"
      prevIndex := 1
      prevTerm := 2
      entries := [wireItem 2 ⟨4, [("op", .str "x")]⟩]
      leaderCommit := 2 },
    .elect 7 "a", .ask 7 .delivered, .count 7, .ask 7 .lost, .finish 7]

/-- Without the condition on what the follower applies it is not so: `a` has committed the command
that no node knows, and a call of `_replicate` to `c`, which has an empty log, raises. -/
theorem replicate_fails_overwritten : ¬∀ {i p : NodeId} {n f : Node},
    @Reachable pythonPlatform laboratory anyInterleaving i n →
    @Reachable pythonPlatform laboratory anyInterleaving p f →
    i ∈ (@Membership.members pythonPlatform laboratory) → p ≠ i → n.role = .leader →
    f.term ≤ n.term → LogMatching n.log f.log → NoConflict f.commitIndex n.log f.log →
    ∀ next : Table NodeId ℕ, 1 ≤ ({ n with next := next } : Node).nextIndex p →
      ({ n with next := next } : Node).nextIndex p ≤ n.db.lastIndex + 1 →
    ∀ nodes : NodeId → Node, nodes i = { n with next := next } → nodes p = f →
      ∃ nodes', @replicate pythonPlatform i p nodes = (.ok (), nodes') ∧
        Converged i p nodes nodes' := by
  let := pythonPlatform
  intro hall
  have hrun : ((machine laboratory).runIf anyInterleaving (machine laboratory).init
      overwritten).map (fun c ↦ (((c.node "c").term, (c.node "c").log), (c.node "a").role,
        (c.node "a").term, (c.node "a").nextIndex "c", (c.node "a").db.lastIndex,
        (replicate "a" "c" c.node).1.isOk)) =
      some ((2, []), .leader, 5, 3, 2, false) := by decide +kernel
  obtain ⟨c, hc, hstate⟩ := Option.map_eq_some_iff.mp hrun
  simp only [Prod.mk.injEq] at hstate
  obtain ⟨⟨htermC, hlogC⟩, hrole, htermA, hnext, hlast, hraised⟩ := hstate
  have hreach : (machine laboratory).Reach anyInterleaving c := Machine.path_of_runIf hc
  have hnil : ∀ (k : ℕ) (e' : Entry), ¬(c.node "c").log[k]? = some e' := by
    intro k e' he'
    rw [hlogC] at he'
    cases he'
  obtain ⟨nodes', hnodes', -⟩ := hall (i := "a") (p := "c") ⟨c, hreach, rfl⟩ ⟨c, hreach, rfl⟩
    (by decide) (by decide) hrole (by omega) (fun k _ e' _ he' ↦ absurd he' (hnil k e'))
    (fun k _ _ e' _ he' ↦ absurd he' (hnil k e')) (c.node "a").next
    (show 1 ≤ (c.node "a").nextIndex "c" by omega)
    (show (c.node "a").nextIndex "c" ≤ (c.node "a").db.lastIndex + 1 by omega) c.node rfl rfl
  rw [hnodes'] at hraised
  cases hraised

end EventHorizon.Raft
