import EventHorizon.Library.LeaderLogs
import EventHorizon.Raft.Consumption
import EventHorizon.Raft.Sections

/-!
# From a leader's message to a follower's log

`_replicate` sends the rows from the next index on, with the term of the row before them. A follower
that accepts them ends with the leader's log as a prefix of its own: it either had it already, or
its log is now the leader's.
-/

namespace EventHorizon.Raft

/-! ## Messages -/

/-- Consecutive entries as `_replicate` puts them on the wire. -/
def wireFrom : ℕ → List Entry → List Json
  | _, [] => []
  | index, e :: es => wireItem index e :: wireFrom (index + 1) es

theorem parseItem_wireItem {cursor : ℕ} {e e' : Entry}
    (h : parseItem cursor (wireItem (cursor + 1) e) = some e') : e' = e := by
  have hparse : parseItem cursor (wireItem (cursor + 1) e) =
      if 1 ≤ (e.term : ℤ) ∧ ((cursor + 1 : ℕ) : ℤ) = cursor + 1 then some e else none := rfl
  rw [hparse] at h
  split at h
  · exact (Option.some.inj h).symm
  · cases h

/-- The validation loop reads back what was sent. -/
theorem parseItems_wireFrom {cursor : ℕ} {es es' : List Entry}
    (h : parseItems cursor (wireFrom (cursor + 1) es) = .ok es') : es' = es := by
  induction es generalizing cursor es' with
  | nil =>
    rw [wireFrom, parseItems] at h
    exact (Except.ok.inj h).symm
  | cons e es ih =>
    rw [wireFrom, parseItems] at h
    split at h
    · cases h
    case h_2 e' he =>
      obtain ⟨rest, hrest, h⟩ := bind_eq_ok.mp h
      cases h
      rw [parseItem_wireItem he, ih hrest]

theorem wireItems_eq {db : Database} {l : List Entry} (h : db.raftLog = numberedFrom 1 l) {k : ℕ}
    {items : List Json} {count : ℕ} (hcount : k + count = l.length)
    (hitems : Node.wireItems db (k + 1) count = .ok items) :
      items = wireFrom (k + 1) (l.drop k) := by
  induction count generalizing k items with
  | zero =>
    rw [Node.wireItems] at hitems
    cases hitems
    rw [List.drop_eq_nil_of_le (by omega), wireFrom]
  | succ count ih =>
    have hlt : k < l.length := by omega
    rw [Node.wireItems, Database.entry_succ h, List.getElem?_eq_getElem hlt] at hitems
    obtain ⟨rest, hrest, hitems⟩ := bind_eq_ok.mp hitems
    cases hitems
    rw [ih (by omega) hrest, List.drop_eq_getElem_cons hlt, wireFrom]

/-- The term of the entry before the next one. -/
def termBefore (l : List Entry) (k : ℕ) : Option ℕ :=
  if k = 0 then some 0 else l[k - 1]?.map Entry.term

theorem entryAt_eq {db : Database} {l : List Entry} (h : db.raftLog = numberedFrom 1 l) {k : ℕ}
    {e : Entry} (he : db.entryAt k = some e) : k ≤ l.length ∧ termBefore l k = some e.term := by
  rw [Database.entryAt, if_neg (Int.not_lt.mpr (Int.natCast_nonneg k)), Int.toNat_natCast] at he
  cases k with
  | zero =>
    cases he
    exact ⟨Nat.zero_le _, rfl⟩
  | succ k =>
    rw [Database.entry_succ h] at he
    refine ⟨(List.getElem?_eq_some_iff.mp he).1, ?_⟩
    rw [termBefore, if_neg (Nat.succ_ne_zero k), Nat.add_sub_cancel, he]
    rfl

section Replication

variable {pinned : String} {members : List NodeId} {i : NodeId} {n : Node}

/-- A message of a leader: the rest of its log after some index. -/
theorem Node.Consistent.replicateSend_ok (h : n.Consistent pinned members i) {peer : NodeId}
    {m : Node.Message} (hm : n.replicateSend peer = .ok (some m)) :
    n.role = .leader ∧ m.args.term = n.term ∧ m.args.leaderId = i ∧
      m.args.leaderCommit = n.commitIndex ∧ ∃ k ≤ n.log.length, m.nextIndex = k + 1 ∧
        m.args.prevIndex = k ∧ m.args.entries = wireFrom (k + 1) (n.log.drop k) ∧
        ∃ s, termBefore n.log k = some s ∧ m.args.prevTerm = s := by
  rw [replicateSend] at hm
  by_cases hrole : n.role ≠ .leader
  · rw [if_pos hrole] at hm
    cases hm
  rw [if_neg hrole] at hm
  set next := (n.next.get? peer).getD (n.db.lastIndex + 1) with hnext
  dsimp only at hm
  split at hm
  · cases hm
  case h_2 previous hprev =>
    obtain ⟨items, hitems, hm⟩ := bind_eq_ok.mp hm
    cases hm
    have hpos : 1 ≤ next := by
      by_contra hzero
      rw [Database.entryAt, if_pos (by omega)] at hprev
      cases hprev
    obtain ⟨k, hk⟩ : ∃ k, next = k + 1 := ⟨next - 1, by omega⟩
    rw [hk] at hprev hitems
    have hcast : ((k + 1 : ℕ) : ℤ) - 1 = k := by omega
    rw [hcast] at hprev
    obtain ⟨hle, hterm⟩ := entryAt_eq h.db.rows hprev
    have hcount : n.db.lastIndex + 1 - (k + 1) = n.log.length - k := by
      rw [h.lastIndex_eq]
      omega
    rw [hcount] at hitems
    refine ⟨not_not.mp hrole, rfl, h.nodeId, rfl, k, hle, hk, ?_,
      wireItems_eq h.db.rows (Nat.add_sub_of_le hle) hitems, previous.term, hterm, rfl⟩
    rw [hk]
    exact hcast

/-! ## Acceptance -/

variable [Platform] {commit k : ℕ} {l l' es : List Entry}

/-- Splicing the rest of a log into one that agrees with it up to there. -/
theorem Spliced.of_drop (h : Spliced commit l k es l') {L : List Entry} (hes : es = L.drop k)
    (hk : k ≤ L.length) (htake : l.take k = L.take k)
    (hmatch : ∀ {j : ℕ} {e e' : Entry}, l[j]? = some e → L[j]? = some e' →
      e.term = e'.term → e = e')
    (hstored : ∀ e ∈ L, canonicalCommand e.command = .ok e.command) :
    L <+: l' ∧ (l' = l ∨ l' = L) := by
  induction h with
  | @nil l k =>
    have hlen : L.length ≤ k := List.drop_eq_nil_iff.mp hes.symm
    rw [List.take_of_length_le hlen] at htake
    exact ⟨htake ▸ List.take_prefix k l, .inl rfl⟩
  | @keep l l' k e old es hold hterm heq _ ih =>
    have hlt : k < L.length := by
      by_contra hge
      rw [List.drop_eq_nil_of_le (Nat.not_lt.mp hge)] at hes
      cases hes
    rw [List.drop_eq_getElem_cons hlt, List.cons.injEq] at hes
    obtain ⟨rfl, rfl⟩ := hes
    have hLk : L[k]? = some L[k] := List.getElem?_eq_getElem hlt
    refine ih rfl hlt ?_ hmatch
    rw [List.take_add_one, List.take_add_one, htake, hold, hLk, hmatch hold hLk hterm]
  | @write l l' k e command es hkl hcommit hcommand hnew _ ih =>
    have hlt : k < L.length := by
      by_contra hge
      rw [List.drop_eq_nil_of_le (Nat.not_lt.mp hge)] at hes
      cases hes
    rw [List.drop_eq_getElem_cons hlt, List.cons.injEq] at hes
    obtain ⟨rfl, rfl⟩ := hes
    rw [hstored _ (List.getElem_mem hlt), Except.ok.injEq] at hcommand
    subst hcommand
    -- the log is now the leader's up to the written entry
    have hwritten : l.take k ++ [(⟨L[k].term, L[k].command⟩ : Entry)] = L.take (k + 1) := by
      rw [htake, List.take_add_one, List.getElem?_eq_getElem hlt]
      rfl
    rw [hwritten] at ih
    obtain ⟨hpre, heq⟩ := ih rfl hlt (by rw [List.take_take, Nat.min_self]) (by
      intro j e e' he he' _
      rw [List.getElem?_take] at he
      split at he
      · rw [he] at he'
        exact Option.some.inj he'
      · cases he)
    refine ⟨hpre, .inr ?_⟩
    rcases heq with heq | heq
    · rw [heq] at hpre ⊢
      exact (hpre.eq_of_length_le ( List.take_prefix (k + 1) L).length_le).symm
    · exact heq

end Replication

end EventHorizon.Raft
