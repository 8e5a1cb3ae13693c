import EventHorizon.Raft.Election
import EventHorizon.Raft.Proposal
import EventHorizon.Raft.Replication

/-!
# The history of the leaders of a cluster

`Ledger` relates a cluster to a `LeaderHistory`: who led which term, with what log, and which
prefixes were committed. The lemmas say what the sections of `elect`, `propose` and `append_entries`
do to it. Elections and commits are single steps here, against the logs of the voters at the last
section of `elect` and of the holders at the commit section of `propose`; that nothing happens in
between is for the caller to show.
-/

namespace EventHorizon.Raft

open LeaderHistory (UpToDate lastTerm)

section Ledger

variable [Platform] {M : Membership} {H : LeaderHistory Entry} {c c' : Cluster} {i : NodeId}
  {n : Node}

/-! ## Leaders and their histories -/

/-- The replication tables of a leader: one row for each peer, none past the log. -/
structure Node.Tables (M : Membership) (i : NodeId) (n : Node) : Prop where
  keys : n.matched.map Prod.fst = M.peers i
  le : ∀ r ∈ n.matched, r.2 ≤ n.log.length
  next : ∀ p ∈ M.peers i, ∃ k ≤ n.log.length, n.next.get? p = some (k + 1)

theorem Node.Tables.grow {n' : Node} (h : n.Tables M i) (hmatched : n'.matched = n.matched)
    (hnext : n'.next = n.next) (hlen : n.log.length ≤ n'.log.length) : n'.Tables M i where
  keys := hmatched ▸ h.keys
  le r hr := Nat.le_trans (h.le r (hmatched ▸ hr)) hlen
  next p hp := by
    obtain ⟨k, hk, hget⟩ := h.next p hp
    exact ⟨k, Nat.le_trans hk hlen, hnext ▸ hget⟩

/-- The history of leaders behind a cluster. -/
structure Ledger (M : Membership) (H : LeaderHistory Entry) (c : Cluster) : Prop where
  sound : H.Sound Entry.term M.members.toFinset (fun i ↦ (c.node i).term) fun i ↦ (c.node i).log
  stored : ∀ {t e}, t ∈ H.elected → e ∈ H.log t → canonicalCommand e.command = .ok e.command
  committed : ∀ i, H.Committed ((c.node i).log.take (c.node i).commitIndex)
  leader : ∀ {i}, (c.node i).role = .leader → (c.node i).term ∈ H.elected ∧
    H.log (c.node i).term = (c.node i).log ∧ (c.node i).Tables M i
  candidate : ∀ {v t x}, c.Granted v t x → t ≤ (c.node x).term
  /-- The leader of a term is not a candidate in it again. -/
  ledBy : ∀ {t}, t ∈ H.elected → ∃ x, HasMajority M.members.toFinset (fun v ↦ c.Granted v t x) ∧
    t ≤ (c.node x).term ∧ ((c.node x).term = t → (c.node x).role ≠ .candidate)

/-- A change of a node that leaves its log: the term may rise, and no leadership is gained. -/
structure Node.Benign (M : Membership) (i : NodeId) (n n' : Node) : Prop where
  log : n'.log = n.log
  commit : n'.commitIndex = n.commitIndex
  term_le : n.term ≤ n'.term
  leader : n'.role = .leader → n.role = .leader ∧ n'.term = n.term ∧ (n.Tables M i → n'.Tables M i)
  candidate : n'.role = .candidate → n.role = .candidate ∧ n'.term = n.term ∨ n.term < n'.term

theorem Node.Benign.refl (n : Node) : n.Benign M i n :=
  ⟨rfl, rfl, Nat.le_refl _, fun hl ↦ ⟨hl, rfl, fun h ↦ h⟩, fun hc ↦ .inl ⟨hc, rfl⟩⟩

theorem Node.Benign.restarted {m : Node} (h : n.Benign M i m) : n.Benign M i m.restarted :=
  ⟨h.log, h.commit, h.term_le, fun hl ↦ (nomatch hl), fun hc ↦ (nomatch hc)⟩

theorem Node.benign_follower {t : ℕ} (ht : n.term ≤ t) (v : NodeId) (x : Option NodeId) :
    n.Benign M i (n.withVote t v .follower x) :=
  ⟨rfl, rfl, ht, fun hl ↦ (nomatch hl), fun hc ↦ (nomatch hc)⟩

theorem Node.benign_mayAdopt {m : Node} {t : ℕ} (hm : n.MayAdopt t m) :
    n.Benign M i m.restarted := by
  rcases hm with rfl | ⟨ht, r, x, rfl⟩
  · exact (Node.Benign.refl _).restarted
  · exact ⟨rfl, rfl, ht, fun hl ↦ (nomatch hl), fun hc ↦ (nomatch hc)⟩

namespace Node.Consistent

variable (h : n.Consistent M.pinned M.members i)
include h

theorem benign_requestVote (t : ℤ) (candidate : NodeId) (li lt : ℤ) :
    n.Benign M i (n.requestVote t candidate li lt).1 := by
  rcases h.requestVote_cases t candidate li lt with hr | ⟨-, ht, r, x, hrole, ⟨-, -, hr⟩ | hr⟩ <;>
    rw [hr]
  · exact .refl n
  all_goals
    have hle : n.term ≤ t.toNat := by omega
    rcases hrole with rfl | ⟨heq, rfl⟩
    · exact Node.benign_follower hle _ x
    · exact ⟨rfl, rfl, hle, fun hl ↦ ⟨hl, heq, fun hT ↦ hT.grow rfl rfl (Nat.le_refl _)⟩,
      fun hc ↦ .inl ⟨hc, heq⟩⟩

theorem benign_electCount (electionTerm votes theirTerm : ℕ) (grant : Bool) :
    n.Benign M i (n.electCount electionTerm votes theirTerm grant).1 := by
  rcases h.electCount_cases electionTerm votes theirTerm grant with
    ⟨hlt, hr⟩ | hr | ⟨-, -, -, hr⟩ <;> rw [hr]
  · exact Node.benign_follower (Nat.le_of_lt hlt) _ none
  · exact .refl n
  · exact .refl n

end Node.Consistent

theorem benign_setNode {c₀ : Cluster} (hnode : c₀.node = c.node) (hn : (c.node i).Benign M i n)
    (j : NodeId) : (c.node j).Benign M j ((c₀.setNode i n).node j) := by
  by_cases hj : j = i
  · subst hj
    rw [Cluster.setNode_node_self]
    exact hn
  · rw [Cluster.setNode_node_ne hj, hnode]
    exact .refl _

/-- A step that changes no log. -/
theorem Ledger.benign (h : Ledger M H c) (hnode : ∀ j, (c.node j).Benign M j (c'.node j))
    (hgr : ∀ {v t x}, c.Granted v t x → c'.Granted v t x)
    (hcand : ∀ {v t x}, c'.Granted v t x → c.Granted v t x ∨ t ≤ (c'.node x).term) :
    Ledger M H c' where
  sound := by
    have hlog : (fun j ↦ (c'.node j).log) = fun j ↦ (c.node j).log := funext fun j ↦ (hnode j).log
    rw [hlog]
    exact h.sound.raise fun j ↦ (hnode j).term_le
  stored := h.stored
  committed j := by
    rw [(hnode j).log, (hnode j).commit]
    exact h.committed j
  leader {j} hl := by
    obtain ⟨hlead, hterm, htables⟩ := (hnode j).leader hl
    obtain ⟨helected, hlog, htab⟩ := h.leader hlead
    rw [hterm, (hnode j).log]
    exact ⟨helected, hlog, htables htab⟩
  candidate hg := by
    rcases hcand hg with hg | hle
    · exact Nat.le_trans (h.candidate hg) (hnode _).term_le
    · exact hle
  ledBy {t} ht := by
    obtain ⟨x, hmaj, hle, hrole⟩ := h.ledBy ht
    refine ⟨x, hmaj.imp fun v hv ↦ hgr hv, Nat.le_trans hle (hnode x).term_le, fun heq hc ↦ ?_⟩
    have hterm_le := (hnode x).term_le
    rcases (hnode x).candidate hc with ⟨hcand', hsame⟩ | hlt
    · exact hrole (hsame ▸ heq) hcand'
    · omega

theorem Ledger.congr (h : Ledger M H c) (hnode : c'.node = c.node) (htrace : c'.trace = c.trace) :
    Ledger M H c' := by
  obtain ⟨node, calls, trace⟩ := c
  obtain ⟨node', calls', trace'⟩ := c'
  cases hnode
  cases htrace
  exact ⟨h.sound, h.stored, h.committed, h.leader, h.candidate, h.ledBy⟩

/-- Every entry of every log is stored in canonical form. -/
theorem Ledger.stored_log (h : Ledger M H c) {e : Entry} (he : e ∈ (c.node i).log) :
    canonicalCommand e.command = .ok e.command := by
  obtain ⟨k, hk⟩ := List.mem_iff_getElem?.mp he
  obtain ⟨helected, hpre⟩ := h.sound.sourced i hk
  refine h.stored helected (hpre.subset ?_)
  refine List.mem_iff_getElem?.mpr ⟨k, ?_⟩
  rw [List.getElem?_take, if_pos (Nat.lt_succ_self k), hk]

omit [Platform] in
theorem comp_setNode {β : Type*} (f : Node → β) :
    (fun j ↦ f ((c.setNode i n).node j)) = Function.update (fun j ↦ f (c.node j)) i (f n) := by
  funext j
  by_cases hj : j = i
  · subst hj
    rw [Cluster.setNode_node_self, Function.update_self]
  · rw [Cluster.setNode_node_ne hj, Function.update_of_ne hj]

omit [Platform] in
/-- A function of the nodes that does not see the change. -/
theorem comp_setNode_eq {β : Type*} {f : Node → β} (h : f n = f (c.node i)) :
    (fun j ↦ f ((c.setNode i n).node j)) = fun j ↦ f (c.node j) := by
  rw [comp_setNode, h, Function.update_eq_self]

/-- The election of a candidate with a majority of voters whose logs its own is up to date with. -/
theorem Ledger.elect (h : Ledger M H c) (hel : Elections M c) {t : ℕ}
    (hmaj : HasMajority M.members.toFinset fun v ↦ c.Granted v t i)
    (hup : ∀ {v}, c.Granted v t i → UpToDate Entry.term (c.node i).log (c.node v).log)
    (hterm : (c.node i).term = t) (hrole : (c.node i).role = .candidate)
    (hlog : n.log = (c.node i).log) (hterm' : n.term = (c.node i).term)
    (hcommit : n.commitIndex = (c.node i).commitIndex) (hlead : n.role = .leader)
    (htables : n.Tables M i) : ∃ H', Ledger M H' (c.setNode i n) := by
  -- the term had no leader: it would be this node, which is a candidate
  have ht : t ∉ H.elected := by
    intro ht
    obtain ⟨x, hmaj', -, hnot⟩ := h.ledBy ht
    obtain ⟨v, -, hvi, hvx⟩ := hmaj.exists_and hmaj'
    have hx : i = x := hel.unique hvi hvx
    subst hx
    exact hnot hterm hrole
  have hsound := h.sound.elect (c := i) ht (Nat.le_of_eq hterm)
    (hmaj.imp fun v hv ↦ ⟨(hel.granted hv).1, hup hv⟩)
  set H' : LeaderHistory Entry :=
    { H with elected := insert t H.elected, log := Function.update H.log t (c.node i).log } with hH'
  have hself : H'.log t = (c.node i).log := Function.update_self ..
  have hold : ∀ {s}, s ∈ H.elected → H'.log s = H.log s := fun {s} hs ↦
    Function.update_of_ne (fun heq : s = t ↦ ht (heq ▸ hs)) ..
  refine ⟨H', ⟨?_, ?_, ?_, ?_, ?_, ?_⟩⟩
  · rw [comp_setNode_eq (f := Node.term) hterm', comp_setNode_eq (f := Node.log) hlog]
    exact hsound
  · rintro s e (rfl | hs) he
    · rw [hself] at he
      exact h.stored_log he
    · rw [hold hs] at he
      exact h.stored hs he
  · intro j
    have hj : ((c.setNode i n).node j).log.take ((c.setNode i n).node j).commitIndex =
        (c.node j).log.take (c.node j).commitIndex :=
      congrFun (comp_setNode_eq (f := fun m ↦ m.log.take m.commitIndex)
        (by rw [hlog, hcommit])) j
    rw [hj]
    exact (h.committed j).mono (fun _ hc ↦ hc) fun hc ↦ by rw [hold (h.sound.last hc).1]
  · intro j hl
    by_cases hj : j = i
    · subst hj
      rw [Cluster.setNode_node_self, hterm', hterm, hlog]
      exact ⟨Set.mem_insert _ _, hself, htables⟩
    · rw [Cluster.setNode_node_ne hj] at hl ⊢
      obtain ⟨helected, hlog', htab⟩ := h.leader hl
      rw [hold helected]
      exact ⟨Set.mem_insert_of_mem _ helected, hlog', htab⟩
  · intro v s x hg
    rw [congrFun (comp_setNode_eq (f := Node.term) hterm') x]
    exact h.candidate hg
  · have hnode : ∀ x, ((c.setNode i n).node x).role = .candidate →
      (c.node x).role = .candidate := by
      intro x hx
      by_cases hxi : x = i
      · rw [hxi]
        exact hrole
      · rw [Cluster.setNode_node_ne hxi] at hx
        exact hx
    rintro s (rfl | hs)
    · refine ⟨i, hmaj, ?_, fun _ ↦ ?_⟩
      · rw [Cluster.setNode_node_self, hterm', hterm]
      · rw [Cluster.setNode_node_self, hlead]
        exact fun hc ↦ (nomatch hc)
    · obtain ⟨x, hmaj', hle, hnot⟩ := h.ledBy hs
      refine ⟨x, hmaj', ?_, ?_⟩
      · rw [congrFun (comp_setNode_eq (f := Node.term) hterm') x]
        exact hle
      · rw [congrFun (comp_setNode_eq (f := Node.term) hterm') x]
        exact fun heq hc ↦ hnot heq (hnode x hc)

/-- A change of one node that keeps the roles and terms of the leaders there were. -/
theorem Ledger.ledBy_setNode (h : Ledger M H c) (hterm : (c.node i).term ≤ n.term)
    (hcand : n.role ≠ .candidate) {t : ℕ} (ht : t ∈ H.elected) :
    ∃ x, HasMajority M.members.toFinset (fun v ↦ (c.setNode i n).Granted v t x) ∧
      t ≤ ((c.setNode i n).node x).term ∧
      (((c.setNode i n).node x).term = t → ((c.setNode i n).node x).role ≠ .candidate) := by
  obtain ⟨x, hmaj, hle, hnot⟩ := h.ledBy ht
  refine ⟨x, hmaj, ?_⟩
  by_cases hx : x = i
  · subst hx
    rw [Cluster.setNode_node_self]
    exact ⟨Nat.le_trans hle hterm, fun _ ↦ hcand⟩
  · rw [Cluster.setNode_node_ne hx]
    exact ⟨hle, hnot⟩

theorem Ledger.candidate_setNode (h : Ledger M H c) (hterm : (c.node i).term ≤ n.term)
    {v x : NodeId} {t : ℕ} (hg : c.Granted v t x) : t ≤ ((c.setNode i n).node x).term := by
  by_cases hx : x = i
  · subst hx
    rw [Cluster.setNode_node_self]
    exact Nat.le_trans (h.candidate hg) hterm
  · rw [Cluster.setNode_node_ne hx]
    exact h.candidate hg

/-- A leader adds an entry to its log. -/
theorem Ledger.append (h : Ledger M H c) (hel : Elections M c)
    (hrole : (c.node i).role = .leader) {e : Entry} (hτ : e.term = (c.node i).term)
    (hstored : canonicalCommand e.command = .ok e.command)
    (hlog : n.log = (c.node i).log ++ [e]) (hterm : n.term = (c.node i).term)
    (hcommit : n.commitIndex = (c.node i).commitIndex)
    (hle : (c.node i).commitIndex ≤ (c.node i).log.length) (hlead : n.role = .leader)
    (hmatched : n.matched = (c.node i).matched) (hnext : n.next = (c.node i).next) :
    ∃ H', Ledger M H' (c.setNode i n) := by
  obtain ⟨helected, hleaderLog, htables⟩ := h.leader hrole
  obtain ⟨hsound, htake⟩ := h.sound.append (c := i) helected hleaderLog.symm (Nat.le_refl _) hτ
  set H' : LeaderHistory Entry :=
    { H with log := Function.update H.log (c.node i).term ((c.node i).log ++ [e]) } with hH'
  have hself : H'.log (c.node i).term = (c.node i).log ++ [e] := Function.update_self ..
  have hother : ∀ {s}, s ≠ (c.node i).term → H'.log s = H.log s :=
    fun hs ↦ Function.update_of_ne hs ..
  refine ⟨H', ⟨?_, ?_, ?_, ?_, fun hg ↦ h.candidate_setNode (Nat.le_of_eq hterm.symm) hg,
    fun ht ↦ h.ledBy_setNode (Nat.le_of_eq hterm.symm) ?_ ht⟩⟩
  · rw [comp_setNode_eq (f := Node.term) hterm, comp_setNode Node.log, hlog]
    exact hsound
  · intro s x hs hx
    by_cases hst : s = (c.node i).term
    · rw [hst, hself, List.mem_append, List.mem_singleton] at hx
      rcases hx with hx | rfl
      · exact h.stored_log hx
      · exact hstored
    · rw [hother hst] at hx
      exact h.stored hs hx
  · intro j
    have hj : ((c.setNode i n).node j).log.take ((c.setNode i n).node j).commitIndex =
        (c.node j).log.take (c.node j).commitIndex :=
      congrFun (comp_setNode_eq (f := fun m ↦ m.log.take m.commitIndex)
        (by rw [hlog, hcommit, List.take_append_of_le_length hle])) j
    rw [hj]
    exact (h.committed j).mono (fun _ hc ↦ hc) htake
  · intro j hl
    by_cases hj : j = i
    · subst hj
      rw [Cluster.setNode_node_self, hterm, hlog]
      refine ⟨helected, hself, htables.grow hmatched hnext ?_⟩
      rw [hlog, List.length_append]
      exact Nat.le_add_right _ _
    · rw [Cluster.setNode_node_ne hj] at hl ⊢
      obtain ⟨helected', hlog', htab⟩ := h.leader hl
      rw [hother fun heq ↦ hj (hel.leader_unique hl hrole heq)]
      exact ⟨helected', hlog', htab⟩
  · rw [hlead]
    exact fun hc ↦ (nomatch hc)

/-- A follower takes over the log of the leader of its term, or had it, and commits a prefix that is
committed. -/
theorem Ledger.accept (h : Ledger M H c) (helected : n.term ∈ H.elected)
    (hlog : n.log = (c.node i).log ∨ n.log = H.log n.term) (hterm : (c.node i).term ≤ n.term)
    (hrole : n.role = .follower) (hcommit : H.Committed (n.log.take n.commitIndex)) :
    Ledger M H (c.setNode i n) := by
  have hraise : H.Sound Entry.term M.members.toFinset (fun j ↦ ((c.setNode i n).node j).term)
      fun j ↦ (c.node j).log := by
    refine h.sound.raise fun j ↦ ?_
    by_cases hj : j = i
    · rw [hj, Cluster.setNode_node_self]
      exact hterm
    · rw [Cluster.setNode_node_ne hj]
  refine ⟨?_, h.stored, ?_, ?_, fun hg ↦ h.candidate_setNode hterm hg,
    fun ht ↦ h.ledBy_setNode hterm ?_ ht⟩
  · rw [comp_setNode Node.log]
    rcases hlog with hlog | hlog
    · rw [hlog, Function.update_eq_self]
      exact hraise
    · rw [hlog]
      exact hraise.replicate helected (by rw [Cluster.setNode_node_self])
  · intro j
    by_cases hj : j = i
    · rw [hj, Cluster.setNode_node_self]
      exact hcommit
    · rw [Cluster.setNode_node_ne hj]
      exact h.committed j
  · intro j hl
    by_cases hj : j = i
    · rw [hj, Cluster.setNode_node_self, hrole] at hl
      cases hl
    · rw [Cluster.setNode_node_ne hj] at hl ⊢
      exact h.leader hl
  · rw [hrole]
    exact fun hc ↦ (nomatch hc)

/-- A leader commits a prefix of its log that a majority holds which has not passed its term. -/
theorem Ledger.commit (h : Ledger M H c) {k : ℕ} (hrole : (c.node i).role = .leader) (hpos : 0 < k)
    (hlast : ∃ e, (c.node i).log[k - 1]? = some e ∧ e.term = (c.node i).term)
    (hmaj : HasMajority M.members.toFinset fun v ↦
      (c.node i).log.take k <+: (c.node v).log ∧ (c.node v).term ≤ (c.node i).term)
    (hlog : n.log = (c.node i).log) (hterm : n.term = (c.node i).term)
    (hcommit : n.commitIndex = k) (hlead : n.role = .leader)
    (hmatched : n.matched = (c.node i).matched) (hnext : n.next = (c.node i).next) :
    ∃ H', Ledger M H' (c.setNode i n) := by
  obtain ⟨helected, hleaderLog, htables⟩ := h.leader hrole
  have hsound := h.sound.commit (k := k) helected hpos (by rw [hleaderLog]; exact hlast)
    (by rw [hleaderLog]; exact hmaj)
  refine ⟨{ H with committed := insert ((c.node i).term, k) H.committed },
    ⟨?_, h.stored, ?_, ?_, fun hg ↦ h.candidate_setNode (Nat.le_of_eq hterm.symm) hg,
      fun ht ↦ h.ledBy_setNode (Nat.le_of_eq hterm.symm) ?_ ht⟩⟩
  · rw [comp_setNode_eq (f := Node.term) hterm, comp_setNode_eq (f := Node.log) hlog]
    exact hsound
  · intro j
    by_cases hj : j = i
    · subst hj
      rw [Cluster.setNode_node_self, hlog, hcommit, ← hleaderLog]
      exact .inr ⟨_, k, Set.mem_insert _ _, List.prefix_rfl⟩
    · rw [Cluster.setNode_node_ne hj]
      exact (h.committed j).mono (fun _ hc ↦ Set.mem_insert_of_mem _ hc) fun _ ↦ rfl
  · intro j hl
    by_cases hj : j = i
    · subst hj
      rw [Cluster.setNode_node_self, hterm, hlog]
      exact ⟨helected, hleaderLog, htables.grow hmatched hnext (Nat.le_of_eq (by rw [hlog]))⟩
    · rw [Cluster.setNode_node_ne hj] at hl ⊢
      exact h.leader hl
  · rw [hlead]
    exact fun hc ↦ (nomatch hc)

/-! ## A leader's message -/

/-- The log of the follower agrees with the leader's before the entries of a message that passes
the consistency check. -/
theorem Ledger.take_eq_of_termBefore (h : Ledger M H c) {j : NodeId} {k s : ℕ}
    (hi : termBefore (c.node i).log k = some s) (hj : termBefore (c.node j).log k = some s) :
    (c.node j).log.take k = (c.node i).log.take k := by
  cases k with
  | zero => rw [List.take_zero, List.take_zero]
  | succ k =>
    rw [termBefore, if_neg (Nat.succ_ne_zero k), Nat.add_sub_cancel] at hi hj
    obtain ⟨e, he, rfl⟩ := Option.map_eq_some_iff.mp hi
    obtain ⟨e', he', heq⟩ := Option.map_eq_some_iff.mp hj
    exact (h.sound.sourced j).matching (h.sound.sourced i) he' he heq

/-- What a follower makes of a message of the leader: it keeps its log or takes over the leader's,
and it has the leader's log as a prefix when it accepts. -/
structure Followed (L : List Entry) (t : ℕ) (f n : Node) (reply : Except Exn AppendReply) :
    Prop where
  accepted : ∀ r, reply = .ok r → r.accepted = true → r.index = L.length ∧ L <+: n.log ∧ n.term = t
  keeps : L <+: f.log → f.term ≤ t → L <+: n.log ∧ n.term ≤ t

/-- The commit index a follower takes from the leader is that of a committed prefix. -/
theorem Ledger.committed_of_spliced (h : Ledger M H c) (hc : c.Consistent M) {j : NodeId} {k : ℕ}
    {es l' : List Entry} (hspliced : Spliced (c.node j).commitIndex (c.node j).log k es l')
    (hpre : (c.node i).log <+: l') :
    H.Committed (l'.take ((c.node j).commitAfter (c.node i).commitIndex l')) := by
  rw [Node.commitAfter]
  by_cases hlt : ((c.node j).commitIndex : ℤ) < (c.node i).commitIndex
  · have hle := (hc i).commit_le
    have hlen := hpre.length_le
    rw [if_pos hlt, Int.toNat_natCast, Nat.min_eq_left (Nat.le_trans hle hlen)]
    obtain ⟨rest, rfl⟩ := hpre
    rw [List.take_append_of_le_length hle]
    exact h.committed i
  · rw [if_neg hlt, (hspliced.take_commit (hc j).commit_le).1]
    exact h.committed j

theorem Ledger.appendEntries (h : Ledger M H c) (hc : c.Consistent M) {peer : NodeId}
    {m : Node.Message} (hm : (c.node i).replicateSend peer = .ok (some m)) :
    Ledger M H (c.setNode peer ((c.node peer).appendEntries m.args).1) ∧
      Followed (c.node i).log (c.node i).term (c.node peer)
        ((c.node peer).appendEntries m.args).1 ((c.node peer).appendEntries m.args).2 := by
  obtain ⟨hrole, hterm, -, hcommit, k, hk, -, hprev, hentries, s, hs, hprevTerm⟩ :=
    (hc i).replicateSend_ok hm
  obtain ⟨helected, hleaderLog, -⟩ := h.leader hrole
  have htoNat : m.args.term.toNat = (c.node i).term := by rw [hterm, Int.toNat_natCast]
  -- the peer refuses a term that is over, or adopts the term and then refuses or accepts
  rcases (hc peer).appendEntries_cases m.args with hr | ⟨-, hle, f, rfl, hr⟩
  · rw [hr]
    refine ⟨h.benign (benign_setNode rfl (.refl _)) (fun hg ↦ hg) fun hg ↦ .inl hg, ?_, ?_⟩
    · rintro r ⟨⟩ hacc
      cases hacc
    · exact fun hpre ht ↦ ⟨hpre, ht⟩
  rw [hterm, Int.ofNat_le] at hle
  rw [htoNat] at hr
  rcases hr with ⟨r, hr, hrefused⟩ | ⟨prev, es, l', rs, consumed, hprevRow, hprevEq,
    hparse, hspliced, hcommit_le, hlen, -, hr⟩
  · rw [hr]
    refine ⟨h.benign (benign_setNode rfl (Node.benign_follower hle _ _)) (fun hg ↦ hg)
      fun hg ↦ .inl hg, ?_, ?_⟩
    · intro x hx hacc
      rw [(hrefused x hx).1] at hacc
      cases hacc
    · exact fun hpre _ ↦ ⟨hpre, Nat.le_refl _⟩
  · have hk' : m.args.prevIndex.toNat = k := by rw [hprev, Int.toNat_natCast]
    rw [hk', hentries] at hparse
    -- what the peer reads from the message are the entries that the leader has from there on
    have hes := parseItems_wireFrom hparse
    rw [hprev] at hprevRow
    obtain ⟨-, hbefore⟩ := entryAt_eq (hc peer).db.rows hprevRow
    rw [hprevTerm, Int.ofNat_inj] at hprevEq
    rw [hprevEq] at hbefore
    have hstored : ∀ e ∈ (c.node i).log, canonicalCommand e.command = .ok e.command :=
      fun e he ↦ h.stored_log he
    rw [hk'] at hspliced
    -- log matching: where the terms at the previous index agree, so does all before it
    obtain ⟨hpre, heq⟩ := hspliced.of_drop hes hk (h.take_eq_of_termBefore hs hbefore) (by
      intro j e e' he he' ht
      have htake := (h.sound.sourced peer).matching (h.sound.sourced i) he he' ht
      have hget := congrArg (·[j]?) htake
      simp only [List.getElem?_take, if_pos (Nat.lt_succ_self j), he, he'] at hget
      exact Option.some.inj hget) hstored
    have hindex : k + es.length = (c.node i).log.length := by
      rw [hes, List.length_drop]
      omega
    set n := ((c.node peer).withVote (c.node i).term
      ((c.node peer).voteAt (c.node i).term) .follower (some m.args.leaderId)).withLog l'
      ((c.node peer).commitAfter m.args.leaderCommit l') rs
      consumed with hn
    have hlog : n.log = l' := Node.withLog_log
    have hnterm : n.term = (c.node i).term := rfl
    rw [hr]
    refine ⟨h.accept (n := n) helected ?_ hle rfl ?_, ?_, ?_⟩
    · rw [hlog, hnterm, hleaderLog]
      exact heq
    · rw [hlog, hn, Node.withLog_commitIndex, hcommit]
      exact h.committed_of_spliced hc hspliced hpre
    · rintro r ⟨⟩ -
      dsimp only
      rw [hlog, hk', hindex]
      exact ⟨rfl, hpre, rfl⟩
    · intro _ _
      dsimp only
      rw [hlog]
      exact ⟨hpre, Nat.le_of_eq hnterm⟩

end Ledger

end EventHorizon.Raft
