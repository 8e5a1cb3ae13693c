import EventHorizon.Raft.Agreement
import EventHorizon.Raft.Store

/-!
# Leaders after a change of leadership

In a run whose calls do not overlap, a leader whose term no member has passed is ready for
proposals: its peers may have lost calls, crashed, or kept entries of former leaders at places where
the leader has others. What is committed anywhere is in its log, since a later leader has the
committed prefixes of all earlier ones.
-/

namespace EventHorizon.Raft

section Failover

variable [Platform] {M : Membership} {H : LeaderHistory Entry} {c : Cluster} {i : NodeId}

/-- A leader whose term no member has passed has what any node has committed. -/
theorem Ledger.committed_isPrefix (h : Ledger M H c) (hrole : (c.node i).role = .leader)
    (hlatest : ∀ v ∈ M.members, (c.node v).term ≤ (c.node i).term) (p : NodeId) :
    (c.node p).log.take (c.node p).commitIndex <+: (c.node i).log := by
  obtain ⟨helected, hlog, -⟩ := h.leader hrole
  rcases h.committed p with hnil | ⟨t, k, hcommitted, hpre⟩
  · rw [hnil]
    exact List.nil_prefix
  refine hpre.trans ?_
  obtain ⟨-, hpos, e, he, hτ⟩ := h.sound.last hcommitted
  have hlt := (List.getElem?_eq_some_iff.mp he).1
  -- a member that holds the committed prefix has reached its term
  obtain ⟨v, hv, hheld, -⟩ := (h.sound.held hcommitted).exists_and (h.sound.held hcommitted)
  have hmem : (c.node v).log[k - 1]? = some e := by
    rw [LeaderHistory.prefix_of_take hheld (by omega) hlt, he]
  have hle : t ≤ (c.node i).term := hτ ▸ Nat.le_trans
    (h.sound.term_le (List.mem_of_getElem? hmem)) (hlatest v (List.mem_toFinset.mp hv))
  rw [← hlog]
  rcases Nat.lt_or_eq_of_le hle with hlt | heq
  · exact h.sound.complete hcommitted helected hlt
  · exact heq ▸ List.take_prefix k _

theorem sound_of_sequential (h : (machine M).Reach sequential c) :
    c.Sound M Command.Applicable := by
  refine sound_of_supplies proposed_applicable ?_
  refine Machine.Path.mono h fun {_ a} ha ↦ ?_
  cases a with
  | appendEntries => exact ha.elim
  | _ => trivial

/-- The leader of the latest term is ready, whoever led before it. -/
theorem Ready.of_reach (h : (machine M).Reach sequential c) (hi : i ∈ M.members)
    (hrole : (c.node i).role = .leader)
    (hlatest : ∀ v ∈ M.members, (c.node v).term ≤ (c.node i).term)
    (hterm : (c.node i).term < 2 ^ 63) (hindex : (c.node i).db.lastIndex < 2 ^ 63) :
    Ready M i c.node := by
  have hagree := agreeing_of_reach h
  have hsound := sound_of_sequential h
  obtain ⟨H, hled⟩ := hagree.ledger
  obtain ⟨-, hlog, htables⟩ := hled.leader hrole
  have hlast := (hsound.nodes i).lastIndex_eq
  refine ⟨⟨hi, hagree.proposals.consistent i, hsound.nodes i, hrole⟩, hterm, fun p hp ↦ ?_,
    htables.keys⟩
  refine ⟨hsound.nodes p, ?_, ?_, hled.committed_isPrefix hrole hlatest p, ?_, ?_⟩
  · exact hlatest p (List.mem_of_mem_erase ((M.peers_perm i hi).subset hp))
  · exact fun k x y hx hy hτ ↦ (hled.sound.sourced i).matching (hled.sound.sourced p) hx hy hτ
  · intro k x hx hτ
    -- an entry of the leader's term was written by the leader
    have hpre := (hled.sound.sourced p hx).2.length_le
    have hlt := (List.getElem?_eq_some_iff.mp hx).1
    rw [hτ, hlog, List.length_take_of_le hlt] at hpre
    exact hpre
  · obtain ⟨k, hk, hnext⟩ := htables.next p hp
    exact ⟨k, hnext, hk, .inl (Nat.lt_of_le_of_lt hk (hlast ▸ hindex))⟩

end Failover

end EventHorizon.Raft
