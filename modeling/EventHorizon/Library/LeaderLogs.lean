import EventHorizon.Library.Majority
import Mathlib.Data.List.Infix
import Mathlib.Data.Set.Insert
import Mathlib.Logic.Function.Basic

/-!
# Logs written by the leaders of increasing terms

The safety argument of leader-based log replication, apart from any protocol that elects leaders or
carries entries. A *history* says which terms had a leader, what the log of each such leader is (or
was when it last wrote), and which prefixes of these logs have been committed. `Sound` relates a
history to the present terms and logs of the members:

* every entry of every log was written by the leader of its term, after the same entries;
* a majority has reached each term that had a leader;
* a committed prefix is in the log of a majority, and in the log of every later leader.

The lemmas `Sound.raise`, `Sound.elect`, `Sound.append`, `Sound.replicate` and `Sound.commit` say
under what conditions a step keeps a sound history sound. The substance is in `Sound.elect`: a
candidate whose log is up to date with those of a majority has every committed prefix. Two
committed prefixes are prefixes of one log (`Sound.committed_total`).

Elections and commits are taken as single steps, against the logs of the voters and holders at that
moment.
-/

namespace EventHorizon

variable {ι ε : Type*}

/-- The leaders there were, their logs, and the prefixes committed so far, each by the term of the
leader and the length. -/
structure LeaderHistory (ε : Type*) where
  elected : Set ℕ
  log : ℕ → List ε
  committed : Set (ℕ × ℕ)

namespace LeaderHistory

variable (τ : ε → ℕ) (H : LeaderHistory ε)

/-- Every entry was written by the leader of its term, after the same entries. -/
def Sourced (l : List ε) : Prop :=
  ∀ ⦃k : ℕ⦄ ⦃e : ε⦄, l[k]? = some e → τ e ∈ H.elected ∧ l.take (k + 1) <+: H.log (τ e)

/-- The list is a prefix of a committed prefix. -/
def Committed (l : List ε) : Prop := l = [] ∨ ∃ t k, (t, k) ∈ H.committed ∧ l <+: (H.log t).take k

/-- The term of the last entry. -/
def lastTerm (l : List ε) : ℕ := (l.getLast?.map τ).getD 0

/-- The test a voter makes: the last entry of `l` has a later term than that of `l'`, or the same
and `l` is not shorter. -/
def UpToDate (l l' : List ε) : Prop :=
  lastTerm τ l' < lastTerm τ l ∨ lastTerm τ l = lastTerm τ l' ∧ l'.length ≤ l.length

/-- A history that accounts for the terms and logs of the members. -/
structure Sound (M : Finset ι) (term : ι → ℕ) (log : ι → List ε) : Prop where
  quorum : ∀ {t}, t ∈ H.elected → HasMajority M fun v ↦ t ≤ term v
  sourced : ∀ v, H.Sourced τ (log v)
  term_le : ∀ {v e}, e ∈ log v → τ e ≤ term v
  leader_sourced : ∀ {t}, t ∈ H.elected → H.Sourced τ (H.log t)
  leader_term_le : ∀ {t e}, t ∈ H.elected → e ∈ H.log t → τ e ≤ t
  sorted : ∀ {t}, t ∈ H.elected → (H.log t).Pairwise fun e e' ↦ τ e ≤ τ e'
  last : ∀ {t k}, (t, k) ∈ H.committed → t ∈ H.elected ∧ 0 < k ∧
    ∃ e, (H.log t)[k - 1]? = some e ∧ τ e = t
  held : ∀ {t k}, (t, k) ∈ H.committed → HasMajority M fun v ↦ (H.log t).take k <+: log v
  complete : ∀ {t t' k}, (t, k) ∈ H.committed → t' ∈ H.elected → t < t' →
    (H.log t).take k <+: H.log t'

/-! ## Prefixes -/

theorem prefix_of_take {l l' : List ε} {k : ℕ} (h : l.take k <+: l') {j : ℕ} (hj : j < k)
    (hlt : j < l.length) : l'[j]? = l[j]? := by
  have hlen : j < (l.take k).length := by
    rw [List.length_take]
    omega
  rw [List.prefix_iff_getElem?.mp h j hlen, ← List.getElem?_eq_getElem hlen, List.getElem?_take,
    if_pos hj]

theorem take_eq_of_isPrefix {l l' : List ε} (h : l <+: l') : l'.take l.length = l :=
  (List.prefix_iff_eq_take.mp h).symm

variable {τ H} {M : Finset ι} {term : ι → ℕ} {log : ι → List ε} {l l' : List ε} {t k : ℕ}

/-! ## Sourced logs -/

/-- Two logs with entries of one term at one place agree up to there. -/
theorem Sourced.matching (h : H.Sourced τ l) (h' : H.Sourced τ l') {e e' : ε}
    (he : l[k]? = some e) (he' : l'[k]? = some e') (hτ : τ e = τ e') :
    l.take (k + 1) = l'.take (k + 1) := by
  have hlt := (List.getElem?_eq_some_iff.mp he).1
  have hlt' := (List.getElem?_eq_some_iff.mp he').1
  have hp := (h he).2
  have hp' := (h' he').2
  rw [← hτ] at hp'
  have hlen : (l.take (k + 1)).length = k + 1 := by
    rw [List.length_take]
    omega
  have hlen' : (l'.take (k + 1)).length = k + 1 := by
    rw [List.length_take]
    omega
  rw [← take_eq_of_isPrefix hp, ← take_eq_of_isPrefix hp', hlen, hlen']

theorem getElem?_length_sub_one (hne : l ≠ []) : l[l.length - 1]? = some (l.getLast hne) := by
  rw [← List.getLast?_eq_getElem?, List.getLast?_eq_some_getLast hne]

theorem Sourced.isPrefix (h : H.Sourced τ l) (hne : l ≠ []) :
    τ (l.getLast hne) ∈ H.elected ∧ l <+: H.log (τ (l.getLast hne)) := by
  obtain ⟨helected, hpre⟩ := h (getElem?_length_sub_one hne)
  have hpos := List.length_pos_of_ne_nil hne
  rw [Nat.sub_add_cancel hpos, List.take_length] at hpre
  exact ⟨helected, hpre⟩

theorem lastTerm_eq (hne : l ≠ []) : lastTerm τ l = τ (l.getLast hne) := by
  rw [lastTerm, List.getLast?_eq_some_getLast hne]
  rfl

namespace Sound

variable (h : H.Sound τ M term log)
include h

theorem sorted_log (v : ι) : (log v).Pairwise fun e e' ↦ τ e ≤ τ e' := by
  by_cases hne : log v = []
  · rw [hne]
    exact List.Pairwise.nil
  · obtain ⟨helected, hpre⟩ := (h.sourced v).isPrefix hne
    exact (h.sorted helected).sublist hpre.sublist

theorem le_lastTerm {v : ι} {e : ε} (he : e ∈ log v) : τ e ≤ lastTerm τ (log v) := by
  have hne : log v ≠ [] := List.ne_nil_of_mem he
  rw [lastTerm_eq hne]
  have hsplit := List.dropLast_append_getLast hne
  rw [← hsplit, List.mem_append, List.mem_singleton] at he
  rcases he with he | rfl
  · have hpw := h.sorted_log v
    rw [← hsplit, List.pairwise_append] at hpw
    exact hpw.2.2 e he _ List.mem_cons_self
  · exact Nat.le_refl _

theorem length_of_committed (hc : (t, k) ∈ H.committed) : ((H.log t).take k).length = k := by
  obtain ⟨-, hpos, e, he, -⟩ := h.last hc
  have := (List.getElem?_eq_some_iff.mp he).1
  rw [List.length_take]
  omega

/-- A log that is up to date with one that has a committed prefix has it too. -/
theorem committed_of_upToDate (hc : (t, k) ∈ H.committed) {v c : ι}
    (hv : (H.log t).take k <+: log v) (hup : UpToDate τ (log c) (log v)) :
    (H.log t).take k <+: log c := by
  obtain ⟨ht, hpos, e, he, hτ⟩ := h.last hc
  have hklt : k - 1 < (H.log t).length := (List.getElem?_eq_some_iff.mp he).1
  have hve : (log v)[k - 1]? = some e := by rw [prefix_of_take hv (by omega) hklt, he]
  have hvt : t ≤ lastTerm τ (log v) := hτ ▸ h.le_lastTerm (List.mem_of_getElem? hve)
  have hvlen : k ≤ (log v).length := h.length_of_committed hc ▸ hv.length_le
  have hne : log c ≠ [] := by
    intro hnil
    rw [UpToDate, hnil] at hup
    have hzero : lastTerm τ ([] : List ε) = 0 := rfl
    rw [hzero, List.length_nil] at hup
    omega
  obtain ⟨helected, hpre⟩ := (h.sourced c).isPrefix hne
  rw [UpToDate, lastTerm_eq hne] at hup
  -- the last entry of the candidate is of the committed term, or of a later one
  rcases Nat.lt_or_ge t (τ ((log c).getLast hne)) with hlt | hge
  · have hcomp := h.complete hc helected hlt
    refine List.prefix_of_prefix_length_le hcomp hpre ?_
    rw [h.length_of_committed hc]
    by_contra hshort
    have hlast := getElem?_length_sub_one hne
    have hclen := List.length_pos_of_ne_nil hne
    have hin : (H.log t)[(log c).length - 1]? = some ((log c).getLast hne) := by
      rw [← prefix_of_take hcomp (by omega) (by omega)]
      have hpc : (log c).take (log c).length <+: H.log (τ ((log c).getLast hne)) := by
        rw [List.take_length]
        exact hpre
      rw [prefix_of_take hpc (by omega) (by omega), hlast]
    have hle := h.leader_term_le ht (List.mem_of_getElem? hin)
    omega
  · have heq : τ ((log c).getLast hne) = t := by omega
    rw [heq] at hpre
    refine List.prefix_of_prefix_length_le ( List.take_prefix k (H.log t)) hpre ?_
    rw [h.length_of_committed hc]
    omega

end Sound

/-! ## Steps -/

namespace Sound

variable (h : H.Sound τ M term log)
include h

theorem raise {term' : ι → ℕ} (hle : ∀ v, term v ≤ term' v) : H.Sound τ M term' log where
  quorum ht := (h.quorum ht).imp fun v hv ↦ Nat.le_trans hv (hle v)
  sourced := h.sourced
  term_le he := Nat.le_trans (h.term_le he) (hle _)
  leader_sourced := h.leader_sourced
  leader_term_le := h.leader_term_le
  sorted := h.sorted
  last := h.last
  held := h.held
  complete := h.complete

/-- A candidate takes the lead of a term that had no leader, with the support of a majority that has
reached the term and whose logs its own is up to date with. -/
theorem elect [DecidableEq ι] {c : ι} (ht : t ∉ H.elected) (hterm : term c ≤ t)
    (hmaj : HasMajority M fun v ↦ t ≤ term v ∧ UpToDate τ (log c) (log v)) :
    ({ H with elected := insert t H.elected, log := Function.update H.log t (log c) } :
      LeaderHistory ε).Sound τ M term log := by
  set H' : LeaderHistory ε :=
    { H with elected := insert t H.elected, log := Function.update H.log t (log c) } with hH'
  have hself : H'.log t = log c := Function.update_self ..
  have hold : ∀ {s}, s ∈ H.elected → H'.log s = H.log s := fun {s} hs ↦
    Function.update_of_ne (fun heq : s = t ↦ ht (heq ▸ hs)) ..
  have hsrc : ∀ {l}, H.Sourced τ l → H'.Sourced τ l := by
    intro l hl k e he
    obtain ⟨helected, hpre⟩ := hl he
    rw [hold helected]
    exact ⟨Set.mem_insert_of_mem t helected, hpre⟩
  refine ⟨?_, fun v ↦ hsrc (h.sourced v), h.term_le, ?_, ?_, ?_, ?_, ?_, ?_⟩
  · rintro s (rfl | hs)
    · exact hmaj.imp fun v hv ↦ hv.1
    · exact h.quorum hs
  · rintro s (rfl | hs)
    · rw [hself]
      exact hsrc (h.sourced c)
    · rw [hold hs]
      exact hsrc (h.leader_sourced hs)
  · rintro s e (rfl | hs) he
    · rw [hself] at he
      exact Nat.le_trans (h.term_le he) hterm
    · rw [hold hs] at he
      exact h.leader_term_le hs he
  · rintro s (rfl | hs)
    · rw [hself]
      exact h.sorted_log c
    · rw [hold hs]
      exact h.sorted hs
  · intro s j hj
    obtain ⟨hs, hpos, e, he, hτ⟩ := h.last hj
    rw [hold hs]
    exact ⟨Set.mem_insert_of_mem t hs, hpos, e, he, hτ⟩
  · intro s j hj
    rw [hold (h.last hj).1]
    exact h.held hj
  · intro s s' j hj hs' hlt
    rw [hold (h.last hj).1]
    rcases hs' with rfl | hs'
    · rw [hself]
      obtain ⟨v, -, hheld, -, hup⟩ := (h.held hj).exists_and hmaj
      exact h.committed_of_upToDate hj hheld hup
    · rw [hold hs']
      exact h.complete hj hs' hlt

theorem append [DecidableEq ι] {c : ι} (ht : t ∈ H.elected) (hc : log c = H.log t)
    (hterm : t ≤ term c) {e : ε} (hτ : τ e = t) :
    ({ H with log := Function.update H.log t (log c ++ [e]) } : LeaderHistory ε).Sound τ M term
      (Function.update log c (log c ++ [e])) ∧
    ∀ {s j}, (s, j) ∈ H.committed →
      (Function.update H.log t (log c ++ [e]) s).take j = (H.log s).take j := by
  set H' : LeaderHistory ε := { H with log := Function.update H.log t (log c ++ [e]) } with hH'
  have hself : H'.log t = log c ++ [e] := Function.update_self ..
  have hne : ∀ {s}, s ≠ t → H'.log s = H.log s := fun hs ↦ Function.update_of_ne hs ..
  have hgrow : ∀ s, H.log s <+: H'.log s := by
    intro s
    by_cases hs : s = t
    · rw [hs, hself, hc]
      exact List.prefix_append _ _
    · rw [hne hs]
  have hsrc : ∀ {l}, H.Sourced τ l → H'.Sourced τ l := fun {l} hl k x hx ↦
    ⟨(hl hx).1, (hl hx).2.trans (hgrow _)⟩
  -- the new entry is the last of the leader's log
  have hnew : H'.Sourced τ (log c ++ [e]) := by
    intro k x hx
    rcases Nat.lt_or_ge k (log c).length with hlt | hge
    · rw [List.getElem?_append_left hlt] at hx
      rw [List.take_append_of_le_length (by omega)]
      exact hsrc (h.sourced c) hx
    · have hk : k = (log c).length := by
        have := (List.getElem?_eq_some_iff.mp hx).1
        rw [List.length_append, List.length_singleton] at this
        omega
      have hxe : x = e := by
        rw [hk] at hx
        simpa using hx.symm
      rw [hxe, hτ, hself, List.take_of_length_le (by simp [hk])]
      exact ⟨ht, List.prefix_rfl⟩
  have htake : ∀ {s j}, (s, j) ∈ H.committed → (H'.log s).take j = (H.log s).take j := by
    intro s j hj
    obtain ⟨-, hpos, x, hx, -⟩ := h.last hj
    have hlt := (List.getElem?_eq_some_iff.mp hx).1
    obtain ⟨r, hr⟩ := hgrow s
    rw [← hr, List.take_append_of_le_length (by omega)]
  have hlog : ∀ v, log v <+: Function.update log c (log c ++ [e]) v := by
    intro v
    by_cases hv : v = c
    · rw [hv, Function.update_self]
      exact List.prefix_append _ _
    · rw [Function.update_of_ne hv]
  refine ⟨⟨h.quorum, ?_, ?_, ?_, ?_, ?_, ?_, ?_, ?_⟩, htake⟩
  · intro v
    by_cases hv : v = c
    · rw [hv, Function.update_self]
      exact hnew
    · rw [Function.update_of_ne hv]
      exact hsrc (h.sourced v)
  · intro v x hx
    by_cases hv : v = c
    · subst hv
      rw [Function.update_self, List.mem_append, List.mem_singleton] at hx
      rcases hx with hx | rfl
      · exact h.term_le hx
      · exact hτ ▸ hterm
    · rw [Function.update_of_ne hv] at hx
      exact h.term_le hx
  · intro s hs
    by_cases hst : s = t
    · rw [hst, hself]
      exact hnew
    · rw [hne hst]
      exact hsrc (h.leader_sourced hs)
  · intro s x hs hx
    by_cases hst : s = t
    · rw [hst, hself, hc, List.mem_append, List.mem_singleton] at hx
      rw [hst]
      rcases hx with hx | rfl
      · exact h.leader_term_le ht hx
      · exact Nat.le_of_eq hτ
    · rw [hne hst] at hx
      exact h.leader_term_le hs hx
  · intro s hs
    by_cases hst : s = t
    · rw [hst, hself, hc]
      refine List.pairwise_append.mpr ⟨h.sorted ht, List.pairwise_singleton _ _, ?_⟩
      intro x hx y hy
      rw [List.mem_singleton.mp hy, hτ]
      exact h.leader_term_le ht hx
    · rw [hne hst]
      exact h.sorted hs
  · intro s j hj
    obtain ⟨hs, hpos, x, hx, hxs⟩ := h.last hj
    refine ⟨hs, hpos, x, ?_, hxs⟩
    obtain ⟨r, hr⟩ := hgrow s
    rw [← hr, List.getElem?_append_left (List.getElem?_eq_some_iff.mp hx).1]
    exact hx
  · intro s j hj
    rw [htake hj]
    exact (h.held hj).imp fun v hv ↦ hv.trans (hlog v)
  · intro s s' j hj hs' hlt
    rw [htake hj]
    exact (h.complete hj hs' hlt).trans (hgrow s')

theorem replicate [DecidableEq ι] {v : ι} (ht : t ∈ H.elected) (hterm : term v = t) :
    H.Sound τ M term (Function.update log v (H.log t)) := by
  refine ⟨h.quorum, ?_, ?_, h.leader_sourced, h.leader_term_le, h.sorted, h.last, ?_, h.complete⟩
  · intro w
    by_cases hw : w = v
    · rw [hw, Function.update_self]
      exact h.leader_sourced ht
    · rw [Function.update_of_ne hw]
      exact h.sourced w
  · intro w e he
    by_cases hw : w = v
    · rw [hw, Function.update_self] at he
      rw [hw, hterm]
      exact h.leader_term_le ht he
    · rw [Function.update_of_ne hw] at he
      exact h.term_le he
  · intro s j hj
    refine (h.held hj).imp fun w hw ↦ ?_
    by_cases hwv : w = v
    · subst hwv
      rw [Function.update_self]
      obtain ⟨-, hpos, e, he, hτ⟩ := h.last hj
      -- a holder of the committed prefix has reached its term
      have hge : s ≤ t := by
        have hlt := (List.getElem?_eq_some_iff.mp he).1
        have hmem : (log w)[j - 1]? = some e := by rw [prefix_of_take hw (by omega) hlt, he]
        rw [← hτ, ← hterm]
        exact h.term_le (List.mem_of_getElem? hmem)
      rcases Nat.lt_or_eq_of_le hge with hlt | rfl
      · exact h.complete hj ht hlt
      · exact List.take_prefix j _
    · rw [Function.update_of_ne hwv]
      exact hw

/-- The leader of a term commits a prefix that ends with an entry of the term and that a majority
holds which has not passed the term. -/
theorem commit [DecidableEq ι] (ht : t ∈ H.elected) (hpos : 0 < k)
    (hlast : ∃ e, (H.log t)[k - 1]? = some e ∧ τ e = t)
    (hmaj : HasMajority M fun v ↦ (H.log t).take k <+: log v ∧ term v ≤ t) :
    ({ H with committed := insert (t, k) H.committed } : LeaderHistory ε).Sound τ M term log := by
  refine ⟨h.quorum, h.sourced, h.term_le, h.leader_sourced, h.leader_term_le, h.sorted, ?_, ?_, ?_⟩
  · rintro s j (hnew | hold)
    · cases hnew
      exact ⟨ht, hpos, hlast⟩
    · exact h.last hold
  · rintro s j (hnew | hold)
    · cases hnew
      exact hmaj.imp fun v hv ↦ hv.1
    · exact h.held hold
  · rintro s s' j (hnew | hold) hs' hlt
    · cases hnew
      -- a majority has reached the later term, and another has not passed this one
      obtain ⟨v, -, ⟨-, hle⟩, hge⟩ := hmaj.exists_and (h.quorum hs')
      omega
    · exact h.complete hold hs' hlt

/-! ## Agreement -/

/-- Of two committed lists one is a prefix of the other. -/
theorem committed_total (hl : H.Committed l) (hl' : H.Committed l') : l <+: l' ∨ l' <+: l := by
  rcases hl with rfl | ⟨t, k, hc, hpre⟩
  · exact .inl List.nil_prefix
  rcases hl' with rfl | ⟨t', k', hc', hpre'⟩
  · exact .inr List.nil_prefix
  rcases Nat.lt_trichotomy t t' with hlt | rfl | hlt
  · have hcomp := h.complete hc (h.last hc').1 hlt
    exact List.prefix_or_prefix_of_prefix (hpre.trans hcomp)
      (hpre'.trans ( List.take_prefix k' _))
  · exact List.prefix_or_prefix_of_prefix (hpre.trans ( List.take_prefix k _))
      (hpre'.trans ( List.take_prefix k' _))
  · have hcomp := h.complete hc' (h.last hc).1 hlt
    exact List.prefix_or_prefix_of_prefix (hpre.trans ( List.take_prefix k _))
      (hpre'.trans hcomp)

end Sound

theorem Committed.mono {H' : LeaderHistory ε} (h : H.Committed l)
    (hsub : H.committed ⊆ H'.committed)
    (htake : ∀ {s j}, (s, j) ∈ H.committed → (H'.log s).take j = (H.log s).take j) :
    H'.Committed l := by
  rcases h with rfl | ⟨t, k, hc, hl⟩
  · exact .inl rfl
  · exact .inr ⟨t, k, hsub hc, (htake hc).symm ▸ hl⟩

end LeaderHistory

end EventHorizon
