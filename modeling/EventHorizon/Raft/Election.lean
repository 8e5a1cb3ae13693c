import EventHorizon.Library.Except
import EventHorizon.Library.Majority
import EventHorizon.Raft.Moves

/-!
# Election safety

A node casts at most one vote in a term, so two candidates that both hold a majority of the votes of
one term are the same. What has to be shown is that a leader does hold a majority of the votes of
the term it leads in. `elect` counts votes for the term it started in and gives the lock back
between replies; its last section looks at the count alone. A node whose term has moved on in the
meantime takes the leader role in a term it has not asked anybody about. `winsOwnTerm` is the guard
that no last section does.

The argument only needs the term, the vote and the role of a node, in memory and in the database,
which are its *ballot*. Sections that cast no vote change it quietly (`Ballot.Quiet`): they keep it,
give up a role, or adopt a later term without a vote. Nothing is assumed about logs.
-/

namespace EventHorizon.Raft

/-! ## Ballots -/

/-- The part of a node that elections read and write. -/
structure Ballot where
  nodeId : NodeId
  members : List NodeId
  term : ℕ
  votedFor : NodeId
  durableTerm : ℕ
  durableVote : NodeId
  role : Role

def Node.ballot (n : Node) : Ballot where
  nodeId := n.nodeId
  members := n.members
  term := n.term
  votedFor := n.votedFor
  durableTerm := n.db.term
  durableVote := n.db.votedFor
  role := n.role

namespace Ballot

/-- The ballot of node `i`, with the database in step. -/
structure Standing (members : List NodeId) (i : NodeId) (b : Ballot) : Prop where
  nodeId : b.nodeId = i
  members : b.members = members
  term : b.durableTerm = b.term
  vote : b.durableVote = b.votedFor

/-- No vote is cast: the term and the vote stay and no role is gained, or a later term starts
without a vote. -/
def Quiet (b b' : Ballot) : Prop :=
  b'.term = b.term ∧ b'.votedFor = b.votedFor ∧ (b'.role = b.role ∨ b'.role = .follower) ∨
  b.term < b'.term ∧ b'.votedFor = "" ∧ b'.role = .follower

/-- The vote of term `t` is cast for `x`. -/
structure Casts (b : Ballot) (t : ℕ) (x : NodeId) (b' : Ballot) : Prop where
  le : b.term ≤ t
  term : b'.term = t
  votedFor : b'.votedFor = x
  free : b.term = t → b.votedFor = "" ∨ b.votedFor = x
  role : b'.role = .leader → b.term = t ∧ b.role = .leader

theorem Quiet.refl (b : Ballot) : b.Quiet b := .inl ⟨rfl, rfl, .inl rfl⟩

theorem Quiet.trans {b₁ b₂ b₃ : Ballot} (h : b₁.Quiet b₂) (h' : b₂.Quiet b₃) : b₁.Quiet b₃ := by
  rcases h with ⟨ht, hv, hr⟩ | ⟨ht, hv, hr⟩ <;> rcases h' with ⟨ht', hv', hr'⟩ | ⟨ht', hv', hr'⟩
  · refine .inl ⟨ht'.trans ht, hv'.trans hv, ?_⟩
    rcases hr' with hr' | hr'
    · rw [hr']
      exact hr
    · exact .inr hr'
  · exact .inr ⟨by omega, hv', hr'⟩
  · refine .inr ⟨by omega, hv'.trans hv, ?_⟩
    rcases hr' with hr' | hr'
    · rw [hr', hr]
    · exact hr'
  · exact .inr ⟨by omega, hv', hr'⟩

theorem Quiet.of_leader {b b' : Ballot} (h : b.Quiet b') (hl : b'.role = .leader) :
    b.role = .leader ∧ b'.term = b.term := by
  rcases h with ⟨ht, -, hr | hr⟩ | ⟨-, -, hr⟩
  · exact ⟨hr ▸ hl, ht⟩
  · rw [hr] at hl
    cases hl
  · rw [hr] at hl
    cases hl

theorem Quiet.term_le {b b' : Ballot} (h : b.Quiet b') : b.term ≤ b'.term := by
  rcases h with ⟨ht, -⟩ | ⟨ht, -⟩ <;> omega

end Ballot

/-! ## Ballots across sections -/

namespace Node

variable {n n' : Node} {members : List NodeId} {i : NodeId}

/-- A section casts no vote and leaves the database in step. -/
def QuietTo (n n' : Node) : Prop :=
  n.ballot.Quiet n'.ballot ∧ ∀ members i, n.ballot.Standing members i → n'.ballot.Standing members i

theorem QuietTo.of_eq (h : n'.ballot = n.ballot) : n.QuietTo n' := by
  rw [QuietTo, h]
  exact ⟨.refl _, fun _ _ h ↦ h⟩

theorem QuietTo.trans {m : Node} (h : n.QuietTo m) (h' : m.QuietTo n') : n.QuietTo n' :=
  ⟨h.1.trans h'.1, fun _ _ hs ↦ h'.2 _ _ (h.2 _ _ hs)⟩

theorem stepDown_quiet {t : ℕ} {x : Option NodeId} (h : n.stepDown t x = .ok n') :
    n.QuietTo n' ∧ n'.term = t ∧ n'.role = .follower ∧
      n'.votedFor = if n.term < t then "" else n.votedFor := by
  rw [stepDown] at h
  by_cases hlt : t < n.term
  · rw [if_pos hlt] at h
    cases h
  rw [if_neg hlt, Except.ok.injEq, adoptTerm] at h
  subst h
  by_cases hup : n.term < t
  · rw [if_pos hup, if_pos hup]
    exact ⟨⟨.inr ⟨hup, rfl, rfl⟩, fun _ _ hs ↦ ⟨hs.1, hs.2, rfl, rfl⟩⟩, rfl, rfl, rfl⟩
  · rw [if_neg hup, if_neg hup]
    refine ⟨⟨.inl ⟨rfl, rfl, .inr rfl⟩, fun _ _ hs ↦ ⟨hs.1, hs.2, hs.3, hs.4⟩⟩, ?_, rfl, rfl⟩
    exact Nat.le_antisymm (Nat.not_lt.mp hlt) (Nat.not_lt.mp hup)

theorem applyLoop_ballot {fuel : ℕ} (h : applyLoop fuel n = .ok n') : n'.ballot = n.ballot := by
  induction fuel generalizing n with
  | zero =>
    cases h
    rfl
  | succ fuel ih =>
    rw [applyLoop] at h
    split at h
    case isFalse =>
      cases h
      rfl
    case isTrue =>
      obtain ⟨m, hm, h⟩ := bind_eq_ok.mp h
      rw [ih h]
      rw [applyNext] at hm
      split at hm
      · cases hm
      · obtain ⟨x, -, hm⟩ := bind_eq_ok.mp hm
        cases hm
        rfl

theorem applyCommitted_ballot (h : n.applyCommitted = .ok n') : n'.ballot = n.ballot :=
  applyLoop_ballot h

theorem rollback_ballot (e : Exn) : (n.rollback e).1.ballot = n.ballot := by
  rw [rollback, restoreCommittedIndices]
  split <;> rename_i heq <;> split at heq <;> cases heq <;> rfl

theorem electCount_quiet {electionTerm votes theirTerm : ℕ} {grant : Bool} {tally : Tally}
    (h : n.electCount electionTerm votes theirTerm grant = (n', .ok tally)) :
    n.QuietTo n' ∧ ∀ k, tally = .counting k → theirTerm ≤ electionTerm ∧
      k = votes + if grant then 1 else 0 := by
  rw [electCount] at h
  split at h
  case isTrue hlt =>
    split at h
    · cases h
    case h_2 m hm =>
      cases h
      exact ⟨(stepDown_quiet hm).1, fun _ hk ↦ (by cases hk)⟩
  case isFalse hlt =>
    split at h
    · cases h
      exact ⟨.of_eq rfl, fun _ hk ↦ (by cases hk)⟩
    case isFalse hne =>
      cases h
      rw [not_or, not_not] at hne
      refine ⟨.of_eq rfl, ?_⟩
      rintro k ⟨⟩
      exact ⟨hne.1 ▸ Nat.not_lt.mp hlt, rfl⟩

theorem replicateSettle_quiet {peer : NodeId} {m : Message} {r : AppendReply} {again : Bool}
    (h : n.replicateSettle peer m r = (n', .ok again)) : n.QuietTo n' := by
  rw [replicateSettle] at h
  split at h
  · split at h
    · cases h
    case h_2 m hm =>
      cases h
      exact (stepDown_quiet hm).1
  split at h
  · cases h
    exact .of_eq rfl
  split at h
  · cases h
    exact .of_eq rfl
  split at h
  all_goals
    cases h
    exact .of_eq rfl

theorem proposeCommit_quiet (position : ℕ) : n.QuietTo (n.proposeCommit position).1 := by
  rw [proposeCommit]
  split
  · exact .of_eq rfl
  split
  · exact .of_eq rfl
  split
  case h_1 e he =>
    have hb := n.rollback_ballot e
    dsimp only
    rcases n.giveUp_fst e with hr | hr <;> rw [hr]
    · exact .of_eq hb
    have hterm : (n.rollback e).1.term = n.term := congrArg Ballot.term hb
    have hvote : (n.rollback e).1.votedFor = n.votedFor := congrArg Ballot.votedFor hb
    refine ⟨.inl ⟨hterm, hvote, .inr rfl⟩, fun _ _ hs ↦ ?_⟩
    rw [← hb] at hs
    exact ⟨hs.1, hs.2, hs.3, hs.4⟩
  case h_2 n' hn =>
    have hb : n'.ballot = (n.setCommitIndex position).ballot := applyCommitted_ballot hn
    exact .of_eq hb

/-- A vote is refused, or it is cast in the term that was asked for. -/
theorem requestVote_ballot {t : ℤ} {x : NodeId} {li lt : ℤ} {reply : ℕ × Bool}
    (hs : n.ballot.Standing members i)
    (h : n.requestVote t x li lt = (n', .ok reply)) :
    reply.2 = false ∧ n.QuietTo n' ∨ reply = (t.toNat, true) ∧ x ∈ members ∧
      n.ballot.Casts t.toNat x n'.ballot ∧ n'.ballot.Standing members i := by
  rw [requestVote] at h
  split at h
  · cases h
    exact .inl ⟨rfl, .of_eq rfl⟩
  case isFalse hx =>
  split at h
  · cases h
    exact .inl ⟨rfl, .of_eq rfl⟩
  case isFalse ht =>
  split at h
  · cases h
  case h_2 m hm =>
    -- the term is adopted first, whether or not the vote is cast
    have hquiet : n.QuietTo m ∧ m.term = t.toNat ∧ (m.role = .leader → n.term = t.toNat) ∧
        (n.term = t.toNat → m.votedFor = n.votedFor) := by
      rw [requestVoteStepDown] at hm
      split at hm
      case isTrue hup =>
        obtain ⟨hq, hterm, hrole, hvote⟩ := stepDown_quiet hm
        refine ⟨hq, hterm, ?_, fun heq ↦ by omega⟩
        rw [hrole]
        exact fun hr ↦ (by cases hr)
      case isFalse hup =>
        cases hm
        have heq : n.term = t.toNat := by omega
        exact ⟨.of_eq rfl, heq, fun _ ↦ heq, fun _ ↦ rfl⟩
    obtain ⟨hq, hterm, hlead, hvote⟩ := hquiet
    rw [requestVoteGrant] at h
    split at h
    case isFalse =>
      cases h
      exact .inl ⟨rfl, hq⟩
    case isTrue hg =>
      cases h
      rw [not_or, not_not] at hx
      have hmem : n.members = members := hs.members
      refine .inr ⟨by rw [hterm], hmem ▸ hx.1, ⟨?_, hterm, rfl, ?_, ?_⟩, ?_⟩
      · exact hterm ▸ hq.1.term_le
      · intro heq
        have hsame := hg.2
        rw [hvote heq] at hsame
        exact hsame
      · intro hr
        exact ⟨hlead hr, (hq.1.of_leader hr).1⟩
      · have hsm := hq.2 _ _ hs
        exact ⟨hsm.1, hsm.2, hsm.3, rfl⟩

theorem electStepDown_quiet (h : n.electStepDown = .ok n') : n.QuietTo n' := (stepDown_quiet h).1

theorem electStart_ballot (hs : n.ballot.Standing members i) (h : n.electStart = .ok n') :
    n'.term = n.term + 1 ∧ n.ballot.Casts n'.term i n'.ballot ∧ n'.ballot.Standing members i := by
  obtain ⟨m, hm, h⟩ := bind_eq_ok.mp h
  cases h
  obtain ⟨hq, hterm, -, -⟩ := stepDown_quiet hm
  have hsm := hq.2 _ _ hs
  have hnm : n.ballot.term = n.term := rfl
  refine ⟨hterm, ⟨?_, rfl, hsm.nodeId, ?_, fun hr ↦ (nomatch hr)⟩, ?_⟩
  · rw [hterm, hnm]
    exact Nat.le_succ _
  · rw [hterm, hnm]
    exact fun heq ↦ absurd heq (Nat.ne_of_lt (Nat.lt_succ_self _))
  · exact ⟨hsm.1, hsm.2, hsm.3, rfl⟩

section

variable [Platform]

theorem insertEntry_ballot (db : Database) {db' : Database} {index : ℕ} {e : Entry}
    (h : db.insertEntry index e = .ok db') : db'.term = db.term ∧ db'.votedFor = db.votedFor := by
  obtain ⟨command, -, h⟩ := bind_eq_ok.mp h
  obtain ⟨-, h⟩ := throw_if_eq_ok.mp h
  obtain ⟨-, h⟩ := throw_if_eq_ok.mp h
  cases h
  exact ⟨rfl, rfl⟩

theorem appendItems_ballot {commit index : ℕ} {es : List Entry} {db db' : Database}
    (h : Database.appendItems commit db index es = .ok db') :
    db'.term = db.term ∧ db'.votedFor = db.votedFor := by
  induction es generalizing db index with
  | nil =>
    cases h
    exact ⟨rfl, rfl⟩
  | cons e es ih =>
    obtain ⟨db₁, h₁, h⟩ := bind_eq_ok.mp h
    have hone : db₁.term = db.term ∧ db₁.votedFor = db.votedFor := by
      rw [Database.appendItem] at h₁
      split at h₁
      · exact insertEntry_ballot db h₁
      split at h₁
      · split at h₁
        · cases h₁
        · exact insertEntry_ballot (db.deleteFrom index) h₁
      · cases h₁
        exact ⟨rfl, rfl⟩
    obtain ⟨hterm, hvote⟩ := ih h
    exact ⟨hterm.trans hone.1, hvote.trans hone.2⟩

theorem appendTransaction_ballot {first : ℕ} {es : List Entry} {leaderCommit : ℤ}
    (h : n.appendTransaction first es leaderCommit = .ok n') : n'.ballot = n.ballot := by
  obtain ⟨db, hdb, h⟩ := bind_eq_ok.mp h
  obtain ⟨hterm, hvote⟩ := appendItems_ballot hdb
  rw [applyCommitted_ballot h]
  split
  all_goals
    simp only [ballot, setCommitIndex]
    rw [hterm, hvote]

omit [Platform] in
theorem appendStepDown_quiet {t : ℤ} {x : NodeId} (h : n.appendStepDown t x = .ok n') :
    n.QuietTo n' := by
  rw [appendStepDown] at h
  split at h
  · exact (stepDown_quiet h).1
  · cases h
    exact .of_eq rfl

theorem appendEntries_quiet (a : AppendArgs) : n.QuietTo (n.appendEntries a).1 := by
  rw [appendEntries]
  split
  · exact .of_eq rfl
  split
  · exact .of_eq rfl
  split
  · exact .of_eq rfl
  case h_2 m hm =>
    refine (appendStepDown_quiet hm).trans ?_
    rw [appendAccept]
    split
    · split <;> exact .of_eq rfl
    split
    · exact .of_eq rfl
    split
    · exact .of_eq rfl
    split
    · exact .of_eq (rollback_ballot _)
    case h_2 n' hn => exact .of_eq (appendTransaction_ballot hn)

theorem proposeAppend_quiet {command : Command} (h : n.proposeAppend command = .ok n') :
    n.QuietTo n' := by
  obtain ⟨⟨⟩, -, h⟩ := bind_eq_ok.mp h
  obtain ⟨-, h⟩ := throw_if_eq_ok.mp h
  obtain ⟨db, hdb, h⟩ := bind_eq_ok.mp h
  cases h
  obtain ⟨hterm, hvote⟩ := insertEntry_ballot n.db hdb
  refine .of_eq ?_
  simp only [ballot]
  rw [hterm, hvote]

/-- A restart keeps the durable term and vote and gives up the role. -/
theorem open_ballot {M : Membership} {db : Database} (h : Node.open i M.members db = .ok n') :
    n'.ballot = ⟨i, M.members, db.term, db.votedFor, db.term, db.votedFor, .follower⟩ := by
  rw [Node.open] at h
  obtain ⟨-, h⟩ := throw_if_eq_ok.mp h
  obtain ⟨-, h⟩ := throw_if_eq_ok.mp h
  obtain ⟨expected, -, h⟩ := bind_eq_ok.mp h
  split at h
  · obtain ⟨-, h⟩ := throw_if_eq_ok.mp h
    obtain ⟨-, h⟩ := throw_if_eq_ok.mp h
    obtain ⟨-, h⟩ := throw_if_eq_ok.mp h
    rw [applyCommitted_ballot h]
    rfl
  · obtain ⟨-, h⟩ := throw_if_eq_ok.mp h
    obtain ⟨-, h⟩ := throw_if_eq_ok.mp h
    rw [applyCommitted_ballot h]
    rfl

/-- A restart on what a quiet section left behind is quiet. -/
theorem QuietTo.open {M : Membership} {m : Node} (hs : n.ballot.Standing M.members i)
    (hq : n.QuietTo m) (h : Node.open i M.members m.db = .ok n') : n.QuietTo n' := by
  have hb := open_ballot h
  have hsm := hq.2 _ _ hs
  have hterm : m.db.term = m.term := hsm.term
  have hvote : m.db.votedFor = m.votedFor := hsm.vote
  refine hq.trans ⟨?_, fun members j hsj ↦ ?_⟩
  · rw [hb]
    exact .inl ⟨hterm, hvote, .inr rfl⟩
  · rw [hb]
    exact ⟨hsm.nodeId ▸ hsj.nodeId, hsm.members ▸ hsj.members, rfl, rfl⟩

end

end Node

/-! ## Votes and calls -/

section Elections

variable [Platform] {M : Membership} {c c' : Cluster} {a : Action} {i : NodeId} {n : Node}

/-- The vote is recorded in the trace. -/
def Cluster.Granted (c : Cluster) (voter : NodeId) (t : ℕ) (candidate : NodeId) : Prop :=
  .granted voter t candidate ∈ c.trace

/-- A granted vote in a reply that is not counted yet. -/
def replyVotes : Option (ℕ × Bool) → ℕ
  | some (_, true) => 1
  | _ => 0

/-- The votes an `elect` call has counted, or is about to count, were granted by different members,
none of which is asked again. -/
def Cluster.Counted (M : Membership) (c : Cluster) (e : ElectCall) : Prop :=
  ∃ voters : List NodeId, (voters ++ e.pending).Nodup ∧ (∀ v ∈ voters ++ e.pending, v ∈ M.members) ∧
    voters.length = e.votes + replyVotes e.reply ∧
    ∀ v ∈ voters, c.Granted v e.electionTerm e.node

/-- Why leaders of one term are equal: votes are unique, counted votes were granted, and leaders
have a majority. -/
structure Elections (M : Membership) (c : Cluster) : Prop where
  standing : ∀ i, (c.node i).ballot.Standing M.members i
  candidate : ∀ {v t x}, c.Granted v t x → x ∈ M.members
  granted : ∀ {v t x}, c.Granted v t x →
    t ≤ (c.node v).term ∧ (t = (c.node v).term → (c.node v).votedFor = x)
  unique : ∀ {v t x y}, c.Granted v t x → c.Granted v t y → x = y
  counted : ∀ {id e}, (id, Call.elect e) ∈ c.calls → c.Counted M e
  leader : ∀ {i}, (c.node i).role = .leader →
    HasMajority M.members.toFinset fun v ↦ c.Granted v (c.node i).term i

theorem Cluster.Counted.mono {e : ElectCall} (h : c.Counted M e)
    (htrace : ∀ {v t x}, c.Granted v t x → c'.Granted v t x) : c'.Counted M e := by
  obtain ⟨voters, hnodup, hmem, hlen, hgr⟩ := h
  exact ⟨voters, hnodup, hmem, hlen, fun v hv ↦ htrace (hgr v hv)⟩

/-- A step that casts no vote. -/
theorem Elections.quiet (h : Elections M c) (hnode : ∀ j, (c.node j).QuietTo (c'.node j))
    (htrace : ∀ {v t x}, c'.Granted v t x ↔ c.Granted v t x)
    (hcalls : ∀ {id e}, (id, Call.elect e) ∈ c'.calls → c'.Counted M e) : Elections M c' where
  standing j := (hnode j).2 _ _ (h.standing j)
  candidate hg := h.candidate (htrace.mp hg)
  granted {v t x} hg := by
    obtain ⟨hle, heq⟩ := h.granted (htrace.mp hg)
    rcases (hnode v).1 with ⟨ht, hv, -⟩ | ⟨ht, -, -⟩
    · have ht : (c'.node v).term = (c.node v).term := ht
      have hv : (c'.node v).votedFor = (c.node v).votedFor := hv
      rw [ht, hv]
      exact ⟨hle, heq⟩
    · have ht : (c.node v).term < (c'.node v).term := ht
      exact ⟨by omega, fun hx ↦ by omega⟩
  unique hg hg' := h.unique (htrace.mp hg) (htrace.mp hg')
  counted := hcalls
  leader {i} hl := by
    obtain ⟨hrole, hterm⟩ := (hnode i).1.of_leader hl
    have hterm : (c'.node i).term = (c.node i).term := hterm
    rw [hterm]
    exact (h.leader hrole).imp fun v hv ↦ htrace.mpr hv

/-- A step in which one node casts a vote. -/
theorem Elections.cast (h : Elections M c) {v x : NodeId} {t : ℕ} (hx : x ∈ M.members)
    (hcast : (c.node v).ballot.Casts t x n.ballot) (hstand : n.ballot.Standing M.members v)
    (hnode : ∀ j, c'.node j = if j = v then n else c.node j)
    (htrace : c'.trace = c.trace ++ [.granted v t x])
    (hcalls : ∀ {id e}, (id, Call.elect e) ∈ c'.calls → c'.Counted M e) : Elections M c' := by
  have hgr : ∀ {w s y}, c'.Granted w s y ↔ c.Granted w s y ∨ w = v ∧ s = t ∧ y = x := by
    intro w s y
    rw [Cluster.Granted, htrace, List.mem_append, List.mem_singleton, Event.granted.injEq]
    rfl
  have hself : c'.node v = n := by rw [hnode, if_pos rfl]
  have hne : ∀ {j}, j ≠ v → c'.node j = c.node j := fun hj ↦ by rw [hnode, if_neg hj]
  have hle : (c.node v).term ≤ t := hcast.le
  have hterm : n.term = t := hcast.term
  have hvote : n.votedFor = x := hcast.votedFor
  -- an earlier vote of the same term was for the same candidate
  have hsame : ∀ {y}, c.Granted v t y → y = x := by
    intro y hy
    obtain ⟨hty, hvy⟩ := h.granted hy
    have heq : t = (c.node v).term := Nat.le_antisymm hty hle
    rcases hcast.free heq.symm with hfree | hfree
    · have hempty : y = "" := (hvy heq).symm.trans hfree
      exact absurd (hempty ▸ h.candidate hy) M.nonempty
    · exact (hvy heq).symm.trans hfree
  refine ⟨fun j ↦ ?_, ?_, ?_, ?_, hcalls, ?_⟩
  · by_cases hj : j = v
    · rw [hj, hself]
      exact hstand
    · rw [hne hj]
      exact h.standing j
  · intro w s y hg
    rcases hgr.mp hg with hg | ⟨-, -, rfl⟩
    · exact h.candidate hg
    · exact hx
  · intro w s y hg
    by_cases hw : w = v
    · subst hw
      rw [hself, hterm, hvote]
      rcases hgr.mp hg with hg | ⟨-, rfl, rfl⟩
      · refine ⟨Nat.le_trans (h.granted hg).1 hle, ?_⟩
        rintro rfl
        exact (hsame hg).symm
      · exact ⟨Nat.le_refl _, fun _ ↦ rfl⟩
    · rw [hne hw]
      rcases hgr.mp hg with hg | ⟨hwv, -, -⟩
      · exact h.granted hg
      · exact absurd hwv hw
  · intro w s y z hy hz
    rcases hgr.mp hy with hy | ⟨rfl, rfl, rfl⟩ <;> rcases hgr.mp hz with hz | ⟨hw, hs, rfl⟩
    · exact h.unique hy hz
    · subst hw hs
      exact hsame hy
    · exact (hsame hz).symm
    · rfl
  · intro j hl
    by_cases hj : j = v
    · subst hj
      rw [hself] at hl ⊢
      obtain ⟨heq, hrole⟩ := hcast.role hl
      have heq : (c.node j).term = t := heq
      rw [hterm, ← heq]
      exact (h.leader hrole).imp fun w hw ↦ hgr.mpr (.inl hw)
    · rw [hne hj] at hl ⊢
      exact (h.leader hl).imp fun w hw ↦ hgr.mpr (.inl hw)

/-! ## The guard and the invariant -/

/-- The guard of the last section of `elect`: a section that takes the leader role runs in the term
the votes were asked for. -/
def winsOwnTerm (c : Cluster) (a : Action) : Prop :=
  ∀ id ∈ a.finish?, ∀ e ∈ c.elect? id,
    (c.node e.node).electWins e.votes = true → (c.node e.node).term = e.electionTerm

instance (c : Cluster) (a : Action) : Decidable (winsOwnTerm c a) :=
  inferInstanceAs (Decidable (∀ id ∈ a.finish?, ∀ e ∈ c.elect? id,
    (c.node e.node).electWins e.votes = true → (c.node e.node).term = e.electionTerm))

omit [Platform] in
theorem winsOwnTerm_of_call {id : ℕ} {e : ElectCall} (hok : winsOwnTerm c (.finish id))
    (hcall : c.calls.get? id = some (.elect e)) :
    (c.node e.node).electWins e.votes = true → (c.node e.node).term = e.electionTerm :=
  hok id rfl e (Cluster.elect?_eq_some.mpr hcall)

omit [Platform] in
theorem quietTo_setNode {c₀ : Cluster} (hnode : c₀.node = c.node) (hn : (c.node i).QuietTo n)
    (j : NodeId) : (c.node j).QuietTo ((c₀.setNode i n).node j) := by
  by_cases hj : j = i
  · subst hj
    rw [Cluster.setNode_node_self]
    exact hn
  · rw [Cluster.setNode_node_ne hj, hnode]
    exact .of_eq rfl

/-- A quiet change of one node that starts no `elect` call. -/
theorem Elections.setNode (h : Elections M c) {c₀ : Cluster} (hnode : c₀.node = c.node)
    (htrace : c₀.trace = c.trace) (hn : (c.node i).QuietTo n)
    (hcalls : ∀ {id e}, (id, Call.elect e) ∈ c₀.calls → c.Counted M e) :
    Elections M (c₀.setNode i n) := by
  refine h.quiet (quietTo_setNode hnode hn) ?_ fun hm ↦ (hcalls hm).mono ?_
  · intro v t x
    rw [Cluster.Granted, Cluster.setNode_trace, htrace]
    rfl
  · intro v t x hg
    rw [Cluster.Granted, Cluster.setNode_trace, htrace]
    exact hg

/-- A step that changes no node and starts no `elect` call. -/
theorem Elections.setCalls (h : Elections M c) (hnode : c'.node = c.node)
    (htrace : ∀ {v t x}, c'.Granted v t x ↔ c.Granted v t x)
    (hcalls : ∀ {id e}, (id, Call.elect e) ∈ c'.calls → c.Counted M e) : Elections M c' :=
  h.quiet (fun _ ↦ hnode ▸ .of_eq rfl) htrace fun hm ↦ (hcalls hm).mono htrace.mpr

theorem Elections.reopens (h : Elections M c) {c₀ : Cluster} {m : Node}
    (ho : Reopens M c₀ i m.db c') (hnode : c₀.node = c.node) (htrace : c₀.trace = c.trace)
    (hq : (c.node i).QuietTo m)
    (hcalls : ∀ {id e}, (id, Call.elect e) ∈ c₀.calls → c.Counted M e) : Elections M c' := by
  obtain ⟨n, hn, rfl⟩ := ho
  exact h.setNode hnode htrace (hq.open (h.standing i) hn) fun hm ↦
    hcalls (Cluster.mem_endCallsOn_calls hm).1

omit [Platform] in
theorem Node.requestVoteCrash_quiet (n : Node) (t : ℤ) (x : NodeId) :
    ∃ m, n.QuietTo m ∧ Cluster.requestVoteCrash n t x = m.db := by
  rw [Cluster.requestVoteCrash]
  split
  · exact ⟨n, .of_eq rfl, rfl⟩
  split
  · exact ⟨n, .of_eq rfl, rfl⟩
  case h_2 m hm =>
    refine ⟨m, ?_, rfl⟩
    rw [requestVoteStepDown] at hm
    split at hm
    · exact (stepDown_quiet hm).1
    · cases hm
      exact .of_eq rfl

omit [Platform] in
theorem Node.appendCrash_quiet (n : Node) (args : AppendArgs) :
    ∃ m, n.QuietTo m ∧ Cluster.appendCrash n args = m.db := by
  rw [Cluster.appendCrash]
  split
  · exact ⟨n, .of_eq rfl, rfl⟩
  split
  · exact ⟨n, .of_eq rfl, rfl⟩
  case h_2 m hm => exact ⟨m, appendStepDown_quiet hm, rfl⟩

/-- Calls other than the one that changes were counted before. -/
theorem Elections.counted_put_propose (h : Elections M c) {id id' : ℕ} {p : ProposeCall}
    {e : ElectCall} (hm : (id', Call.elect e) ∈ c.calls.put id (.propose p)) : c.Counted M e := by
  rcases Table.mem_of_mem_put hm with hm | hm
  · cases hm
  · exact h.counted hm

theorem Elections.counted_put_elect (h : Elections M c) {id id' : ℕ} {e e' : ElectCall}
    (hm : (id', Call.elect e) ∈ c.calls.put id (.elect e')) (he' : c.Counted M e') :
    c.Counted M e := by
  rcases Table.mem_of_mem_put hm with hm | hm
  · cases hm
    exact he'
  · exact h.counted hm

/-- Giving a peer up leaves the counted votes. -/
theorem Cluster.Counted.drop {e : ElectCall} {p : NodeId} {rest : List NodeId}
    (h : c.Counted M e) (hp : e.pending = p :: rest) : c.Counted M { e with pending := rest } := by
  obtain ⟨voters, hnodup, hmem, hlen, hgr⟩ := h
  rw [hp] at hnodup hmem
  have hsub : (voters ++ rest).Sublist (voters ++ p :: rest) :=
    (List.Sublist.refl voters).append (List.sublist_cons_self p rest)
  exact ⟨voters, hnodup.sublist hsub, fun v hv ↦ hmem v (hsub.subset hv), hlen, hgr⟩

/-- A granted vote of the next peer is one more vote of another member. -/
theorem Cluster.Counted.grant {e : ElectCall} {p : NodeId} {rest : List NodeId}
    (h : c.Counted M e) (hp : e.pending = p :: rest) (hr : e.reply = none)
    (hg : c.Granted p e.electionTerm e.node) (t : ℕ) :
    c.Counted M { e with pending := rest, reply := some (t, true) } := by
  obtain ⟨voters, hnodup, hmem, hlen, hgr⟩ := h
  rw [hp] at hnodup hmem
  have happend : voters ++ [p] ++ rest = voters ++ p :: rest := by
    rw [List.append_assoc, List.singleton_append]
  refine ⟨voters ++ [p], happend ▸ hnodup, happend ▸ hmem, ?_, ?_⟩
  · rw [List.length_append, hlen, hr]
    rfl
  · intro v hv
    rcases List.mem_append.mp hv with hv | hv
    · exact hgr v hv
    · rw [List.mem_singleton.mp hv]
      exact hg

/-- When every peer has been asked, the counted votes are a majority of the membership. -/
theorem Cluster.Counted.majority {e : ElectCall} (h : c.Counted M e) (hr : e.reply = none)
    (hwin : M.members.length / 2 < e.votes) :
    HasMajority M.members.toFinset fun v ↦ c.Granted v e.electionTerm e.node := by
  obtain ⟨voters, hnodup, hmem, hlen, hgr⟩ := h
  have hvn : voters.Nodup := (List.nodup_append.mp hnodup).1
  refine ⟨voters.toFinset, ⟨?_, ?_⟩, fun v hv ↦ hgr v (List.mem_toFinset.mp hv)⟩
  · intro v hv
    exact List.mem_toFinset.mpr (hmem v (List.mem_append_left _ (List.mem_toFinset.mp hv)))
  · rw [List.toFinset_card_of_nodup hvn, List.toFinset_card_of_nodup M.nodup, hlen, hr]
    exact hwin

/-- A started `elect` call has the vote of its own node. -/
theorem Cluster.counted_started (hi : i ∈ M.members) (hg : c.Granted i n.term i) :
    c.Counted M (startedElect M n i) := by
  have hperm : ([i] ++ M.peers i).Perm M.members :=
    ((M.peers_perm i hi).cons i).trans (List.perm_cons_erase hi).symm
  refine ⟨[i], hperm.nodup_iff.mpr M.nodup, fun v hv ↦ hperm.subset hv, rfl, ?_⟩
  intro v hv
  rw [List.mem_singleton.mp hv]
  exact hg

/-- The reply of a peer that was asked. -/
theorem Elections.ask (h : Elections M c) {fate : Fate} {id : ℕ} {e : ElectCall} {p : NodeId}
    {rest : List NodeId} {reply : ℕ × Bool} (hcall : c.calls.get? id = some (.elect e))
    (hp : e.pending = p :: rest) (hr : e.reply = none)
    (hn : (c.node p).requestVote e.electionTerm e.node e.lastIndex e.lastTerm = (n, .ok reply)) :
    Elections M (((c.setNode p n).record (grantEvents p e.node (.ok reply))).setCall id (.elect
      { e with pending := rest, reply := if fate = .delivered then some reply else none })) := by
  have hcount := h.counted (Table.mem_of_get? hcall)
  have hdrop := hcount.drop hp
  rcases Node.requestVote_ballot (h.standing p) hn with ⟨hfalse, hq⟩ | ⟨rfl, hx, hcast, hstand⟩
  · obtain ⟨t, b⟩ := reply
    cases hfalse
    have hnone : grantEvents p e.node (.ok (t, false)) = [] := rfl
    rw [hnone]
    have htrace : ((c.setNode p n).record []).trace = c.trace := List.append_nil _
    refine h.quiet (quietTo_setNode rfl hq) ?_ fun hm ↦ (h.counted_put_elect hm ?_).mono ?_
    · intro v t x
      rw [Cluster.Granted, Cluster.setCall_trace, htrace]
      rfl
    · -- a refused vote adds nothing to the count
      obtain ⟨voters, hnodup, hmem, hlen, hgr⟩ := hdrop
      refine ⟨voters, hnodup, hmem, ?_, hgr⟩
      rw [hlen, hr]
      split <;> rfl
    · intro v t x hg
      rw [Cluster.Granted, Cluster.setCall_trace, htrace]
      exact hg
  · have hnat : ((e.electionTerm : ℤ)).toNat = e.electionTerm := Int.toNat_natCast _
    rw [hnat] at hcast ⊢
    refine h.cast hx hcast hstand (fun j ↦ Cluster.setNode_node) rfl fun hm ↦ ?_
    have hmono : ∀ {v t x}, c.Granted v t x →
        (((c.setNode p n).record (grantEvents p e.node (.ok (e.electionTerm, true)))).setCall id
          (.elect { e with
            pending := rest
            reply := if fate = .delivered then some (e.electionTerm, true) else none })).Granted
          v t x := fun hg ↦ List.mem_append_left _ hg
    rcases Table.mem_of_mem_put hm with hm | hm
    · cases hm
      by_cases hd : fate = .delivered
      · rw [if_pos hd]
        exact (hcount.mono hmono).grant hp hr
          (List.mem_append_right _ (List.mem_singleton.mpr rfl)) e.electionTerm
      · rw [if_neg hd, ← hr]
        exact hdrop.mono hmono
    · exact (h.counted hm).mono hmono

/-- A call that takes the leader role has a majority of the votes of the term. -/
theorem Elections.finish (h : Elections M c) {id : ℕ} {e : ElectCall}
    (hcall : c.calls.get? id = some (.elect e)) (hr : e.reply = none)
    (hok : (c.node e.node).electWins e.votes = true → (c.node e.node).term = e.electionTerm) :
    Elections M ((c.setNode e.node
      ((c.node e.node).electFinish (M.peers e.node) e.votes)).endCall id) := by
  have hcalls : ∀ {id' e'}, (id', Call.elect e') ∈ (c.endCall id).calls → c.Counted M e' :=
    fun hm ↦ h.counted (Cluster.mem_endCall_calls hm)
  rw [Node.electFinish]
  by_cases hwin : (c.node e.node).electWins e.votes = true
  · rw [if_pos hwin]
    have hmembers : (c.node e.node).members = M.members := (h.standing e.node).members
    have hmaj : HasMajority M.members.toFinset fun v ↦ c.Granted v e.electionTerm e.node := by
      refine (h.counted (Table.mem_of_get? hcall)).majority hr ?_
      rw [Node.electWins, hmembers, Bool.not_eq_true', decide_eq_false_iff_not] at hwin
      exact Nat.not_le.mp hwin
    refine ⟨fun j ↦ ?_, h.candidate, ?_, h.unique, hcalls, ?_⟩
    · by_cases hj : j = e.node
      · subst hj
        rw [Cluster.endCall_node, Cluster.setNode_node_self]
        have hs := h.standing e.node
        exact ⟨hs.1, hs.2, hs.3, hs.4⟩
      · rw [Cluster.endCall_node, Cluster.setNode_node_ne hj]
        exact h.standing j
    · intro v t x hg
      by_cases hj : v = e.node
      · subst hj
        rw [Cluster.endCall_node, Cluster.setNode_node_self]
        exact h.granted hg
      · rw [Cluster.endCall_node, Cluster.setNode_node_ne hj]
        exact h.granted hg
    · intro i hl
      by_cases hj : i = e.node
      · subst hj
        rw [Cluster.endCall_node, Cluster.setNode_node_self]
        change HasMajority _ fun v ↦ c.Granted v (c.node e.node).term e.node
        rw [hok hwin]
        exact hmaj
      · rw [Cluster.endCall_node, Cluster.setNode_node_ne hj] at hl ⊢
        exact h.leader hl
  · rw [if_neg hwin]
    exact h.quiet (quietTo_setNode rfl (.of_eq rfl)) Iff.rfl fun hm ↦
      (hcalls hm).mono fun hg ↦ hg

/-- One step. -/
theorem Move.elections (h : Elections M c) (hok : winsOwnTerm c a) (hmove : Move M c a c') :
    Elections M c' := by
  cases hmove with
  | @elect id i n hi hid hn =>
    -- the candidate votes for itself, and is the first voter of its call
    obtain ⟨-, hcast, hstand⟩ := Node.electStart_ballot (h.standing i) hn
    refine h.cast hi hcast hstand (fun j ↦ Cluster.setNode_node) rfl fun hm ↦ ?_
    have hmono : ∀ {v t x}, c.Granted v t x → (((c.setNode i n).record
        [.granted i n.term i]).setCall id (.elect (startedElect M n i))).Granted v t x :=
      fun hg ↦ List.mem_append_left _ hg
    rcases Table.mem_of_mem_put hm with hm | hm
    · cases hm
      exact Cluster.counted_started hi (List.mem_append_right _ (List.mem_singleton.mpr rfl))
    · exact (h.counted hm).mono hmono
  | electCrash hm ho =>
    exact h.reopens ho rfl rfl (Node.electStepDown_quiet hm) h.counted
  | askLost hcall hp hr =>
    exact h.setCalls rfl Iff.rfl fun hm ↦
      h.counted_put_elect hm ((h.counted (Table.mem_of_get? hcall)).drop hp)
  | @askCrash id e p rest c' hcall hp hr ho =>
    obtain ⟨m, hq, hdb⟩ := (c.node p).requestVoteCrash_quiet e.electionTerm e.node
    rw [hdb] at ho
    exact h.reopens ho rfl rfl hq fun hm ↦
      h.counted_put_elect hm ((h.counted (Table.mem_of_get? hcall)).drop hp)
  | ask fate hcall hp hr hn => exact h.ask hcall hp hr hn
  | @count id e theirTerm votes grant n hcall hr hn =>
    obtain ⟨hq, hk⟩ := Node.electCount_quiet hn
    obtain ⟨-, rfl⟩ := hk votes rfl
    refine h.quiet (quietTo_setNode rfl hq) Iff.rfl fun hm ↦ h.counted_put_elect hm ?_
    -- the voter of the reply was counted among the voters when it answered
    obtain ⟨voters, hnodup, hmem, hlen, hgr⟩ := h.counted (Table.mem_of_get? hcall)
    refine ⟨voters, hnodup, hmem, ?_, hgr⟩
    rw [hlen, hr]
    cases grant <;> rfl
  | countLost hcall hr hn =>
    exact h.quiet (quietTo_setNode rfl (Node.electCount_quiet hn).1) Iff.rfl fun hm ↦
      h.counted (Cluster.mem_endCall_calls hm)
  | finish hcall hp hr => exact h.finish hcall hr (winsOwnTerm_of_call hok hcall)
  | propose hi hid hfree hn =>
    exact h.quiet (quietTo_setNode rfl (Node.proposeAppend_quiet hn)) Iff.rfl fun hm ↦
      h.counted_put_propose hm
  | proposeRefused => exact h
  | enter => exact h.setCalls rfl Iff.rfl fun hm ↦ h.counted_put_propose hm
  | sendDone => exact h.setCalls rfl Iff.rfl fun hm ↦ h.counted_put_propose hm
  | sendFail => exact h.setCalls rfl Iff.rfl fun hm ↦ h.counted (Cluster.mem_endCall_calls hm)
  | send => exact h.setCalls rfl Iff.rfl fun hm ↦ h.counted_put_propose hm
  | deliverLost => exact h.setCalls rfl Iff.rfl fun hm ↦ h.counted_put_propose hm
  | @deliverCrash id p peer turns m c' hcall hs ho =>
    obtain ⟨m', hq, hdb⟩ := (c.node peer).appendCrash_quiet m.args
    rw [hdb] at ho
    exact h.reopens ho rfl rfl hq fun hm ↦ h.counted_put_propose hm
  | @deliver id p peer turns m n r hcall hs hn =>
    have hq := (c.node peer).appendEntries_quiet m.args
    rw [hn] at hq
    exact h.quiet (quietTo_setNode rfl hq) Iff.rfl fun hm ↦ h.counted_put_propose hm
  | @deliverFail id p peer turns m n x hcall hs hn =>
    have hq := (c.node peer).appendEntries_quiet m.args
    rw [hn] at hq
    exact h.quiet (quietTo_setNode rfl hq) Iff.rfl fun hm ↦
      h.counted (Cluster.mem_endCall_calls hm)
  | deliverReplyLost =>
    exact h.quiet (quietTo_setNode rfl (Node.appendEntries_quiet _)) Iff.rfl fun hm ↦
      h.counted_put_propose hm
  | settle hcall hs hn =>
    exact h.quiet (quietTo_setNode rfl (Node.replicateSettle_quiet hn)) Iff.rfl fun hm ↦
      h.counted_put_propose hm
  | @commit id p n row hcall hround hp hs hn =>
    have hq := (c.node p.node).proposeCommit_quiet p.position
    rw [hn] at hq
    exact h.quiet (quietTo_setNode rfl hq) Iff.rfl fun hm ↦ h.counted_put_propose hm
  | @commitFail id p n x hcall hround hn =>
    have hq := (c.node p.node).proposeCommit_quiet p.position
    rw [hn] at hq
    exact h.quiet (quietTo_setNode rfl hq) Iff.rfl fun hm ↦
      h.counted (Cluster.mem_endCall_calls hm)
  | answer =>
    refine h.setCalls rfl ?_ fun hm ↦ h.counted (Cluster.mem_endCall_calls hm)
    intro v t x
    rw [Cluster.Granted, Cluster.endCall_trace, Cluster.record_trace, List.mem_append,
      List.mem_singleton]
    exact ⟨fun hg ↦ hg.resolve_right (fun he ↦ (nomatch he)), .inl⟩
  | answerFail =>
    exact h.setCalls rfl Iff.rfl fun hm ↦ h.counted (Cluster.mem_endCall_calls hm)
  | abandon =>
    exact h.setCalls rfl Iff.rfl fun hm ↦ h.counted (Cluster.mem_endCall_calls hm)
  | restart ho => exact h.reopens ho rfl rfl (.of_eq rfl) h.counted
  | @requestVote i t x li lt n reply hi hn =>
    -- a candidate from outside gets no vote, or one of a term in which it stands
    rcases Node.requestVote_ballot (h.standing i) hn with ⟨hfalse, hq⟩ | ⟨rfl, hx, hcast, hstand⟩
    · obtain ⟨s, b⟩ := reply
      cases hfalse
      have hnone : grantEvents i x (.ok (s, false)) = [] := rfl
      have htrace : ((c.setNode i n).record []).trace = c.trace := List.append_nil _
      rw [hnone]
      refine h.quiet (quietTo_setNode rfl hq) ?_ fun hm ↦ (h.counted hm).mono ?_
      · intro v t x
        rw [Cluster.Granted, htrace]
        rfl
      · intro v t x hg
        rw [Cluster.Granted, htrace]
        exact hg
    · exact h.cast hx hcast hstand (fun j ↦ Cluster.setNode_node) rfl fun hm ↦
        (h.counted hm).mono fun hg ↦ List.mem_append_left _ hg
  | appendEntries =>
    exact h.quiet (quietTo_setNode rfl (Node.appendEntries_quiet _)) Iff.rfl h.counted

theorem Elections.initial : Elections M (Cluster.initial M) where
  standing _ := ⟨rfl, rfl, rfl, rfl⟩
  candidate hg := (nomatch hg)
  granted hg := (nomatch hg)
  unique hg := (nomatch hg)
  counted hm := (nomatch hm)
  leader hl := (nomatch hl)

/-- A term has at most one leader. -/
theorem Elections.leader_unique (h : Elections M c) {i j : NodeId} (hi : (c.node i).role = .leader)
    (hj : (c.node j).role = .leader) (hterm : (c.node i).term = (c.node j).term) : i = j := by
  obtain ⟨v, -, hvi, hvj⟩ := (h.leader hi).exists_and (h.leader hj)
  rw [hterm] at hvi
  exact h.unique hvi hvj

/-- The guard of election safety. -/
def winsOwnSpelledTerm (c : Cluster) (a : Action) : Prop := winsOwnTerm c a ∧ termsSpelled c a

instance (c : Cluster) (a : Action) : Decidable (winsOwnSpelledTerm c a) :=
  inferInstanceAs (Decidable (_ ∧ _))

theorem elections_of_reach (h : (machine M).Reach winsOwnTerm c) : Elections M c :=
  h.invariant Elections.initial fun hc hok hstep ↦ (Cluster.step_move hstep).elections hc hok

end Elections

/-! ## Election safety -/

/-- In every run whose elections are won in their own term, and which is brought only terms that
`str` spells, no term has two leaders, and a leader was granted the votes of its term by a majority
of the members. -/
theorem election_safety_of_winsOwnTerm [Platform] (M : Membership) {c : Cluster}
    (h : (machine M).Reach winsOwnSpelledTerm c) :
    (∀ {i j : NodeId}, (c.node i).role = .leader → (c.node j).role = .leader →
      (c.node i).term = (c.node j).term → i = j) ∧
    ∀ {i : NodeId}, (c.node i).role = .leader →
      HasMajority M.members.toFinset fun v ↦ Event.granted v (c.node i).term i ∈ c.trace := by
  have hel := elections_of_reach (h.mono fun hok ↦ hok.1)
  exact ⟨hel.leader_unique, hel.leader⟩

/-- `a` leads the first term. -/
theorem election_safety_of_first_term : ∃ c, (@machine pythonPlatform laboratory).Reach
    winsOwnSpelledTerm c ∧ (c.node "a").role = .leader ∧
      HasMajority (@Membership.members pythonPlatform laboratory).toFinset fun v ↦
        Event.granted v (c.node "a").term "a" ∈ c.trace := by
  let := pythonPlatform
  have hrun : ((machine laboratory).runIf winsOwnSpelledTerm (machine laboratory).init
      (overtaken.take 5)).map (fun c ↦ (c.node "a").role) = some .leader := by decide +kernel
  obtain ⟨c, hc, hrole⟩ := Option.map_eq_some_iff.mp hrun
  have hreach : (machine laboratory).Reach winsOwnSpelledTerm c := Machine.path_of_runIf hc
  exact ⟨c, hreach, hrole, (election_safety_of_winsOwnTerm laboratory hreach).2 hrole⟩

/-- `a` has the vote of `b` in term one. Before its last section `c` is elected in term two with the
vote of `a`; then `a` takes the leader role, in term two. -/
def outvoted : List Action :=
  [.elect 1 "a", .ask 1 .delivered, .count 1, .ask 1 .lost, .electCrash "c",
    .elect 2 "c", .ask 2 .delivered, .count 2, .ask 2 .lost, .finish 2, .finish 1]

/-- Two leaders in term two. -/
theorem election_safety_fails_outvoted : ¬∀ {c : Cluster},
    (@machine pythonPlatform laboratory).Reach anyInterleaving c →
    (∀ {i j : NodeId}, (c.node i).role = .leader → (c.node j).role = .leader →
      (c.node i).term = (c.node j).term → i = j) ∧
    ∀ {i : NodeId}, (c.node i).role = .leader →
      HasMajority (@Membership.members pythonPlatform laboratory).toFinset fun v ↦
        Event.granted v (c.node i).term i ∈ c.trace := by
  let := pythonPlatform
  intro hall
  have hrun : ((machine laboratory).runIf anyInterleaving (machine laboratory).init
      outvoted).map (fun c ↦ (((c.node "a").role, (c.node "a").term),
        ((c.node "c").role, (c.node "c").term))) = some ((.leader, 2), (.leader, 2)) := by
    decide +kernel
  obtain ⟨c, hc, hleaders⟩ := Option.map_eq_some_iff.mp hrun
  rw [Prod.mk.injEq, Prod.mk.injEq, Prod.mk.injEq] at hleaders
  obtain ⟨⟨ha, hta⟩, hb, htb⟩ := hleaders
  have hreach : (machine laboratory).Reach anyInterleaving c := Machine.path_of_runIf hc
  have heq := (hall hreach).1 ha hb (hta.trans htb.symm)
  exact absurd heq (by decide)

end EventHorizon.Raft
