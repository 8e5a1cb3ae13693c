import EventHorizon.Canonical.Forms
import EventHorizon.FailSafe.Emergency
import EventHorizon.FailSafe.Heartbeats

/-!
# Who may re-arm the emergency stop

`enroll_key` takes a flag `trusted_for_rearm` and keeps the names of the keys that have it, and
`revoke_key` removes them again; `receive_action` never looks at them. So any enrolled key re-arms
the controller once a trusted operator hands its message in. `guarded_iff` says of a run when that
makes a difference: everything that is meant to hold does, exactly when each message that re-arms
the tripped controller is signed by a key that is trusted for it at that time.
-/

namespace EventHorizon.FailSafe.Emergency

open Broker (Ed25519 capabilityKeyId)
open EventHorizon.Protocol (FloatReader)

section Guarded

variable [Platform] [Ed25519] [FloatArithmetic] {ρ : Type} [EventLog ρ] [PyValue.SetOrder] [PemKeys]

variable {cfg : Config} {s : Controller ρ} {c : Call} {calls : List Call} {keyId : PyStr}
  {key : Ed25519.PublicKey}

/-! ## Trusted keys -/

/-- The key is enrolled under the name, and trusted for re-arming. -/
def Trusted (s : Controller ρ) (keyId : PyStr) (key : Ed25519.PublicKey) : Prop :=
  keyId ∈ s.trustedRearmKeys ∧ s.authorizedKeys.get? keyId = some key

/-- The call enrols the key under the name as trusted for re-arming. -/
def Enrols (keyId : PyStr) (key : Ed25519.PublicKey) (s : Controller ρ) : Call → Prop
  | .enrollKey keyId' pem trustedForRearm _ =>
    keyId' = keyId ∧ trustedForRearm = true ∧ enrolment s keyId pem = .ok key
  | _ => False

/-- The call does not revoke the key of the name. -/
def Spares (keyId : PyStr) (_ : Controller ρ) : Call → Prop
  | .revokeKey keyId' _ => keyId' ≠ keyId
  | _ => True

omit [FloatArithmetic] [EventLog ρ] [PyValue.SetOrder] in
theorem enrolment_eq_ok {pem : PyStr} (h : enrolment s keyId pem = .ok key) :
    s.authorizedKeys.get? keyId = none := by
  obtain ⟨-, h⟩ := raiseIf_bind_eq_ok.mp h
  obtain ⟨k, -, h⟩ := bind_eq_ok.mp h
  obtain ⟨hnew, -⟩ := raiseIf_bind_eq_ok.mp h
  rw [Bool.not_eq_true, Option.isSome_eq_false_iff, Option.isNone_iff_eq_none] at hnew
  exact hnew

/-- A call leaves the two key sets as they are, or it is an enrolment, or a revocation. -/
theorem keys_step (cfg : Config) (s : Controller ρ) (c : Call) :
    ((step cfg s c).2.authorizedKeys = s.authorizedKeys ∧
      (step cfg s c).2.trustedRearmKeys = s.trustedRearmKeys ∧
      ∀ keyId key, ¬Enrols keyId key s c ∧ (Trusted s keyId key → Spares keyId s c)) ∨
    (∃ keyId pem trustedForRearm actor key, c = .enrollKey keyId pem trustedForRearm actor ∧
      enrolment s keyId pem = .ok key ∧
      (step cfg s c).2.authorizedKeys = s.authorizedKeys.put keyId key ∧
      (step cfg s c).2.trustedRearmKeys =
        if trustedForRearm = true then s.trustedRearmKeys ++ [keyId] else s.trustedRearmKeys) ∨
    ∃ keyId actor, c = .revokeKey keyId actor ∧
      (step cfg s c).2.authorizedKeys = s.authorizedKeys.filter (fun r ↦ r.1 ≠ keyId) ∧
      (step cfg s c).2.trustedRearmKeys = s.trustedRearmKeys.filter (fun k ↦ k ≠ keyId) := by
  cases c with
  | enrollKey keyId pem trustedForRearm actor =>
    rw [step, enrollKey]
    cases h : enrolment s keyId pem with
    | error e =>
      refine .inl ⟨rfl, rfl, fun keyId' key' ↦ ⟨?_, fun _ ↦ trivial⟩⟩
      rintro ⟨rfl, -, h'⟩
      cases h.symm.trans h'
    | ok key => exact .inr (.inl ⟨keyId, pem, trustedForRearm, actor, key, rfl, h, rfl, rfl⟩)
  | revokeKey keyId actor =>
    rw [step, revokeKey]
    split
    case isTrue hnone =>
      refine .inl ⟨rfl, rfl, fun keyId' key' ↦ ⟨fun h ↦ h, fun htrusted ↦ ?_⟩⟩
      rintro rfl
      rw [htrusted.2] at hnone
      cases hnone
    case isFalse => exact .inr (.inr ⟨keyId, actor, rfl, rfl, rfl⟩)
  | issueChallenge nonce nowMs lifetimeMs =>
    rw [step, issueChallenge]
    dsimp only
    split <;> exact .inl ⟨rfl, rfl, fun _ _ ↦ ⟨fun h ↦ h, fun _ ↦ trivial⟩⟩
  | receiveAction message nowMs trustedOperator wallMs =>
    obtain ⟨hkept, -⟩ := receiveAction_cases cfg s message nowMs trustedOperator wallMs
    exact .inl ⟨hkept.authorizedKeys, hkept.trustedRearmKeys,
      fun _ _ ↦ ⟨fun h ↦ h, fun _ ↦ trivial⟩⟩

/-- Every name trusted for re-arming is the name of an enrolled key. -/
def TrustedEnrolled (s : Controller ρ) : Prop :=
  ∀ keyId ∈ s.trustedRearmKeys, s.authorizedKeys.get? keyId ≠ none

theorem trustedEnrolled_step (s : Controller ρ) (c : Call) (h : TrustedEnrolled s) :
    TrustedEnrolled (step cfg s c).2 := by
  intro k hk
  rcases keys_step cfg s c with ⟨hkeys, htrusted, -⟩ |
    ⟨k', pem, t, actor, key, rfl, -, hkeys, htrusted⟩ | ⟨k', actor, rfl, hkeys, htrusted⟩
  · rw [hkeys]
    exact h k (htrusted ▸ hk)
  · rw [hkeys, Table.get?_put]
    split
    · exact Option.some_ne_none _
    case isFalse hne =>
      refine h k ?_
      rw [htrusted] at hk
      split at hk
      · rcases List.mem_append.mp hk with hk | hk
        · exact hk
        · exact absurd (List.mem_singleton.mp hk) hne
      · exact hk
  · rw [htrusted, List.mem_filter, decide_eq_true_eq] at hk
    rw [hkeys, Table.get?_filter_ne, if_neg hk.2]
    exact h k hk.1

/-- A key becomes trusted by being enrolled as such, and stays so until it is revoked. -/
theorem trusted_step (h : TrustedEnrolled s) :
    Trusted (step cfg s c).2 keyId key ↔
      Enrols keyId key s c ∨ Trusted s keyId key ∧ Spares keyId s c := by
  rcases keys_step cfg s c with ⟨hkeys, hnames, hc⟩ |
    ⟨k, pem, t, actor, key', rfl, henrol, hkeys, hnames⟩ | ⟨k, actor, rfl, hkeys, hnames⟩
  · obtain ⟨hno, hspares⟩ := hc keyId key
    rw [Trusted, hkeys, hnames]
    exact ⟨fun htrusted ↦ .inr ⟨htrusted, hspares htrusted⟩, fun h ↦ (h.resolve_left hno).1⟩
  · have hnew := enrolment_eq_ok henrol
    have hnot : k ∉ s.trustedRearmKeys := fun hmem ↦ h k hmem hnew
    rw [Trusted, hkeys, hnames, Table.get?_put, Enrols]
    by_cases hk : keyId = k
    · subst hk
      rw [if_pos rfl, henrol, Except.ok.injEq, Option.some.injEq]
      constructor
      · rintro ⟨hmem, rfl⟩
        refine .inl ⟨rfl, ?_, rfl⟩
        by_contra ht
        rw [if_neg ht] at hmem
        exact hnot hmem
      · rintro (⟨-, rfl, rfl⟩ | ⟨htrusted, -⟩)
        · rw [if_pos rfl]
          exact ⟨List.mem_append_right _ (List.mem_singleton.mpr rfl), rfl⟩
        · exact absurd htrusted.1 hnot
    · rw [if_neg hk]
      have hmem : keyId ∈ (if t = true then s.trustedRearmKeys ++ [k] else s.trustedRearmKeys) ↔
          keyId ∈ s.trustedRearmKeys := by
        split
        · rw [List.mem_append, List.mem_singleton, or_iff_left hk]
        · rfl
      rw [hmem]
      exact ⟨fun htrusted ↦ .inr ⟨htrusted, trivial⟩,
        fun h ↦ (h.resolve_left fun h ↦ hk h.1.symm).1⟩
  · rw [Trusted, hkeys, hnames, Table.get?_filter_ne, List.mem_filter, decide_eq_true_eq]
    constructor
    · rintro ⟨⟨hmem, hne⟩, hget⟩
      rw [if_neg hne] at hget
      exact .inr ⟨⟨hmem, hget⟩, Ne.symm hne⟩
    · rintro (h | ⟨⟨hmem, hget⟩, hne⟩)
      · exact h.elim
      · rw [if_neg (Ne.symm hne)]
        exact ⟨⟨hmem, Ne.symm hne⟩, hget⟩

theorem trustedEnrolled_after (cfg : Config) (recorder : ρ) (calls : List Call) :
    TrustedEnrolled (after cfg (.restarted recorder) calls) :=
  Transducer.after_invariant (fun _ h ↦ nomatch h) trustedEnrolled_step

/-- A call of the run enrolled the key under the name as trusted for re-arming, and none since has
revoked it. -/
def TrustedFor (cfg : Config) (recorder : ρ) (calls : List Call) (keyId : PyStr)
    (key : Ed25519.PublicKey) : Prop :=
  ∃ before c since, calls = before ++ c :: since ∧
    Enrols keyId key (after cfg (.restarted recorder) before) c ∧
    Transducer.Throughout (step cfg) (Spares keyId)
    (after cfg (.restarted recorder) (before ++ [c]))
      since

/-- The sets of the controller say which keys are trusted. -/
theorem trusted_after_iff {recorder : ρ} :
    Trusted (after cfg (.restarted recorder) calls) keyId key ↔
      TrustedFor cfg recorder calls keyId key := by
  constructor
  · intro h
    exact Transducer.exists_since_of_invariant (I := TrustedEnrolled)
      (Q := fun s ↦ Trusted s keyId key) (fun _ h ↦ nomatch h) trustedEnrolled_step
      (fun s c hI ↦ (trusted_step hI).mp) (fun h ↦ nomatch h.1) h
  · rintro ⟨before, c, since, rfl, henrols, hspares⟩
    have hI := trustedEnrolled_after cfg recorder
    have hfirst : Trusted (after cfg (.restarted recorder) (before ++ [c])) keyId key := by
      rw [after_concat]
      exact (trusted_step (hI before)).mpr (.inl henrols)
    rw [List.append_cons, after, Transducer.after_append]
    exact (Transducer.after_of_throughout (Q := fun s ↦ TrustedEnrolled s ∧ Trusted s keyId key)
      (fun s c h hc ↦ ⟨trustedEnrolled_step s c h.1, (trusted_step h.1).mpr (.inr ⟨h.2, hc⟩)⟩)
      ⟨hI _, hfirst⟩ hspares).2

/-! ## Armed since a re-arm -/

/-- The call is a re-arm message, signed by the key enrolled under the name, that a trusted operator
hands in and that is accepted. -/
def Rearms (cfg : Config) (keyId : PyStr) (key : Ed25519.PublicKey) (s : Controller ρ) : Call → Prop
  | .receiveAction message nowMs trustedOperator wallMs => trustedOperator = true ∧
      ∃ a, Accepts cfg s message nowMs trustedOperator wallMs a ∧ a.action = .rearm ∧
        a.keyId = keyId ∧ a.publicKey = key ∧ a.envelope.verified key = true
  | _ => False

/-- The call is not a kill and not a message that is rejected. -/
def Quiet (cfg : Config) (s : Controller ρ) : Call → Prop
  | .receiveAction message nowMs trustedOperator wallMs =>
    ∃ a, Accepts cfg s message nowMs trustedOperator wallMs a ∧ a.action ≠ .kill
  | _ => True

omit [PemKeys] in
theorem Accepts.unique {message : Message} {nowMs wallMs : ℤ} {trustedOperator : Bool}
    {a a' : Command}
    (h : Accepts cfg s message nowMs trustedOperator wallMs a)
    (h' : Accepts cfg s message nowMs trustedOperator wallMs a') : a = a' :=
  Except.ok.inj ((validate_eq_ok.mpr h.1).symm.trans (validate_eq_ok.mpr h'.1))

/-- A call other than `receive_action` leaves the phase. -/
theorem phase_step (h : ∀ message nowMs trustedOperator wallMs,
    c ≠ .receiveAction message nowMs trustedOperator wallMs) :
    (step cfg s c).2.phase = s.phase := by
  cases c with
  | enrollKey keyId pem trustedForRearm actor =>
    rw [step, enrollKey]
    cases enrolment s keyId pem <;> rfl
  | revokeKey keyId actor =>
    rw [step, revokeKey]
    split <;> rfl
  | issueChallenge nonce nowMs lifetimeMs =>
    rw [step, issueChallenge]
    dsimp only
    split <;> rfl
  | receiveAction message nowMs trustedOperator wallMs => exact absurd rfl (h _ _ _ _)

/-- A call leaves the controller armed when it re-arms it, or when it finds it armed and is neither
a kill nor rejected. -/
theorem armed_step : (step cfg s c).2.phase = .armed ↔
    (∃ keyId key, Rearms cfg keyId key s c) ∨ s.phase = .armed ∧ Quiet cfg s c := by
  cases c with
  | receiveAction message nowMs trustedOperator wallMs =>
    obtain ⟨-, ⟨-, htrips, hnot⟩ | ⟨a, haccepts, -, hphase, htrusted⟩⟩ :=
      receiveAction_cases cfg s message nowMs trustedOperator wallMs
    · refine iff_of_false (fun h ↦ nomatch htrips.symm.trans h) ?_
      rintro (⟨_, _, -, a, haccepts, -⟩ | ⟨-, a, haccepts, -⟩)
      · exact hnot a haccepts
      · exact hnot a haccepts
    · have hrearms : (∃ keyId key, Rearms cfg keyId key s
          (.receiveAction message nowMs trustedOperator wallMs)) ↔ a.action = .rearm := by
        constructor
        · rintro ⟨_, _, -, a', haccepts', haction, -⟩
          rw [haccepts.unique haccepts']
          exact haction
        · exact fun haction ↦
          ⟨a.keyId, a.publicKey, htrusted haction, a, haccepts, haction, rfl, rfl,
            haccepts.1.signed⟩
      have hquiet : Quiet cfg s (.receiveAction message nowMs trustedOperator wallMs) ↔
          a.action ≠ .kill := by
        constructor
        · rintro ⟨a', haccepts', haction⟩
          rw [haccepts.unique haccepts']
          exact haction
        · exact fun haction ↦ ⟨a, haccepts, haction⟩
      rw [hrearms, hquiet, step]
      dsimp only
      rw [hphase]
      cases a.action <;> simp [Action.phaseAfter]
  | _ =>
    refine (iff_of_eq (congrArg (· = Phase.armed) (phase_step ?_))).trans ?_
    · rintro _ _ _ _ ⟨⟩
    · refine ⟨fun h ↦ .inr ⟨h, trivial⟩, ?_⟩
      rintro (⟨_, _, h⟩ | ⟨h, -⟩)
      · exact h.elim
      · exact h

/-! ## Each message once -/

/-- The outstanding challenge, and every later one, has a number above `n`. -/
def Newer (n : ℕ) (s : Controller ρ) : Prop :=
  n ≤ s.challengeCounter ∧ ∀ c, s.pending = some c → n < c.challengeId

/-- The outstanding challenge has a number that was given out. -/
def Numbered (s : Controller ρ) : Prop := ∀ c, s.pending = some c →
    c.challengeId ≤ s.challengeCounter

/-- A call takes the outstanding challenge away, leaves it, or replaces it by the next one. -/
theorem challenge_step (cfg : Config) (s : Controller ρ) (c : Call) :
    s.challengeCounter ≤ (step cfg s c).2.challengeCounter ∧
    ∀ ch, (step cfg s c).2.pending = some ch → s.pending = some ch ∨
      ch.challengeId = s.challengeCounter + 1 ∧
        (step cfg s c).2.challengeCounter = s.challengeCounter + 1 := by
  cases c with
  | enrollKey keyId pem trustedForRearm actor =>
    rw [step, enrollKey]
    cases enrolment s keyId pem <;> exact ⟨le_rfl, fun _ ↦ .inl⟩
  | revokeKey keyId actor =>
    rw [step, revokeKey]
    split <;> exact ⟨le_rfl, fun _ ↦ .inl⟩
  | issueChallenge nonce nowMs lifetimeMs =>
    rw [step, issueChallenge]
    dsimp only
    split
    · exact ⟨Nat.le_succ _, fun _ ↦ .inl⟩
    case h_2 ch hch =>
      refine ⟨Nat.le_succ _, ?_⟩
      rintro _ ⟨⟩
      obtain ⟨-, -, -, rfl⟩ := Protocol.challenge_eq_ok.mp hch
      exact .inr ⟨rfl, rfl⟩
  | receiveAction message nowMs trustedOperator wallMs =>
    obtain ⟨hkept, -⟩ := receiveAction_cases cfg s message nowMs trustedOperator wallMs
    refine ⟨hkept.challengeCounter.ge, fun ch hch ↦ ?_⟩
    rw [step] at hch
    cases hkept.pending.symm.trans hch

theorem newer_step {n : ℕ} (s : Controller ρ) (c : Call) (h : Newer n s) :
    Newer n (step cfg s c).2 := by
  obtain ⟨hle, hpending⟩ := challenge_step cfg s c
  refine ⟨h.1.trans hle, fun ch hch ↦ ?_⟩
  rcases hpending ch hch with hch | ⟨hid, -⟩
  · exact h.2 ch hch
  · rw [hid]
    exact Nat.lt_succ_of_le h.1

theorem numbered_step (s : Controller ρ) (c : Call) (h : Numbered s) :
    Numbered (step cfg s c).2 := by
  obtain ⟨hle, hpending⟩ := challenge_step cfg s c
  intro ch hch
  rcases hpending ch hch with hch | ⟨hid, hcounter⟩
  · exact (h ch hch).trans hle
  · rw [hid, hcounter]

/-- The message answers the challenge with the number. -/
def Answers (e : Envelope) (n : ℕ) : Prop :=
  ∃ v, PyValue.at? e.claims "challenge_id" = some v ∧ v.isInt n = true

/-- The second message answers a later challenge than the first. Then the octets that are signed
differ, whatever the order in which the claims are listed. -/
structure Apart [FloatReader] (e e' : Envelope) : Prop where
  challenge : ∃ n n', n < n' ∧ Answers e n ∧ Answers e' n'
  signed : (PyValue.dict e.claims).Proper → (PyValue.dict e'.claims).Proper → ∀ data,
    (PyValue.dict e.claims).canonicalBytes = .ok data →
      (PyValue.dict e'.claims).canonicalBytes ≠ .ok data

omit [Ed25519] [FloatArithmetic] [EventLog ρ] [PyValue.SetOrder] [PemKeys] in
theorem Apart.of_challenge [FloatReader] {e e' : Envelope} {n n' : ℕ} (hlt : n < n')
    (h : Answers e n) (h' : Answers e' n') : Apart e e' := by
  refine ⟨⟨n, n', hlt, h, h'⟩, fun hproper hproper' data hdata hdata' ↦ ?_⟩
  obtain ⟨v, hv, hint⟩ := h
  obtain ⟨v', hv', hint'⟩ := h'
  rw [hproper.isInt_of_canonicalBytes_eq hproper' hdata hdata' hv hv'] at hint
  have heq := PyValue.isInt_unique hint hint'
  omega

/-- Two messages that are accepted in one run are two signed actions. -/
theorem apart_of_accepts [FloatReader] {recorder : ρ} {pre mid : List Call}
    {message message' : Message} {nowMs nowMs' wallMs wallMs' : ℤ}
    {trustedOperator trustedOperator' : Bool} {a a' : Command}
    (h : Accepts cfg (after cfg (.restarted recorder) pre) message nowMs trustedOperator wallMs a)
    (h' : Accepts cfg (after cfg (.restarted recorder)
      (pre ++ .receiveAction message nowMs trustedOperator wallMs :: mid)) message' nowMs'
      trustedOperator' wallMs' a') : Apart a.envelope a'.envelope := by
  have hnumbered : Numbered (after cfg (.restarted recorder) pre) :=
    Transducer.after_invariant (fun _ h ↦ nomatch h) numbered_step
  obtain ⟨hkept, -⟩ := receiveAction_cases cfg (after cfg (.restarted recorder) pre) message nowMs
    trustedOperator wallMs
  -- Once the first has been accepted no challenge is outstanding, and the next has a new number.
  have hnewer : Newer (after cfg (.restarted recorder) pre).challengeCounter
      (after cfg (.restarted recorder)
        (pre ++ .receiveAction message nowMs trustedOperator wallMs :: mid)) := by
    have hafter : after cfg (.restarted recorder)
        (pre ++ .receiveAction message nowMs trustedOperator wallMs :: mid) =
          after cfg (receiveAction cfg (after cfg (.restarted recorder) pre) message nowMs
            trustedOperator wallMs).2 mid := Transducer.after_append
    rw [hafter]
    refine Transducer.after_invariant ⟨hkept.challengeCounter.ge, fun ch hch ↦ ?_⟩ newer_step
    cases hkept.pending.symm.trans hch
  obtain ⟨c, hc, -, hanswers, -⟩ := h.1.challenge
  obtain ⟨c', hc', -, hanswers', -⟩ := h'.1.challenge
  have hlt : c.challengeId < c'.challengeId :=
    Nat.lt_of_le_of_lt (hnumbered c hc) (hnewer.2 c' hc')
  exact .of_challenge hlt hanswers hanswers'

/-! ## What was revoked -/

theorem revoked_step (s : Controller ρ) (c : Call) :
    s.revokedAuthorities <+: (step cfg s c).2.revokedAuthorities ∧
      s.revokedExternalEffects <+: (step cfg s c).2.revokedExternalEffects := by
  cases c with
  | enrollKey keyId pem trustedForRearm actor =>
    rw [step, enrollKey]
    cases enrolment s keyId pem <;> exact ⟨List.prefix_rfl, List.prefix_rfl⟩
  | revokeKey keyId actor =>
    rw [step, revokeKey]
    split <;> exact ⟨List.prefix_rfl, List.prefix_rfl⟩
  | issueChallenge nonce nowMs lifetimeMs =>
    rw [step, issueChallenge]
    dsimp only
    split <;> exact ⟨List.prefix_rfl, List.prefix_rfl⟩
  | receiveAction message nowMs trustedOperator wallMs =>
    obtain ⟨hkept, -⟩ := receiveAction_cases cfg s message nowMs trustedOperator wallMs
    exact ⟨hkept.revokedAuthorities, hkept.revokedExternalEffects⟩

/-! ## Every run -/

/-- What is meant to hold of every run: the controller is armed only since a re-arm message by a key
that was enrolled for it and not revoked, with no kill and no rejected message since; a message that
is rejected trips it; no signed action is accepted twice; and nothing that was revoked is
forgotten. -/
structure Guarded [FloatReader] (cfg : Config) (recorder : ρ) (calls : List Call) : Prop where
  armed : ∀ pre, pre <+: calls → (after cfg (.restarted recorder) pre).phase = .armed →
    ∃ keyId key before c since, pre = before ++ c :: since ∧
      Rearms cfg keyId key (after cfg (.restarted recorder) before) c ∧
      TrustedFor cfg recorder before keyId key ∧
      Transducer.Throughout (step cfg) (Quiet cfg) (after cfg (.restarted recorder) (before ++ [c]))
        since
  raises : ∀ pre, pre <+: calls → ∀ message nowMs trustedOperator wallMs e,
    (receiveAction cfg (after cfg (.restarted recorder) pre) message nowMs trustedOperator
      wallMs).1 = .error e →
    (receiveAction cfg (after cfg (.restarted recorder) pre) message nowMs trustedOperator
      wallMs).2.phase = .tripped
  once :
    ∀ pre message nowMs trustedOperator wallMs mid message' nowMs' trustedOperator' wallMs' a a',
    pre ++ .receiveAction message nowMs trustedOperator wallMs :: mid <+: calls →
    Accepts cfg (after cfg (.restarted recorder) pre) message nowMs trustedOperator wallMs a →
    Accepts cfg (after cfg (.restarted recorder)
      (pre ++ .receiveAction message nowMs trustedOperator wallMs :: mid)) message' nowMs'
      trustedOperator' wallMs' a' → Apart a.envelope a'.envelope
  revoked : ∀ pre c, pre ++ [c] <+: calls →
    (after cfg (.restarted recorder) pre).revokedAuthorities <+:
      (after cfg (.restarted recorder) (pre ++ [c])).revokedAuthorities ∧
    (after cfg (.restarted recorder) pre).revokedExternalEffects <+:
      (after cfg (.restarted recorder) (pre ++ [c])).revokedExternalEffects

/-- If the call re-arms the tripped controller, its key is one of those trusted for it. -/
def RearmTrusted (cfg : Config) (s : Controller ρ) (c : Call) : Prop :=
  s.phase = .tripped → ∀ keyId key, Rearms cfg keyId key s c → keyId ∈ s.trustedRearmKeys

/-- The re-arm message that an armed controller was armed by. -/
theorem exists_rearms {recorder : ρ}
    (hcalls : Transducer.Throughout (step cfg) (RearmTrusted cfg) (.restarted recorder) calls)
    (h : (after cfg (.restarted recorder) calls).phase = .armed) :
    ∃ keyId key before c since, calls = before ++ c :: since ∧
      Rearms cfg keyId key (after cfg (.restarted recorder) before) c ∧
      TrustedFor cfg recorder before keyId key ∧
      Transducer.Throughout (step cfg) (Quiet cfg) (after cfg (.restarted recorder) (before ++ [c]))
        since := by
  have hstep : ∀ (s : Controller ρ) (c : Call), (step cfg s c).2.phase = .armed →
      (s.phase = .tripped ∧ ∃ keyId key, Rearms cfg keyId key s c) ∨
        s.phase = .armed ∧ Quiet cfg s c := by
    intro s c hc
    rcases armed_step.mp hc with hrearms | hquiet
    · cases hphase : s.phase with
      | tripped => exact .inl ⟨rfl, hrearms⟩
      | armed =>
        refine .inr ⟨rfl, ?_⟩
        obtain ⟨keyId, key, hrearms⟩ := hrearms
        cases c with
        | receiveAction message nowMs trustedOperator wallMs =>
          obtain ⟨-, a, haccepts, haction, -⟩ := hrearms
          exact ⟨a, haccepts, by rw [haction]; exact Action.noConfusion⟩
        | _ => exact hrearms.elim
    · exact .inr hquiet
  obtain ⟨before, c, since, rfl, ⟨htripped, keyId, key, hrearms⟩, hquiet⟩ :=
    Transducer.exists_since (Q := fun s : Controller ρ ↦ s.phase = .armed) hstep (by rintro ⟨⟩) h
  refine ⟨keyId, key, before, c, since, rfl, hrearms, ?_, hquiet⟩
  have hmem := Transducer.throughout_iff.mp hcalls before c since rfl htripped keyId key hrearms
  refine trusted_after_iff.mp ⟨hmem, ?_⟩
  cases c with
  | receiveAction message nowMs trustedOperator wallMs =>
    obtain ⟨-, a, haccepts, -, rfl, rfl, -⟩ := hrearms
    exact haccepts.1.publicKey
  | _ => exact hrearms.elim

/-- A run in which a key that is not trusted re-arms the tripped controller leaves it armed by that
key. -/
theorem rearmTrusted_of_armed {recorder : ρ} {pre : List Call}
    (h : (after cfg (.restarted recorder) (pre ++ [c])).phase = .armed →
      ∃ keyId key before c' since, pre ++ [c] = before ++ c' :: since ∧
        Rearms cfg keyId key (after cfg (.restarted recorder) before) c' ∧
        TrustedFor cfg recorder before keyId key ∧
        Transducer.Throughout (step cfg) (Quiet cfg)
          (after cfg (.restarted recorder) (before ++ [c'])) since) :
    RearmTrusted cfg (after cfg (.restarted recorder) pre) c := by
  intro htripped keyId key hrearms
  obtain ⟨keyId', key', before, c', since, hsplit, hrearms', htrusted, hquiet⟩ := h (by
    rw [after_concat]
    exact armed_step.mpr (.inl ⟨keyId, key, hrearms⟩))
  rcases List.eq_nil_or_concat since with rfl | ⟨since, c'', rfl⟩
  · obtain ⟨rfl, hc⟩ := List.append_inj' hsplit rfl
    rw [List.cons.injEq, and_iff_left rfl] at hc
    subst hc
    have hkey : keyId = keyId' := by
      cases c with
      | receiveAction message nowMs trustedOperator wallMs =>
        obtain ⟨-, a, haccepts, -, rfl, -⟩ := hrearms
        obtain ⟨-, a', haccepts', -, rfl, -⟩ := hrearms'
        rw [haccepts.unique haccepts']
      | _ => exact hrearms.elim
    rw [hkey]
    exact (trusted_after_iff.mpr htrusted).1
  -- Otherwise the controller was armed already when the last message came.
  · rw [List.concat_eq_append, ← List.cons_append, ← List.append_assoc] at hsplit
    obtain ⟨rfl, -⟩ := List.append_inj' hsplit rfl
    rw [List.concat_eq_append, Transducer.throughout_append] at hquiet
    have harmed : (after cfg (.restarted recorder) (before ++ [c'])).phase = .armed := by
      rw [after_concat]
      exact armed_step.mpr (.inl ⟨keyId', key', hrearms'⟩)
    have hstays := Transducer.after_of_throughout (Q := fun s : Controller ρ ↦ s.phase = .armed)
      (fun s c h hc ↦ armed_step.mpr (.inr ⟨h, hc⟩)) harmed hquiet.1
    rw [List.append_cons, after, Transducer.after_append] at htripped
    cases htripped.symm.trans hstays

/-- **When only a trusted key re-arms.** What is meant to hold of a run holds exactly when each call
that re-arms the tripped controller is signed by a key trusted for it at that time. -/
theorem guarded_iff [FloatReader] (cfg : Config) (recorder : ρ) (calls : List Call) :
    Guarded cfg recorder calls ↔
    Transducer.Throughout (step cfg) (RearmTrusted cfg) (.restarted recorder) calls := by
  constructor
  · intro h
    refine Transducer.throughout_iff.mpr fun pre c post hsplit ↦ ?_
    refine rearmTrusted_of_armed (h.armed (pre ++ [c]) ?_)
    rw [hsplit, List.append_cons pre c post]
    exact List.prefix_append _ _
  · intro h
    refine ⟨fun pre hpre harmed ↦ ?_, fun pre _ message nowMs trustedOperator wallMs e he ↦ ?_,
      fun pre message nowMs trustedOperator wallMs mid message' nowMs' trustedOperator' wallMs' a a'
        _ ↦ apart_of_accepts, fun pre c _ ↦ ?_⟩
    · obtain ⟨post, rfl⟩ := hpre
      exact exists_rearms (Transducer.throughout_append.mp h).1 harmed
    · obtain ⟨-, ⟨-, htrips, -⟩ | ⟨a, -, hok, -⟩⟩ := receiveAction_cases cfg
        (after cfg (.restarted recorder) pre) message nowMs trustedOperator wallMs
      · exact htrips
      · cases hok.symm.trans he
    · rw [after_concat]
      exact revoked_step _ c

end Guarded

/-! ## A key that is not trusted -/

namespace Sample

open Hardware.Sample (key keyId nonce capabilityKeyId_key)

attribute [local instance] pythonPlatform Broker.Sample.keyedHash

/-- One key can be loaded in the sample. -/
@[reducible] def pemKeys : PemKeys where
  load text :=
    if text = "key" then .ok (some key) else .error ⟨.valueError, "Unable to load PEM file"⟩

/-- There are no floats in the sample. -/
@[reducible] def floats : FloatArithmetic := ⟨fun _ _ ↦ false, fun _ _ ↦ false, fun f _ ↦ f⟩

@[reducible] def floatReader : FloatReader := ⟨fun _ ↦ ⟨true, false, none, "0.5", "0.5"⟩⟩

/-- A recorder that never fails. -/
@[reducible] def eventLog : EventLog Unit := ⟨fun _ _ _ ↦ (.ok (), ())⟩

@[reducible] def setOrder : PyValue.SetOrder := ⟨id, fun _ ↦ .rfl⟩

attribute [local instance] pemKeys floats floatReader eventLog setOrder

def config : Config := ⟨.ofString "stop-1", by decide⟩

/-- The claims of a re-arm message that answers the first challenge. -/
def claims : List (String × Json) := [
  ("schema", .str "event-horizon.emergency-stop.v1"), ("component_id", .str "stop-1"),
  ("challenge_id", .int 1), ("challenge_nonce", .str "00000000000000000000000000000000"),
  ("sequence", .int 1), ("issued_at_ms", .int 0), ("expires_at_ms", .int 1000),
  ("action", .str "rearm"), ("action_payload", .obj []), ("key_id", .str keyId)]

/-- The octets that the owner of the key signs. -/
def data : List ℕ := (PyValue.ofJson (.obj claims)).canonicalBytes.toOption.getD []

/-- The message of the owner of the key. -/
def envelope : Envelope where
  claims := PyValue.ofFields claims
  signature := Broker.spellSignature (Ed25519.sign key data)
  valid := Broker.isSignature_spellSignature (Ed25519.length_sign key _) (Ed25519.sign_lt key data)

theorem verified_envelope : envelope.verified key = true := by
  refine Envelope.verified_sign key data ?_ rfl
  obtain ⟨v, hv⟩ : Canonicalizes 0 (.obj claims) := by decide +kernel
  have hbytes : (PyValue.ofJson (.obj claims)).canonicalBytes = .ok (spell v) := by
    rw [PyValue.canonicalBytes, PyValue.canonicalValue_ofJson, hv]
    rfl
  rw [data, hbytes]
  exact hbytes

/-- The key is enrolled, not as trusted, and answers a challenge. -/
def enrolling : List Call := [
  .enrollKey (.ofString keyId) (.ofString "key") false (.ofString "operator"),
  .issueChallenge nonce 0 1000]

/-- The controller while the challenge is outstanding. -/
def waiting : Controller Unit :=
  { Controller.restarted () with
    challengeCounter := 1
    pending := some ⟨config.componentId, 1, nonce, 0, 1000⟩
    authorizedKeys := [(.ofString keyId, key)] }

theorem enrolment_key :
    enrolment (Controller.restarted ()) (.ofString keyId) (.ofString "key") = .ok key := by
  have hload : loadKey (.ofString keyId) (.ofString "key") = .ok key := by
    rw [loadKey, PyStr.text?_ofString]
    refine bind_eq_ok.mpr ⟨"key", rfl, bind_eq_ok.mpr ⟨some key, rfl, ?_⟩⟩
    exact raiseIf_bind_eq_ok.mpr ⟨not_not.mpr (congrArg _ capabilityKeyId_key), rfl⟩
  rw [enrolment, hload, PyStr.text?_ofString]
  refine raiseIf_bind_eq_ok.mpr ⟨by decide, bind_eq_ok.mpr ⟨key, rfl, ?_⟩⟩
  exact raiseIf_bind_eq_ok.mpr ⟨Bool.false_ne_true, rfl⟩

theorem after_enrolling : after config (.restarted ()) enrolling = waiting := by
  have hchallenge : protocol.challenge config.componentId
      ((Controller.restarted ()).challengeCounter + 1) nonce 0 1000 =
      .ok ⟨config.componentId, 1, nonce, 0, 1000⟩ :=
    Protocol.challenge_eq_ok.mpr ⟨⟨config.componentId_ne, le_rfl⟩, by decide, by decide, rfl⟩
  have henrol : (enrollKey config (.restarted ()) (.ofString keyId) (.ofString "key") false
      (.ofString "operator")).2 =
        { Controller.restarted () with authorizedKeys := [(.ofString keyId, key)] } := by
    rw [enrollKey, enrolment_key]
    rfl
  rw [after, enrolling, Transducer.after_cons, Transducer.after_cons, Transducer.after_nil,
    step, step, henrol, issueChallenge]
  dsimp only
  rw [hchallenge]
  rfl

theorem accepts_rearm : Accepts config waiting (.envelope envelope) 1 true 0
    ⟨envelope, .ofString keyId, key, .int 1, .rearm⟩ := by
  have hclaim : ∀ {name : String} {x : Json}, Json.lookup claims name = some x →
      PyValue.at? envelope.claims name = some (.ofJson x) := by
    intro name x hx
    rw [envelope, PyValue.at?_ofFields, hx]
    rfl
  refine ⟨?_, ?_⟩
  · exact {
      parsed := rfl
      challenge := ⟨_, rfl, by decide, ⟨_, hclaim (x := .int 1) rfl, rfl⟩,
        hclaim (x := .str "00000000000000000000000000000000") rfl⟩
      schema := hclaim (x := .str "event-horizon.emergency-stop.v1") rfl
      componentId := hclaim (x := .str "stop-1") rfl
      keyId := hclaim (x := .str keyId) rfl
      publicKey := Table.get?_cons .. |>.trans (if_pos rfl)
      sequence := ⟨_, hclaim (x := .int 1) rfl, rfl⟩
      fresh := by decide
      issued := ⟨_, .int 0, hclaim (x := .int 0) rfl, rfl, by decide⟩
      expires := ⟨_, .int 1000, hclaim (x := .int 1000) rfl, rfl, by decide⟩
      action := hclaim (x := .str "rearm") rfl
      signed := verified_envelope }
  · have hpayload : (PyValue.read envelope.claims "action_payload" >>= PyValue.dictOf) = .ok [] :=
      PyValue.read_bind_eq_ok.mpr ⟨_, hclaim (x := .obj []) rfl, rfl⟩
    rw [perform]
    dsimp only
    rw [hpayload]
    rfl

end Sample

/-- A key that was enrolled without `trusted_for_rearm` re-arms the controller. -/
theorem not_guarded_untrusted :
    let _ := pythonPlatform
    let _ := Broker.Sample.keyedHash
    let _ := Sample.pemKeys
    let _ := Sample.floats
    let _ := Sample.floatReader
    let _ := Sample.eventLog
    let _ := Sample.setOrder
    ¬Guarded Sample.config ()
      (Sample.enrolling ++ [.receiveAction (.envelope Sample.envelope) 1 true 0]) := by
  intro _ _ _ _ _ _ _ h
  have htrusted := rearmTrusted_of_armed (h.armed _ List.prefix_rfl)
  rw [Sample.after_enrolling] at htrusted
  have hmem := htrusted rfl (.ofString Hardware.Sample.keyId) Hardware.Sample.key
    ⟨rfl, _, Sample.accepts_rearm, rfl, rfl, rfl, Sample.verified_envelope⟩
  exact nomatch hmem

end EventHorizon.FailSafe.Emergency
