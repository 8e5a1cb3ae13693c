import EventHorizon.FailSafe.Hardware
import EventHorizon.Broker.OneUse

/-!
# Missed heartbeats

An armed switch is meant to trip when no heartbeat comes in time. `tick` looks at the clock and
trips it; `receive` does not look, and a heartbeat or a key rotation that comes after the timeout is
accepted while the switch is still armed. `timely_iff` says for every call of every run when the
answer `armed` means that the last heartbeat was in time: exactly when the call is not such a
message.
-/

namespace EventHorizon.FailSafe.Hardware

open Broker (Ed25519)

section Timely

variable [Platform] [Ed25519] [PemKeys]

/-! ## The heartbeats of a run -/

/-- The time of the call, if it is an accepted heartbeat or re-arm. -/
def beatOf (cfg : Config) (s : Simulator) : Call → Option ℤ
  | .receive message nowMs trustedRearm =>
    match validate cfg s message nowMs, (receive cfg s message nowMs trustedRearm).1 with
    | .ok b, .ok _ => if b.action = .heartbeat ∨ b.action = .rearm then some nowMs else none
    | _, _ => none
  | _ => none

/-- The time of the last accepted heartbeat or re-arm of a run. -/
def lastBeat (cfg : Config) : Simulator → List Call → Option ℤ
  | _, [] => none
  | s, c :: calls => (lastBeat cfg (step cfg s c).2 calls).or (beatOf cfg s c)

variable {cfg : Config} {s s' : Simulator} {message : Message} {nowMs : ℤ} {trustedRearm : Bool}
  {b : Beat} {calls : List Call} {c : Call}

theorem lastBeat_append : lastBeat cfg s (calls ++ [c]) =
    (beatOf cfg (after cfg s calls) c).or (lastBeat cfg s calls) := by
  induction calls generalizing s with
  | nil => rw [List.nil_append, lastBeat, lastBeat, lastBeat, Option.none_or, Option.or_none]; rfl
  | cons a calls ih =>
    rw [List.cons_append, lastBeat, ih, lastBeat, Option.or_assoc]
    rfl

theorem beatOf_of_accepts (h : Accepts cfg s message nowMs trustedRearm b s') :
    beatOf cfg s (.receive message nowMs trustedRearm) =
      if b.action = .heartbeat ∨ b.action = .rearm then some nowMs else none := by
  rw [beatOf, validate_eq_ok.mpr h.1, h.receive_eq]

/-- A call that leaves the switch armed is a heartbeat or a re-arm, which is remembered, or it found
the switch armed and changes nothing that is remembered. -/
theorem beat_step (h : (step cfg s c).2.phase = .armed) :
    (∃ t, beatOf cfg s c = some t ∧ (step cfg s c).2.lastValidHeartbeatMs = some t) ∨
    beatOf cfg s c = none ∧ s.phase = .armed ∧
      (step cfg s c).2.lastValidHeartbeatMs = s.lastValidHeartbeatMs := by
  cases c with
  | issueChallenge nonce nowMs lifetimeMs =>
    rw [step, issueChallenge] at h ⊢
    dsimp only at h ⊢
    split at h <;> exact .inr ⟨rfl, h, rfl⟩
  | tick nowMs =>
    by_cases hdue : Overdue cfg s nowMs
    · rw [step, tick, if_pos hdue] at h
      cases h
    · rw [step, tick, if_neg hdue] at h ⊢
      exact .inr ⟨rfl, h, rfl⟩
  | receive message nowMs trustedRearm =>
    rcases receive_cases cfg s message nowMs trustedRearm with ⟨e, s₁, heq, -⟩ |
      ⟨b, s', haccepts, heq⟩
    · rw [step, heq] at h
      cases h
    · rw [beatOf_of_accepts haccepts]
      rw [step, heq] at h ⊢
      rcases perform_eq_ok.mp haccepts.2 with ⟨-, rfl⟩ | ⟨haction, -, rfl⟩ | ⟨haction, hrotate⟩ |
        ⟨haction, rfl⟩
      · cases h
      · exact .inl ⟨nowMs, if_pos (.inr haction), rfl⟩
      · obtain ⟨key, rfl⟩ := exists_key_of_rotate hrotate
        exact .inr ⟨by simp [haction], h, rfl⟩
      · refine .inl ⟨nowMs, if_pos (.inl haction), ?_⟩
        split at h
        case isTrue harmed => rw [if_pos harmed]
        case isFalse hnot => exact absurd h hnot

theorem lastBeat_eq_of_armed {key : Ed25519.PublicKey}
    (h : (after cfg (.enrolled key) calls).phase = .armed) :
    ∃ t, (after cfg (.enrolled key) calls).lastValidHeartbeatMs = some t ∧
      lastBeat cfg (.enrolled key) calls = some t := by
  induction calls using List.reverseRecOn with
  | nil => cases h
  | append_singleton calls c ih =>
    rw [after_concat] at h ⊢
    rw [lastBeat_append]
    rcases beat_step h with ⟨t, hbeat, hvalid⟩ | ⟨hbeat, harmed, hvalid⟩
    · exact ⟨t, hvalid, by rw [hbeat, Option.some_or]⟩
    · obtain ⟨t, ht, hlast⟩ := ih harmed
      exact ⟨t, hvalid.trans ht, by rw [hbeat, Option.none_or, hlast]⟩

/-! ## In time -/

/-- If the call answers `armed`, the last heartbeat or re-arm before it was less than the timeout
ago, unless the call is itself a trusted re-arm. -/
def Timely (cfg : Config) (key : Ed25519.PublicKey) (calls : List Call) (c : Call) : Prop :=
  let s := after cfg (.enrolled key) calls
  let InTime (nowMs : ℤ) : Prop :=
    ∃ t, lastBeat cfg (.enrolled key) calls = some t ∧ nowMs - t < cfg.heartbeatTimeoutMs
  match c with
  | .receive message nowMs trustedRearm =>
    (receive cfg s message nowMs trustedRearm).1 = .ok .armed → InTime nowMs ∨ Rearms cfg s c
  | .tick nowMs => (tick cfg s nowMs).1 = .armed → InTime nowMs
  | .issueChallenge .. => True

/-- The call is not a heartbeat or a rotation that is accepted when the timeout of the armed switch
has run out. -/
def OnTime (cfg : Config) (s : Simulator) : Call → Prop
  | .receive message nowMs trustedRearm => ∀ b s', Accepts cfg s message nowMs trustedRearm b s' →
      b.action = .heartbeat ∨ b.action = .rotateKey → ¬Overdue cfg s nowMs
  | _ => True

theorem not_overdue_iff {key : Ed25519.PublicKey}
    (h : (after cfg (.enrolled key) calls).phase = .armed) :
    ¬Overdue cfg (after cfg (.enrolled key) calls) nowMs ↔
      ∃ t, lastBeat cfg (.enrolled key) calls = some t ∧ nowMs - t < cfg.heartbeatTimeoutMs := by
  obtain ⟨t, hvalid, hlast⟩ := lastBeat_eq_of_armed h
  rw [Overdue, hvalid, hlast]
  constructor
  · intro hdue
    refine ⟨t, rfl, ?_⟩
    by_contra hlt
    exact hdue ⟨h, fun t' ht' ↦ Option.some.inj ht' ▸ not_lt.mp hlt⟩
  · rintro ⟨t', ht', hlt⟩ hdue
    cases ht'
    exact absurd (hdue.2 t rfl) (not_le.mpr hlt)

/-- A call that answers `armed` too late is a late heartbeat or rotation. -/
theorem timely_of_onTime {key : Ed25519.PublicKey}
    (h : OnTime cfg (after cfg (.enrolled key) calls) c) : Timely cfg key calls c := by
  cases c with
  | issueChallenge nonce nowMs lifetimeMs => trivial
  | tick nowMs =>
    intro hanswer
    by_cases hdue : Overdue cfg (after cfg (.enrolled key) calls) nowMs
    · rw [tick, if_pos hdue] at hanswer
      cases hanswer
    · rw [tick, if_neg hdue] at hanswer
      exact (not_overdue_iff hanswer).mp hdue
  | receive message nowMs trustedRearm =>
    intro hanswer
    rcases receive_cases cfg (after cfg (.enrolled key) calls) message nowMs trustedRearm with
      ⟨e, s₁, heq, -⟩ | ⟨b, s', haccepts, heq⟩
    · rw [heq] at hanswer
      cases hanswer
    · rw [heq] at hanswer
      have harmed : s'.phase = .armed := Except.ok.inj hanswer
      rcases perform_eq_ok.mp haccepts.2 with ⟨-, rfl⟩ | ⟨hrearm, htrusted, -⟩ | ⟨hrotate, hs'⟩ |
        ⟨hheartbeat, rfl⟩
      · cases harmed
      · exact .inr ⟨htrusted, b, s', haccepts, hrearm⟩
      · obtain ⟨key', rfl⟩ := exists_key_of_rotate hs'
        exact .inl ((not_overdue_iff harmed).mp (h b _ haccepts (.inr hrotate)))
      · have hbefore : (after cfg (.enrolled key) calls).phase = .armed := by
          split at harmed
          · assumption
          · exact harmed
        exact .inl ((not_overdue_iff hbefore).mp (h b _ haccepts (.inl hheartbeat)))

theorem onTime_of_timely {key : Ed25519.PublicKey} (h : Timely cfg key calls c) :
    OnTime cfg (after cfg (.enrolled key) calls) c := by
  cases c with
  | issueChallenge nonce nowMs lifetimeMs => trivial
  | tick nowMs => trivial
  | receive message nowMs trustedRearm =>
    intro b s' haccepts haction hdue
    have harmed : s'.phase = .armed := by
      rcases perform_eq_ok.mp haccepts.2 with ⟨hkill, -⟩ | ⟨hrearm, -⟩ | ⟨-, hrotate⟩ | ⟨-, rfl⟩
      · rw [hkill] at haction
        simp at haction
      · rw [hrearm] at haction
        simp at haction
      · obtain ⟨key', rfl⟩ := exists_key_of_rotate hrotate
        exact hdue.1
      · rw [if_pos hdue.1]
        exact hdue.1
    rcases h (by rw [haccepts.receive_eq, harmed]) with hin | ⟨-, b', s'', haccepts', hrearm⟩
    · exact (not_overdue_iff hdue.1).mpr hin hdue
    · rw [← haccepts.unique haccepts'] at hrearm
      rw [hrearm] at haction
      simp at haction

/-- **When a missed heartbeat trips the switch.** For every call of every run from enrolment, the
answer `armed` means that the last heartbeat was in time exactly when the call is not a heartbeat or
a rotation that is accepted after the timeout has run out. -/
theorem timely_iff (cfg : Config) (key : Ed25519.PublicKey) (calls : List Call) (c : Call) :
    Timely cfg key calls c ↔ OnTime cfg (after cfg (.enrolled key) calls) c :=
  ⟨onTime_of_timely, timely_of_onTime⟩

end Timely

/-! ## A late heartbeat -/

namespace Sample

attribute [local instance] pythonPlatform Broker.Sample.keyedHash

/-- No key is loaded in the sample. -/
@[reducible] def pemKeys : PemKeys where
  load _ := .error ⟨.valueError, "Unable to load PEM file"⟩

attribute [local instance] pemKeys

def key : List ℕ := [1]

def evidence : String := "eeeeeeeeeeeeeeeeeeeeeeeeeeeeeeeeeeeeeeeeeeeeeeeeeeeeeeeeeeeeeeee"

def config : Config where
  deviceId := .ofString "switch-1"
  expectedPolicyVersion := .ofString "v1"
  expectedEvidenceDigest := evidence
  heartbeatTimeoutMs := 2000
  deviceId_ne := by decide
  policyVersion_ne := by decide
  isDigest_evidence := by decide
  timeout_ge := by decide
  timeout_le := by decide

def nonce : PyStr := .ofString "00000000000000000000000000000000"

/-- The identifier of the key. -/
def keyId : String := "ed25519:4bf5122f344554c53bde2ebb8cd2b7e3"

theorem capabilityKeyId_key : Broker.capabilityKeyId key = keyId := by decide +kernel

/-- The claims of the host in answer to the `n`-th challenge, issued at `nowMs`. -/
def claims (n : ℕ) (nowMs : ℤ) (action : Action) : List (String × Json) := [
  ("schema", .str "event-horizon.hardware-failsafe.v1"), ("device_id", .str "switch-1"),
  ("challenge_id", .int n), ("challenge_nonce", .str "00000000000000000000000000000000"),
  ("sequence", .int n), ("issued_at_ms", .int nowMs), ("expires_at_ms", .int (nowMs + 1000)),
  ("policy_version", .str "v1"), ("evidence_chain_digest", .str evidence),
  ("action", .str action.text), ("action_payload", .obj []), ("key_id", .str keyId)]

/-- The octets that the host signs. -/
def data (n : ℕ) (nowMs : ℤ) (action : Action) : List ℕ :=
  (PyValue.ofJson (.obj (claims n nowMs action))).canonicalBytes.toOption.getD []

/-- The message of the host. -/
def envelope (n : ℕ) (nowMs : ℤ) (action : Action) : Envelope where
  claims := PyValue.ofFields (claims n nowMs action)
  signature := Broker.spellSignature (Ed25519.sign key (data n nowMs action))
  valid := Broker.isSignature_spellSignature (Ed25519.length_sign key _) (Ed25519.sign_lt key _)

theorem verified_envelope {n : ℕ} {nowMs : ℤ} {action : Action}
    (h : Canonicalizes 0 (.obj (claims n nowMs action))) :
    (envelope n nowMs action).verified key = true := by
  refine Envelope.verified_sign key (data n nowMs action) ?_ rfl
  obtain ⟨v, hv⟩ := h
  have hbytes : (PyValue.ofJson (.obj (claims n nowMs action))).canonicalBytes = .ok (spell v) := by
    rw [PyValue.canonicalBytes, PyValue.canonicalValue_ofJson, hv]
    rfl
  rw [data, hbytes]
  exact hbytes

theorem validated {s : Simulator} (n : ℕ) (nowMs : ℤ) {action : Action}
    (h : Canonicalizes 0 (.obj (claims n nowMs action)))
    (hpending : s.pending = some ⟨config.deviceId, n, nonce, nowMs, nowMs + 1000⟩)
    (hkey : s.publicKey = key) (hid : s.activeKeyId = keyId) (hlast : s.lastSequence < n) :
    Validated config s (.envelope (envelope n nowMs action)) (nowMs + 1)
      ⟨envelope n nowMs action, n, action, []⟩ := by
  have hclaim : ∀ {key : String} {x : Json}, Json.lookup (claims n nowMs action) key = some x →
      PyValue.at? (envelope n nowMs action).claims key = some (.ofJson x) := by
    intro key x hx
    rw [envelope, PyValue.at?_ofFields, hx]
    rfl
  exact {
    parsed := rfl
    answers := {
      challenge :=
      ⟨_, hpending, by dsimp only; omega, ⟨_, hclaim (x := .int n) rfl, decide_eq_true rfl⟩,
        hclaim (x := .str "00000000000000000000000000000000") rfl⟩
      keyId := by
        rw [hid]
        exact hclaim (x := .str keyId) rfl
      signed := by
        rw [hkey]
        exact verified_envelope h }
    schema := hclaim (x := .str "event-horizon.hardware-failsafe.v1") rfl
    deviceId := hclaim (x := .str "switch-1") rfl
    isKeyId := by
      rw [hid]
      decide
    sequence := hclaim (x := .int n) rfl
    fresh := hlast
    lifetime := ⟨nowMs, nowMs + 1000, hclaim (x := .int nowMs) rfl,
      hclaim (x := .int (nowMs + 1000)) rfl, by omega, by omega⟩
    policyVersion := hclaim (x := .str "v1") rfl
    evidence := hclaim (x := .str evidence) rfl
    action := hclaim (x := .str action.text) rfl
    payload := hclaim (x := .obj []) rfl }

theorem step_issueChallenge (s : Simulator) (nowMs : ℤ) :
    (step config s (.issueChallenge nonce nowMs 1000)).2 =
      { s with
        challengeCounter := s.challengeCounter + 1
        pending :=
          some ⟨config.deviceId, s.challengeCounter + 1, nonce, nowMs, nowMs + 1000⟩ } := by
  have h : protocol.challenge config.deviceId (s.challengeCounter + 1) nonce nowMs 1000 =
      .ok ⟨config.deviceId, s.challengeCounter + 1, nonce, nowMs, nowMs + 1000⟩ :=
    Protocol.challenge_eq_ok.mpr ⟨⟨config.deviceId_ne, by omega⟩, by decide, by decide, rfl⟩
  rw [step, issueChallenge]
  dsimp only
  rw [h]

/-- The switch after it was armed at time 1. -/
def armed : Simulator :=
  ⟨.armed, 1, some 1, 1, none, key, keyId⟩

/-- Enrolment, a challenge, and the answer that arms the switch. -/
def arming : List Call :=
  [.issueChallenge nonce 0 1000, .receive (.envelope (envelope 1 0 .rearm)) 1 true]

theorem enrolled_eq : Simulator.enrolled key = ⟨.tripped, 0, none, 0, none, key, keyId⟩ := by
  rw [Simulator.enrolled, capabilityKeyId_key]

theorem accepts_rearm :
    Accepts config (after config (.enrolled key) [.issueChallenge nonce 0 1000])
      (.envelope (envelope 1 0 .rearm)) 1 true ⟨envelope 1 0 .rearm, 1, .rearm, []⟩ armed := by
  have hafter : after config (.enrolled key) [.issueChallenge nonce 0 1000] =
      ⟨.tripped, 0, none, 1, some ⟨config.deviceId, 1, nonce, 0, 1000⟩, key, keyId⟩ := by
    rw [enrolled_eq]
    exact step_issueChallenge _ 0
  rw [hafter]
  exact ⟨validated 1 0 (by decide +kernel) rfl rfl rfl (by decide), rfl⟩

theorem after_arming : after config (.enrolled key) arming = armed :=
  accepts_rearm.after_append []

end Sample

theorem stays_tripped_sample :
    let _ := pythonPlatform
    let _ := Broker.Sample.keyedHash
    let _ := Sample.pemKeys
    ∃ pre c post, Sample.arming = pre ++ c :: post ∧
      Rearms Sample.config (after Sample.config (.enrolled Sample.key) pre) c := by
  intro _ _ _
  obtain ⟨pre, c, post, h, hrearms, -⟩ :=
    (stays_tripped Sample.config Sample.key Sample.arming).1 (by rw [Sample.after_arming]; rfl)
  exact ⟨pre, c, post, h, hrearms⟩

/-- A switch armed at time 1 with a timeout of 2 s accepts a heartbeat at time 5001 and stays
armed. -/
theorem not_timely_late_heartbeat :
    let _ := pythonPlatform
    let _ := Broker.Sample.keyedHash
    let _ := Sample.pemKeys
    ¬Timely Sample.config Sample.key (Sample.arming ++ [.issueChallenge Sample.nonce 5000 1000])
      (.receive (.envelope (Sample.envelope 2 5000 .heartbeat)) 5001 false) := by
  intro _ _ _ h
  have hafter : after Sample.config (.enrolled Sample.key)
      (Sample.arming ++ [.issueChallenge Sample.nonce 5000 1000]) =
        { Sample.armed with
          challengeCounter := 2
          pending := some ⟨Sample.config.deviceId, 2, Sample.nonce, 5000, 6000⟩ } := by
    rw [after_concat, Sample.after_arming]
    exact Sample.step_issueChallenge _ 5000
  have hontime := onTime_of_timely h
  rw [hafter] at hontime
  refine hontime _ _ ⟨Sample.validated 2 5000 (by decide +kernel) rfl rfl rfl
    (by decide), rfl⟩ (.inl rfl) ⟨rfl, ?_⟩
  rintro t ⟨⟩
  decide

end EventHorizon.FailSafe.Hardware
