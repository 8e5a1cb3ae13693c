import EventHorizon.Broker.OneUse
import EventHorizon.Guardians.Approvals
import EventHorizon.Library.Transducer

/-!
# Capabilities for signed approvals

`PinnedGuardianCapabilityIssuer` of `signed_guardian_authority.py`. The signer hands out challenges
for requests and takes them back with the approvals of the guardians. What it has handed out is the
state: a row for each challenge, with the digest of the request and the reading of the monotonic
clock until which it lasts. Readings are the elements of a linear order.

`issue` takes the challenge out of the table before it looks at anything else, so that whatever
becomes of the call the challenge is gone. A coordinator may call the two methods in any order and
with any arguments; `gated` is about all of its runs.
-/

namespace EventHorizon.Guardians

open Policy
open Broker (Ed25519 CapabilityBroker IssuedCapability textOf digestOf tierOf? fromAttestation
  capabilityKeyId)
open Decay (payloadAt readInt)
open Transducer (after after_nil after_cons after_append after_concat after_of_throughout
  exists_since Throughout throughout_iff)

/-! ## Trust states from evidence -/

/-- `ProviderTrustState.FIELDS`. -/
def trustFieldNames : List String := [
  "requested_trust", "observed_trust", "provider_attested_trust", "effective_trust", "method",
  "key_id", "attestation_digest", "bundle_digest", "verifier_policy_digest", "verified_at_ms",
  "expires_at_ms"]

section Trust

variable [Platform]

/-- A field that has to be a trust tier. -/
def tierAt (fields : List (String × Json)) (name : String) : Except Exn TrustTier := do
  let value ← textOf (payloadAt fields name) name 32
  match tierOf? value with
  | some tier => return tier
  | none => throw (invalid (name ++ " is not a supported trust tier"))

omit [Platform] in
/-- `_nonnegative` and `_positive` on a value of any type. -/
def integerOf (value : Json) (message : String) (check : ℤ → Except Exn ℤ) : Except Exn ℤ :=
  match value.int? with
  | some n => check n
  | none => .error (invalid message)

/-- `ProviderTrustState.from_dict`. -/
def trustFromDict (fields : List (String × Json)) : Except Exn ProviderTrustState := do
  raiseIf (Json.hasExactFields fields trustFieldNames = false)
    (invalid "provider trust state fields are invalid")
  let requestedTrust ← tierAt fields "requested_trust"
  let observedTrust ← tierAt fields "observed_trust"
  let providerAttestedTrust ← tierAt fields "provider_attested_trust"
  let effectiveTrust ← tierAt fields "effective_trust"
  let method ← textOf (payloadAt fields "method") "attestation method" 64
  let keyId ← textOf (payloadAt fields "key_id") "attestation key ID" 128
  let attestationDigest ← digestOf (payloadAt fields "attestation_digest") "attestation_digest"
  let bundleDigest ← digestOf (payloadAt fields "bundle_digest") "bundle_digest"
  let verifierPolicyDigest ←
    digestOf (payloadAt fields "verifier_policy_digest") "verifier_policy_digest"
  let verifiedAtMs ← integerOf (payloadAt fields "verified_at_ms")
    "trust verification time must be a non-negative bounded integer"
    (nonnegative · "trust verification time" maxSafeInteger)
  let expiresAtMs ← integerOf (payloadAt fields "expires_at_ms")
    "trust expiration time must be a positive bounded integer" (positive · "trust expiration time")
  let state : ProviderTrustState := {
    requestedTrust, observedTrust, providerAttestedTrust, effectiveTrust, method, keyId,
    attestationDigest, bundleDigest, verifierPolicyDigest, verifiedAtMs, expiresAtMs }
  state.postInit
  return state

end Trust

/-! ## The signer -/

/-- `except (TypeError, ValueError, ...) as exc: raise GuardianAuthorityError(message)`. -/
def asAuthorityError {α : Type} (caught : ExnClass → Bool) (message : String) :
    Except Exn α → Except Exn α
  | .ok a => .ok a
  | .error e => if caught e.cls = true then .error (refuse message) else .error e

theorem asAuthorityError_eq_ok {α : Type} {caught : ExnClass → Bool} {message : String}
    {x : Except Exn α} {a : α} : asAuthorityError caught message x = .ok a ↔ x = .ok a := by
  cases x with
  | ok b => rfl
  | error e =>
    rw [asAuthorityError]
    split <;> simp

section Issuer

variable [Platform]

/-- One action of the ceiling against the policy. -/
def checkAction (c : CompiledTaskPolicyCeiling) (p : StaticPolicy) (action : String) :
    Except Exn Unit :=
  match p.operations.get? action with
  | none => .error (refuse "trusted ceiling includes unapproved action")
  | some rule => do
    raiseIf (¬(c.actionResources.get? action).getD [] ⊆ rule.resources)
      (refuse "trusted ceiling widened resources")
    raiseIf (¬(c.argumentConstraints.get? action).getD [] ⊆ rule.allowedArgumentKeys)
      (refuse "trusted ceiling widened arguments")

/-- The limits of `_check_ceiling_against_policy` are exceeded. -/
def exceedsLimits (c : CompiledTaskPolicyCeiling) : Bool :=
  decide (1048576 < c.maximumReadBytes) || decide (1048576 < c.maximumWriteBytes) ||
  decide (256 < c.maximumCalls) || decide (16 < c.maximumParallelism) ||
  decide (300 < c.maximumDurationSeconds)

omit [Platform] in
theorem exceedsLimits_eq_false {c : CompiledTaskPolicyCeiling}
    (hread : c.maximumReadBytes ≤ 1048576)
    (hwrite : c.maximumWriteBytes ≤ 1048576) (hcalls : c.maximumCalls ≤ 256)
    (hparallelism : c.maximumParallelism ≤ 16) (hduration : c.maximumDurationSeconds ≤ 300) :
    exceedsLimits c = false := by
  simp only [exceedsLimits, Bool.or_eq_false_iff, decide_eq_false_iff_not, not_lt]
  exact ⟨⟨⟨⟨hread, hwrite⟩, hcalls⟩, hparallelism⟩, hduration⟩

/-- `_check_ceiling_against_policy`. -/
def checkCeilingAgainstPolicy (c : CompiledTaskPolicyCeiling) (p : StaticPolicy) :
    Except Exn Unit := do
  asAuthorityError (fun cls ↦ cls.isTypeOrValueError || cls == .policyCompilationError)
    "trusted ceiling has invalid integrity" c.verifyIntegrity
  raiseIf (c.policyVersion ≠ p.policyId) (refuse "trusted ceiling policy version mismatch")
  raiseIf (¬c.dataClasses ⊆ ["public", "internal"] ∨ exceedsLimits c = true)
    (refuse "trusted ceiling exceeds signer safety limits")
  c.actions.forM (checkAction c p)
  raiseIf (c.networkDestinations ≠ [] ∧ p.operations.get? "network.connect" = none)
    (refuse "trusted ceiling includes unapproved network access")

variable [Ed25519]

/-- A `PinnedGuardianCapabilityIssuer`, as its constructor has checked it. -/
structure PinnedIssuer (τ : Type) where
  broker : CapabilityBroker
  policy : StaticPolicy
  verifier : PinnedGuardianVerifier
  ceiling : CompiledTaskPolicyCeiling
  /-- `now + self.ttl`. -/
  deadline : τ → τ
  checked : checkCeilingAgainstPolicy ceiling policy = .ok ()

/-- `_pending`. -/
abbrev Pending (τ : Type) := Table PyStr (String × τ)

/-- The arguments of `issue`, with what it reads of the clocks and the source of randomness. The
request is nothing when it is no `ActionRequest`, and the challenge when it is no string. -/
structure Submission (τ : Type) where
  request : Option ActionRequest
  challenge : Option PyStr
  approvals : Option (List Approval)
  now : τ
  tokenHex : String
  issuedAt : ℤ

/-- A call of the signer. -/
inductive Call (τ : Type)
  | newChallenge (request : Option ActionRequest) (nonce : PyStr) (now : τ)
  | issue (x : Submission τ)

/-- The call takes the challenge out of the table. -/
def Call.Takes {τ : Type} (challenge : PyStr) : Call τ → Prop
  | .issue x => x.request.isSome = true ∧ x.challenge = some challenge
  | .newChallenge _ _ _ => False

/-- The nonce that a call draws. -/
def Call.nonce? {τ : Type} : Call τ → Option PyStr
  | .newChallenge (some _) nonce _ => some nonce
  | .newChallenge none _ _ | .issue _ => none

/-- What a call returns or raises. -/
inductive Answer
  | challenge (result : Except Exn PyStr)
  | capability (result : Except Exn IssuedCapability)

namespace PinnedIssuer

variable {τ : Type} [LinearOrder τ] (I : PinnedIssuer τ)

omit [Platform] [Ed25519] in
/-- The rows that `new_challenge` keeps. -/
def prune (pending : Pending τ) (now : τ) : Pending τ := pending.filter fun row ↦ now < row.2.2

/-- `new_challenge`. -/
def newChallenge (pending : Pending τ) (request : Option ActionRequest) (nonce : PyStr) (now : τ) :
    Except Exn PyStr × Pending τ :=
  match request with
  | none => (.error (refuse "invalid signer challenge request"), pending)
  | some request =>
    let kept := prune pending now
    if 4096 ≤ kept.length then (.error (refuse "signer challenge capacity exhausted"), kept)
    else
      match request.requestDigest with
      | .error e => (.error e, kept)
      | .ok digest => (.ok nonce, kept.put nonce (digest, I.deadline now))

/-- The approval that carries the name of a guardian, as `signed_state` has it. -/
def signedState (approvals : List Approval) (identity : PyStr) : Except Exn PyValue :=
  match approvals.find? fun
    | .signed (.dict items) _ => (PyValue.item items "guardian").isText identity
    | _ => false with
  | some (.signed payload signature) => .ok (.ofNamed [
      ("guardian", .str identity), ("signature", signature), ("payload", payload)])
  | _ => .error ⟨.stopIteration, ""⟩

/-- The signed decision of the static policy is the signer's own one. -/
def agrees (decision : Verified) (evaluated : GuardianDecision) : Bool :=
  decide (decision.reason = .ofString "static policy permits exact request") &&
  (Json.obj decision.evidence).pyEq (.obj evaluated.evidence)

/-- The trust state of the evidence and the measurement that comes with it. -/
def attested [Interpreter] (request : ActionRequest) (evidence : List (String × Json)) :
    Except Exn (ProviderTrustState × String) :=
  match payloadAt evidence "device_id", payloadAt evidence "measurement",
    payloadAt evidence "provider_trust_state" with
  | .str deviceId, .str measurement, .obj state => do
    raiseIf (deviceId ≠ request.executorId)
      (refuse "signed executor identity/attestation missing")
    let trust ← asAuthorityError ExnClass.isTypeOrValueError
      "invalid guardian attestation binding" (do
        let trust ← trustFromDict state
        match payloadAt evidence "attestation_result" with
        | .obj observed => do
          let expected ← fromAttestation observed trust.requestedTrust.text
          raiseIf (trust.toDict ≠ expected.toDict)
            (refuse "guardian trust assertion mismatches signed attestation evidence")
          return trust
        | _ => throw (refuse "signed attestation result missing"))
    return (trust, measurement)
  | _, _, _ => .error (refuse "signed executor identity/attestation missing")

variable [Interpreter]

/-- `issue`, once the challenge is known to be one for the request. -/
def authorize (request : ActionRequest) (challenge : PyStr) (requestDigest : String)
    (x : Submission τ) : Except Exn IssuedCapability := do
  let policyDigest ← I.policy.policyDigest
  let decisions ← verifyAll I.verifier ⟨challenge, requestDigest, policyDigest⟩ x.approvals
  let evaluated ← I.policy.evaluate request
  raiseIf (evaluated.allowed = false)
    (refuse "signer local policy independently vetoed request")
  match decisions.get? staticName,
    decisions.get? (.ofString "executor-attestation-guardian") with
  | some static, some executor => do
    raiseIf (agrees static evaluated = false)
      (refuse "guardian's signed static policy disagrees with independent signer policy")
    checkCeilingAgainstPolicy I.ceiling I.policy
    let permitted ← I.ceiling.permits request
    raiseIf (permitted = false) (refuse "trusted ceiling rejects requested operation")
    let (trust, measurement) ← attested request executor.evidence
    let states ← requiredGuardians.mapM (signedState (x.approvals.getD []))
    let state ← (PyValue.list states).digest
    let maxOutputBytes ← readInt evaluated.evidence "max_output_bytes"
    I.broker.issue request {
      deviceId := request.executorId
      executorMeasurement := measurement
      trustState := trust
      compiledCeiling := I.ceiling
      policyDigest := policyDigest
      maxOutputBytes := maxOutputBytes
      guardianStateDigest := state } x.tokenHex x.issuedAt
  | _, _ => throw ⟨.keyError, "guardian"⟩

/-- The comparison of the row of the challenge with the request, and the rest of `issue`. -/
def redeem (request : ActionRequest) (challenge : PyStr) (row : Option (String × τ))
    (x : Submission τ) : Except Exn IssuedCapability :=
  match row with
  | none => .error (refuse "expired/replayed or swapped signer challenge")
  | some (digest, deadline) => do
    let requestDigest ← request.requestDigest
    raiseIf (digest ≠ requestDigest ∨ deadline < x.now)
      (refuse "expired/replayed or swapped signer challenge")
    I.authorize request challenge requestDigest x

/-- `issue`. -/
def issue (pending : Pending τ) (x : Submission τ) : Except Exn IssuedCapability × Pending τ :=
  match x.request, x.challenge with
  | some request, some challenge =>
    (I.redeem request challenge (pending.get? challenge) x,
      pending.filter fun row ↦ row.1 ≠ challenge)
  | _, _ => (.error (refuse "signer request invalid"), pending)

/-- One call. -/
def step (pending : Pending τ) : Call τ → Answer × Pending τ
  | .newChallenge request nonce now =>
    (.challenge (I.newChallenge pending request nonce now).1,
      (I.newChallenge pending request nonce now).2)
  | .issue x => (.capability (I.issue pending x).1, (I.issue pending x).2)

/-! ## What a run can do -/

/-- The signer has made the challenge for the request in one of the calls, it has not expired, and
no call has taken it since. -/
def Challenged (calls : List (Call τ)) (request : ActionRequest) (challenge : PyStr) (now : τ) :
    Prop :=
  ∃ pre request' start mid, calls = pre ++ .newChallenge (some request') challenge start :: mid ∧
    (I.step (after I.step [] pre) (.newChallenge (some request') challenge start)).1 =
      .challenge (.ok challenge) ∧
    request'.requestDigest = request.requestDigest ∧ ¬I.deadline start < now ∧
    ∀ c ∈ mid, ¬c.Takes challenge

/-- What is behind a capability. -/
structure Backed (calls : List (Call τ)) (x : Submission τ) (request : ActionRequest)
    (challenge : PyStr) : Prop where
  request_eq : x.request = some request
  challenge_eq : x.challenge = some challenge
  challenged : I.Challenged calls request challenge x.now
  approved : ∃ requestDigest policyDigest approvals, request.requestDigest = .ok requestDigest ∧
    I.policy.policyDigest = .ok policyDigest ∧ x.approvals = some approvals ∧
    approvals.length = 4 ∧ ∀ identity ∈ requiredGuardians,
      HasApproved I.verifier ⟨challenge, requestDigest, policyDigest⟩ approvals identity
  allowed : I.policy.Allows request
  permitted : I.ceiling.permits request = .ok true

/-- A capability is returned for the arguments after the calls. -/
def Returns (calls : List (Call τ)) (x : Submission τ) : Prop :=
  ∃ capability, (I.step (after I.step [] calls) (.issue x)).1 = .capability (.ok capability)

/-- Challenges gate the capabilities of a run. -/
structure Gated (calls : List (Call τ)) : Prop where
  backed : ∀ pre x post, calls = pre ++ .issue x :: post → I.Returns pre x →
    ∃ request challenge, I.Backed pre x request challenge
  /-- Whatever becomes of the call. -/
  consumed : ∀ pre c post challenge, calls = pre ++ c :: post → c.Takes challenge →
    challenge ∉ (after I.step [] (pre ++ [c])).map Prod.fst
  /-- Until the same nonce is drawn again. -/
  spent : ∀ pre c mid x post challenge, calls = pre ++ c :: (mid ++ .issue x :: post) →
    c.Takes challenge → (∀ d ∈ mid, d.nonce? ≠ some challenge) → x.challenge = some challenge →
    ¬I.Returns (pre ++ c :: mid) x
  distinct : (calls.filterMap Call.nonce?).Nodup → ∀ pre x mid y post,
    calls = pre ++ .issue x :: (mid ++ .issue y :: post) → I.Returns pre x →
    I.Returns (pre ++ .issue x :: mid) y → x.challenge ≠ y.challenge

variable {I} {pending : Pending τ} {c : Call τ} {x : Submission τ} {request : ActionRequest}
  {challenge : PyStr} {requestDigest digest : String} {deadline : τ}
  {capability : IssuedCapability} {calls : List (Call τ)}

/-! ### One call -/

/-- A row of the table is new, or was there and is not taken. -/
theorem mem_step (h : (challenge, digest, deadline) ∈ (I.step pending c).2) :
    (∃ request now, c = .newChallenge (some request) challenge now ∧
      (I.step pending c).1 = .challenge (.ok challenge) ∧ request.requestDigest = .ok digest ∧
      deadline = I.deadline now) ∨
    ((challenge, digest, deadline) ∈ pending ∧ ¬c.Takes challenge) := by
  cases c with
  | newChallenge request? nonce now =>
    have hprune : (challenge, digest, deadline) ∈ prune pending now →
        (challenge, digest, deadline) ∈ pending := fun h ↦ List.mem_of_mem_filter h
    have hkept : ∀ {p : Pending τ}, p = pending ∨ p = prune pending now →
        (challenge, digest, deadline) ∈ p → (challenge, digest, deadline) ∈ pending := by
      rintro p (rfl | rfl) h
      · exact h
      · exact hprune h
    cases request? with
    | none => exact .inr ⟨h, id⟩
    | some request =>
      by_cases hfull : 4096 ≤ (prune pending now).length
      · rw [step, newChallenge, if_pos hfull] at h
        exact .inr ⟨hprune h, id⟩
      cases hdigest : request.requestDigest with
      | error e =>
        rw [step, newChallenge, if_neg hfull, hdigest] at h
        exact .inr ⟨hprune h, id⟩
      | ok d =>
        rw [step, newChallenge, if_neg hfull, hdigest] at h ⊢
        rcases Table.mem_of_mem_put h with hrow | hmem
        · cases hrow
          exact .inl ⟨request, now, rfl, rfl, hdigest, rfl⟩
        · exact .inr ⟨hprune hmem, id⟩
  | issue x =>
    rw [step, issue] at h
    split at h
    case h_1 request taken hrequest htaken =>
      obtain ⟨hmem, hne⟩ := List.mem_filter.mp h
      refine .inr ⟨hmem, fun htakes ↦ of_decide_eq_true hne ?_⟩
      exact Option.some.inj (htakes.2.symm.trans htaken)
    case h_2 hbad =>
      refine .inr ⟨h, fun htakes ↦ ?_⟩
      obtain ⟨request, hrequest⟩ := Option.isSome_iff_exists.mp htakes.1
      exact hbad request challenge hrequest htakes.2

theorem notMem_of_takes (h : c.Takes challenge) :
    challenge ∉ (I.step pending c).2.map Prod.fst := by
  intro hmem
  obtain ⟨⟨_, digest, deadline⟩, hrow, rfl⟩ := List.mem_map.mp hmem
  rcases mem_step hrow with ⟨request, now, rfl, -⟩ | ⟨-, hnot⟩
  · exact h
  · exact hnot h

theorem notMem_step (h : challenge ∉ pending.map Prod.fst) (hc : c.nonce? ≠ some challenge) :
    challenge ∉ (I.step pending c).2.map Prod.fst := by
  intro hmem
  obtain ⟨⟨_, digest, deadline⟩, hrow, rfl⟩ := List.mem_map.mp hmem
  rcases mem_step hrow with ⟨request, now, rfl, -⟩ | ⟨hold, -⟩
  · exact hc rfl
  · exact h (List.mem_map_of_mem hold)

omit [LinearOrder τ] in
theorem of_authorize_eq_ok (h : I.authorize request challenge requestDigest x = .ok capability) :
    (∃ policyDigest approvals, I.policy.policyDigest = .ok policyDigest ∧
      x.approvals = some approvals ∧ approvals.length = 4 ∧ ∀ identity ∈ requiredGuardians,
        HasApproved I.verifier ⟨challenge, requestDigest, policyDigest⟩ approvals identity) ∧
    I.policy.Allows request ∧ I.ceiling.permits request = .ok true := by
  obtain ⟨policyDigest, hpolicy, h⟩ := bind_eq_ok.mp h
  obtain ⟨decisions, hdecisions, h⟩ := bind_eq_ok.mp h
  obtain ⟨evaluated, hevaluated, h⟩ := bind_eq_ok.mp h
  obtain ⟨hallowed, h⟩ := raiseIf_bind_eq_ok.mp h
  split at h
  case h_2 => cases h
  case h_1 static executor _ _ =>
  obtain ⟨-, h⟩ := raiseIf_bind_eq_ok.mp h
  obtain ⟨_, -, h⟩ := bind_eq_ok.mp h
  obtain ⟨permitted, hpermitted, h⟩ := bind_eq_ok.mp h
  obtain ⟨hpermits, h⟩ := raiseIf_bind_eq_ok.mp h
  rw [Bool.not_eq_false] at hallowed hpermits
  subst hpermits
  obtain ⟨approvals, happrovals, hlength, hall⟩ := verifyAll_eq_ok hdecisions
  exact ⟨⟨policyDigest, approvals, hpolicy, happrovals, hlength, hall⟩,
    ⟨evaluated, hevaluated, hallowed⟩, hpermitted⟩

theorem of_issue_eq_ok (h : (I.issue pending x).1 = .ok capability) :
    ∃ request challenge requestDigest deadline, x.request = some request ∧
      x.challenge = some challenge ∧ (challenge, requestDigest, deadline) ∈ pending ∧
      request.requestDigest = .ok requestDigest ∧ ¬deadline < x.now ∧
      I.authorize request challenge requestDigest x = .ok capability := by
  unfold issue at h
  split at h
  case h_2 => cases h
  case h_1 request challenge hrequest hchallenge =>
  unfold redeem at h
  dsimp only at h
  split at h
  case h_1 => cases h
  case h_2 digest deadline hrow =>
  obtain ⟨requestDigest, hdigest, h⟩ := bind_eq_ok.mp h
  obtain ⟨hfresh, h⟩ := raiseIf_bind_eq_ok.mp h
  rw [not_or, not_not] at hfresh
  obtain ⟨rfl, hfresh⟩ := hfresh
  exact ⟨request, challenge, digest, deadline, hrequest, hchallenge,
    Table.mem_of_get? hrow, hdigest, hfresh, h⟩

/-! ### Runs -/

/-- The challenge of a row was made, and has not been taken since. -/
theorem exists_of_mem_after (h : (challenge, digest, deadline) ∈ after I.step [] calls) :
    ∃ pre request start mid, calls = pre ++ .newChallenge (some request) challenge start :: mid ∧
      (I.step (after I.step [] pre) (.newChallenge (some request) challenge start)).1 =
        .challenge (.ok challenge) ∧
      request.requestDigest = .ok digest ∧ deadline = I.deadline start ∧
      ∀ c ∈ mid, ¬c.Takes challenge := by
  have hsince := exists_since (Q := fun p : Pending τ ↦ (challenge, digest, deadline) ∈ p)
    (fun _ _ ↦ mem_step) List.not_mem_nil h
  obtain ⟨pre, c, mid, rfl, ⟨request, start, rfl, hanswer, hdigest, hdeadline⟩, hmid⟩ := hsince
  refine ⟨pre, request, start, mid, rfl, hanswer, hdigest, hdeadline, fun c hc ↦ ?_⟩
  obtain ⟨before, later, rfl⟩ := List.append_of_mem hc
  exact throughout_iff.mp hmid before c later rfl

theorem exists_backed (h : I.Returns calls x) :
    ∃ request challenge, I.Backed calls x request challenge := by
  obtain ⟨capability, h⟩ := h
  obtain ⟨request, challenge, requestDigest, deadline, hrequest, hchallenge, hrow, hdigest, hfresh,
    h⟩ := of_issue_eq_ok (Answer.capability.inj h)
  obtain ⟨⟨policyDigest, approvals, happroved⟩, hallowed, hpermitted⟩ := of_authorize_eq_ok h
  obtain ⟨pre, request', start, mid, rfl, hanswer, hdigest', rfl, hmid⟩ := exists_of_mem_after hrow
  exact ⟨request, challenge, hrequest, hchallenge,
    ⟨pre, request', start, mid, rfl, hanswer, hdigest'.trans hdigest.symm, hfresh, hmid⟩,
    ⟨requestDigest, policyDigest, approvals, hdigest, happroved⟩, hallowed, hpermitted⟩

theorem not_returns_of_takes {pre mid : List (Call τ)} (hc : c.Takes challenge)
    (hmid : ∀ d ∈ mid, d.nonce? ≠ some challenge) (hx : x.challenge = some challenge) :
    ¬I.Returns (pre ++ c :: mid) x := by
  rintro ⟨capability, h⟩
  obtain ⟨-, taken, digest, deadline, -, htaken, hrow, -⟩ :=
    of_issue_eq_ok (Answer.capability.inj h)
  obtain rfl := Option.some.inj (hx.symm.trans htaken)
  rw [after_append, after_cons] at hrow
  have hthroughout : Throughout I.step (fun _ d ↦ d.nonce? ≠ some challenge)
      (I.step (after I.step [] pre) c).2 mid := by
    refine throughout_iff.mpr fun before d later hmem ↦ hmid d ?_
    rw [hmem]
    exact List.mem_append_right _ List.mem_cons_self
  refine after_of_throughout (Q := fun p : Pending τ ↦ challenge ∉ p.map Prod.fst)
    (fun _ _ hp hd ↦ notMem_step hp hd) (notMem_of_takes hc) hthroughout ?_
  exact List.mem_map_of_mem hrow

theorem challenge_ne_of_returns {pre mid post : List (Call τ)} {y : Submission τ}
    (hfresh : ((pre ++ .issue x :: (mid ++ .issue y :: post)).filterMap Call.nonce?).Nodup)
    (hx : I.Returns pre x) (hy : I.Returns (pre ++ .issue x :: mid) y) :
    x.challenge ≠ y.challenge := by
  intro heq
  obtain ⟨request, challenge, hbacked⟩ := exists_backed hx
  obtain ⟨before, request', start, since, rfl, -⟩ := hbacked.challenged
  have htakes : (Call.issue x).Takes challenge :=
    ⟨by rw [hbacked.request_eq]; rfl, hbacked.challenge_eq⟩
  refine not_returns_of_takes htakes (fun d hd hnonce ↦ ?_) (heq ▸ hbacked.challenge_eq) hy
  -- the nonce of the challenge was drawn before it was taken
  rw [List.filterMap_append, List.nodup_append'] at hfresh
  have hbefore : challenge ∈ (before ++ .newChallenge (some request') challenge start ::
      since).filterMap Call.nonce? :=
    List.mem_filterMap.mpr ⟨_, List.mem_append_right _ List.mem_cons_self, rfl⟩
  have hlater : challenge ∈ (.issue x :: (mid ++ .issue y :: post)).filterMap Call.nonce? :=
    List.mem_filterMap.mpr ⟨d, List.mem_cons_of_mem _ (List.mem_append_left _ hd), hnonce⟩
  exact hfresh.2.2 hbefore hlater

variable (I calls)

/-- In every run of the signer, a capability is returned only for a challenge that the signer has
made for the digest of the request, that has not expired and that nothing has taken since, for four
approvals signed by the four pinned guardians for just this challenge, request and policy, and for a
request that both the signer's policy and its ceiling permit. A call of `issue` for a request takes
its challenge whether it fails or not, and while nonces do not repeat no challenge gives two
capabilities. -/
theorem gated : I.Gated calls where
  backed := by
    rintro pre x post rfl h
    exact exists_backed h
  consumed := by
    rintro pre c post challenge rfl hc
    rw [after_concat]
    exact notMem_of_takes hc
  spent := by
    rintro pre c mid x post challenge rfl hc hmid hx
    exact not_returns_of_takes hc hmid hx
  distinct := by
    rintro hfresh pre x mid y post rfl hx hy
    exact challenge_ne_of_returns hfresh hx hy

end PinnedIssuer

end Issuer

/-! ## A call that takes nothing -/

namespace Sample

attribute [local instance] pythonPlatform Broker.Sample.interpreter Broker.Sample.keyedHash

theorem checkCeilingAgainstPolicy_of_compile {C : CompiledTaskPolicyCeiling}
    (hC : (Policy.Sample.compiler ["agent-1"]).compile Policy.Sample.task Policy.Sample.candidate
      [Policy.Sample.reduction] [] 0 = .ok C) :
    checkCeilingAgainstPolicy C (Policy.Sample.policy ["agent-1"]) = .ok () := by
  have hintegrity := (TrustedPolicyCompiler.compiledFor hC).isSealed.integrity
  obtain ⟨hadmissible, -, hfinish⟩ := TrustedPolicyCompiler.compile_eq_ok.mp hC
  obtain ⟨-, cd, rd, x, -, -, -, -, rfl⟩ := TrustedPolicyCompiler.finish_eq_ok.mp hfinish
  have hlimits := (@TrustedPolicyCompiler.ceiling_limits _ [Policy.Sample.reduction] _ _ _ _ _ cd rd
    hadmissible).withDigest (x := x)
  refine bind_eq_ok.mpr ⟨(), asAuthorityError_eq_ok.mpr hintegrity, ?_⟩
  refine raiseIf_bind_eq_ok.mpr ⟨not_not.mpr rfl, ?_⟩
  refine raiseIf_bind_eq_ok.mpr ⟨?_, ?_⟩
  · rintro (h | h)
    · exact h (by decide : ["public"] ⊆ ["public", "internal"])
    · rw [exceedsLimits_eq_false hlimits.maximumReadBytes.2 hlimits.maximumWriteBytes.2
        hlimits.maximumCalls.2 hlimits.maximumParallelism.2 hlimits.maximumDurationSeconds.2] at h
      cases h
  refine forM_bind_eq_ok.mpr ⟨fun action haction ↦ ?_, ?_⟩
  · obtain ⟨rule, hrule, hresources, harguments⟩ := hlimits.rules action haction
    rw [checkAction, show (Policy.Sample.policy ["agent-1"]).operations.get? action = some rule from
      hrule]
    exact raiseIf_bind_eq_ok.mpr ⟨not_not.mpr hresources,
      raiseIf_eq_ok.mpr (not_not.mpr harguments)⟩
  · exact raiseIf_eq_ok.mpr fun h ↦ h.1 (List.subset_nil.mp hlimits.networkDestinations.2)

/-- Four keys. -/
def verifier : PinnedGuardianVerifier where
  keys := requiredGuardians.zip [[1], [2], [3], [4]]
  complete := by decide
  distinct := by decide +kernel

theorem exists_issuer : ∃ I : PinnedIssuer ℕ, I.policy = Policy.Sample.policy ["agent-1"] := by
  obtain ⟨C, hC⟩ := Policy.Sample.exists_compile ["agent-1"]
  exact ⟨{
    broker := Broker.Sample.broker
    policy := Policy.Sample.policy ["agent-1"]
    verifier := verifier
    ceiling := C
    deadline := (· + 15)
    checked := checkCeilingAgainstPolicy_of_compile hC }, rfl⟩

def nonce : PyStr := .ofString "00000000000000000000000000000001"

/-- What is submitted without a request. -/
def submission : Submission ℕ where
  request := none
  challenge := some nonce
  approvals := none
  now := 1
  tokenHex := Broker.Sample.tokenHex
  issuedAt := 0

end Sample

/-- A call without a request fails and leaves its challenge where it was. -/
theorem challenge_not_consumed :
    let _ := pythonPlatform
    let _ := Broker.Sample.interpreter
    let _ := Broker.Sample.keyedHash
    ∃ I : PinnedIssuer ℕ,
      let s := after I.step [] [.newChallenge (some Policy.Sample.request) Sample.nonce 0]
      (∃ e, (I.step s (.issue Sample.submission)).1 = .capability (.error e)) ∧
      Sample.submission.challenge = some Sample.nonce ∧
      Sample.nonce ∈ (I.step s (.issue Sample.submission)).2.map Prod.fst := by
  intro _ _ _
  obtain ⟨I, -⟩ := Sample.exists_issuer
  obtain ⟨digest, hdigest⟩ := Policy.Sample.request.exists_requestDigest.mpr (by decide)
  have hrow : after I.step [] [.newChallenge (some Policy.Sample.request) Sample.nonce 0] =
      [(Sample.nonce, digest, I.deadline 0)] := by
    rw [after_cons, after_nil, PinnedIssuer.step, PinnedIssuer.newChallenge, hdigest]
    rfl
  refine ⟨I, ⟨refuse "signer request invalid", rfl⟩, rfl, ?_⟩
  rw [hrow]
  exact List.mem_singleton.mpr rfl

end EventHorizon.Guardians
