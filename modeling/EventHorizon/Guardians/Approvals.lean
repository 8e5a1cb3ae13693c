import EventHorizon.Canonical.Objects
import EventHorizon.FailSafe.Envelope
import EventHorizon.Guardians.Quorum

/-!
# Signed approvals

`PinnedGuardianVerifier` of `signed_guardian_authority.py`. The signer has pinned a key for each of
the four required guardians. An approval is a payload with a signature; `verifyAll` takes one of
each guardian, all for the same challenge, request and policy, and all in favour.

A payload may be any mapping. Once its canonical bytes are signed, its evidence is read in canonical
form: nothing that is made of it depends on the order of items or on tuples.
-/

namespace EventHorizon.Guardians

open Broker (Ed25519 capabilityKeyId spellSignature)
open FailSafe (isChallengeNonce)

/-- `GuardianAuthorityError`. -/
def refuse (message : String) : Exn := ⟨.guardianAuthorityError, message⟩

/-- `SCHEMA`. -/
def approvalSchema : PyStr := .ofString "event-horizon.guardian-approval.v1"

/-- `DOMAIN`. -/
def approvalDomain : List ℕ := asciiOctets "event-horizon/guardian-approval/v1" ++ [0]

/-- `REQUIRED_PAYLOAD_FIELDS`. -/
def payloadFieldNames : List String := [
  "schema", "challenge", "guardian", "request_digest", "policy_digest", "allowed", "reason",
  "evidence", "key_id"]

/-- An element of `approvals`: a `SignedGuardianApproval`, or something else. -/
inductive Approval
  | signed (payload signature : PyValue)
  | other

section Verifier

variable [Platform] [Ed25519]

/-- `PinnedGuardianVerifier`, as its constructor has checked it. -/
structure PinnedGuardianVerifier where
  keys : Table PyStr Ed25519.PublicKey
  complete : (keys.map Prod.fst).Perm requiredGuardians
  distinct : (keys.map fun r ↦ capabilityKeyId r.2).Nodup

/-- What the signer asks approvals for. -/
structure Subject where
  challenge : PyStr
  requestDigest : String
  policyDigest : String

/-- What `verify_all` keeps of an approval. -/
structure Verified where
  reason : PyStr
  evidence : List (String × Json)

/-- The checks of a payload against what it has to be about. -/
def binds (subject : Subject) (key : Ed25519.PublicKey) (items : List (PyKey × PyValue)) : Bool :=
  (PyValue.item items "schema").isText approvalSchema &&
  (PyValue.item items "challenge").isText subject.challenge &&
  (PyValue.item items "policy_digest").isText (.ofString subject.policyDigest) &&
  (PyValue.item items "request_digest").isText (.ofString subject.requestDigest) &&
  (PyValue.item items "key_id").isText (.ofString (capabilityKeyId key)) &&
  match PyValue.item items "allowed", PyValue.item items "reason",
    PyValue.item items "evidence" with
  | .bool _, .str (_ :: _), .dict _ => true
  | _, _, _ => false

/-- The signature is one of the payload's canonical bytes under the key. -/
def signatureVerifies (key : Ed25519.PublicKey) (payload signature : PyValue) : Bool :=
  match signature with
  | .str s =>
    match s.text? with
    | some t =>
      match Base64.decode base64UrlAlphabet t.toList, payload.canonicalBytes with
      | some raw, .ok data =>
        raw.length = 64 && spellSignature raw = t && Ed25519.verify key raw (approvalDomain ++ data)
      | _, _ => false
    | none => false
  | _ => false

/-- The reason and the evidence of a payload. -/
def verifiedOf (items : List (PyKey × PyValue)) : Except Exn Verified :=
  match PyValue.item items "reason", (PyValue.item items "evidence").canonicalValue 0 with
  | .str reason, .ok (.obj evidence) => .ok ⟨reason, evidence⟩
  | _, _ => .error (refuse "guardian signature verification failed")

/-- One turn of the loop of `verify_all`. -/
def verifyOne (v : PinnedGuardianVerifier) (subject : Subject) (verified : Table PyStr Verified) :
    Approval → Except Exn (Table PyStr Verified)
  | .signed (.dict items) signature => do
    raiseIf (PyValue.hasExactKeys items payloadFieldNames = false)
      (refuse "guardian payload fields invalid")
    match PyValue.item items "guardian" with
    | .str identity =>
      match v.keys.get? identity with
      | some key => do
        raiseIf ((verified.get? identity).isSome = true ∨ binds subject key items = false)
          (refuse "guardian signature identity or binding mismatch")
        raiseIf (signatureVerifies key (.dict items) signature = false)
          (refuse "guardian signature verification failed")
        raiseIf ((PyValue.item items "allowed").truthy = false) (refuse "guardian veto")
        let decision ← verifiedOf items
        return verified.put identity decision
      | none => throw (refuse "guardian signature identity or binding mismatch")
    | _ => throw (refuse "guardian signature identity or binding mismatch")
  | .signed _ _ => .error (refuse "guardian payload fields invalid")
  | .other => .error (refuse "unsigned or malformed guardian approval")

/-- `verify_all`; `approvals` is nothing when it is no list or tuple. -/
def verifyAll (v : PinnedGuardianVerifier) (subject : Subject)
    (approvals : Option (List Approval)) :
    Except Exn (Table PyStr Verified) := do
  raiseIf (isChallengeNonce subject.challenge = false) (refuse "invalid signer-issued challenge")
  match approvals with
  | none => throw (refuse "every required guardian must approve exactly once")
  | some approvals => do
    raiseIf (approvals.length ≠ requiredGuardians.length)
      (refuse "every required guardian must approve exactly once")
    let verified ← approvals.foldlM (verifyOne v subject) []
    raiseIf (¬requiredGuardians ⊆ verified.map Prod.fst) (refuse "missing required guardian")
    return verified

/-! ## What was verified -/

/-- The approval is one of the guardian, for the subject and in favour, signed with the pinned
key. -/
structure Approves (v : PinnedGuardianVerifier) (subject : Subject) (identity : PyStr)
    (items : List (PyKey × PyValue)) (signature : PyValue) : Prop where
  guardian : PyValue.item items "guardian" = .str identity
  challenge : PyValue.item items "challenge" = .str subject.challenge
  requestDigest : PyValue.item items "request_digest" = .str (.ofString subject.requestDigest)
  policyDigest : PyValue.item items "policy_digest" = .str (.ofString subject.policyDigest)
  allowed : PyValue.item items "allowed" = .bool true
  signed : ∃ key raw data, v.keys.get? identity = some key ∧
    signature = .str (.ofString (spellSignature raw)) ∧
    (PyValue.dict items).canonicalBytes = .ok data ∧
    Ed25519.verify key raw (approvalDomain ++ data) = true

variable {v : PinnedGuardianVerifier} {subject : Subject}

theorem exists_of_signatureVerifies {key : Ed25519.PublicKey} {payload signature : PyValue}
    (h : signatureVerifies key payload signature = true) : ∃ raw data,
      signature = .str (.ofString (spellSignature raw)) ∧ payload.canonicalBytes = .ok data ∧
        Ed25519.verify key raw (approvalDomain ++ data) = true := by
  unfold signatureVerifies at h
  split at h
  case h_2 => cases h
  case h_1 s =>
  split at h
  case h_2 => cases h
  case h_1 t ht =>
  split at h
  case h_2 => cases h
  case h_1 raw data _ hdata =>
  rw [Bool.and_eq_true, Bool.and_eq_true, decide_eq_true_iff, decide_eq_true_iff] at h
  obtain ⟨⟨-, hspell⟩, hverify⟩ := h
  refine ⟨raw, data, ?_, hdata, hverify⟩
  rw [hspell, PyStr.eq_ofString_of_text? ht]

/-- One turn adds the decision of one guardian that approves. -/
theorem verifyOne_eq_ok {verified verified' : Table PyStr Verified} {a : Approval}
    (h : verifyOne v subject verified a = .ok verified') :
    ∃ identity items signature decision, a = .signed (.dict items) signature ∧
      Approves v subject identity items signature ∧ verified' = verified.put identity decision := by
  unfold verifyOne at h
  split at h
  case h_2 => cases h
  case h_3 => cases h
  case h_1 items signature =>
  obtain ⟨-, h⟩ := raiseIf_bind_eq_ok.mp h
  split at h
  case h_2 => cases h
  case h_1 identity hidentity =>
  split at h
  case h_2 => cases h
  case h_1 key hkey =>
  obtain ⟨hbinds, h⟩ := raiseIf_bind_eq_ok.mp h
  obtain ⟨hsignature, h⟩ := raiseIf_bind_eq_ok.mp h
  obtain ⟨hallowed, h⟩ := raiseIf_bind_eq_ok.mp h
  obtain ⟨decision, -, h⟩ := bind_eq_ok.mp h
  cases h
  rw [not_or, Bool.not_eq_false] at hbinds
  rw [Bool.not_eq_false] at hsignature hallowed
  have hbound := hbinds.2
  simp only [binds, Bool.and_eq_true, PyValue.isText_iff] at hbound
  obtain ⟨⟨⟨⟨⟨-, hchallenge⟩, hpolicy⟩, hrequest⟩, -⟩, htypes⟩ := hbound
  obtain ⟨raw, data, hspell, hdata, hverify⟩ := exists_of_signatureVerifies hsignature
  refine ⟨identity, items, signature, decision, rfl, ⟨hidentity, hchallenge, hrequest, hpolicy, ?_,
    key, raw, data, hkey, hspell, hdata, hverify⟩, rfl⟩
  split at htypes
  case h_2 => cases htypes
  case h_1 b _ _ _ hb _ _ =>
    rw [hb] at hallowed ⊢
    exact congrArg PyValue.bool hallowed

/-- The guardian has approved in one of the approvals. -/
def HasApproved (v : PinnedGuardianVerifier) (subject : Subject) (approvals : List Approval)
    (identity : PyStr) : Prop :=
  ∃ items signature, .signed (.dict items) signature ∈ approvals ∧
    Approves v subject identity items signature

theorem hasApproved_of_foldlM {approvals : List Approval}
    {verified verified' : Table PyStr Verified}
    (h : approvals.foldlM (verifyOne v subject) verified = .ok verified') {identity : PyStr}
    (hidentity : identity ∈ verified'.map Prod.fst) :
    identity ∈ verified.map Prod.fst ∨ HasApproved v subject approvals identity := by
  induction approvals generalizing verified with
  | nil =>
    cases h
    exact .inl hidentity
  | cons a approvals ih =>
    rw [List.foldlM_cons] at h
    obtain ⟨next, hnext, h⟩ := bind_eq_ok.mp h
    obtain ⟨identity', items, signature, decision, rfl, happroves, rfl⟩ := verifyOne_eq_ok hnext
    rcases ih h with hmem | ⟨items', signature', hmem, h'⟩
    · obtain ⟨r, hr, rfl⟩ := List.mem_map.mp hmem
      rcases Table.mem_of_mem_put hr with rfl | hr
      · exact .inr ⟨items, signature, List.mem_cons_self, happroves⟩
      · exact .inl (List.mem_map_of_mem hr)
    · exact .inr ⟨items', signature', List.mem_cons_of_mem _ hmem, h'⟩

/-- All required guardians have approved, in four approvals. -/
theorem verifyAll_eq_ok {approvals : Option (List Approval)} {verified : Table PyStr Verified}
    (h : verifyAll v subject approvals = .ok verified) :
    ∃ list, approvals = some list ∧ list.length = 4 ∧
      ∀ identity ∈ requiredGuardians, HasApproved v subject list identity := by
  unfold verifyAll at h
  obtain ⟨-, h⟩ := raiseIf_bind_eq_ok.mp h
  cases approvals with
  | none => cases h
  | some list =>
    obtain ⟨hlength, h⟩ := raiseIf_bind_eq_ok.mp h
    obtain ⟨verified', hverified, h⟩ := bind_eq_ok.mp h
    obtain ⟨hall, h⟩ := raiseIf_bind_eq_ok.mp h
    refine ⟨list, rfl, not_not.mp hlength, fun identity hidentity ↦ ?_⟩
    refine (hasApproved_of_foldlM hverified (not_not.mp hall hidentity)).resolve_left ?_
    exact fun hnil ↦ nomatch hnil

end Verifier

end EventHorizon.Guardians
