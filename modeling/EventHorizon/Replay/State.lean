import EventHorizon.Canonical.Json

/-!
# One-use capability consumption

`replay_state.py`: the validation that every store of consumed capabilities makes before it
touches its state.
-/

namespace EventHorizon.Replay

private def malformed (message : String) : Exn := ⟨.capabilityConsumptionError, message⟩

/-- The arguments of a consumption that passed `_validate_transition`. -/
structure Consumption where
  capabilityId : String
  claimsDigest : String
  expiresAt : ℤ
  consumedAt : ℤ
  deriving DecidableEq, Repr

/-- `_validate_transition`, on arguments of any type. -/
def validateTransition (capabilityId claimsDigest expiresAt consumedAt : Json) :
    Except Exn Consumption :=
  match capabilityId with
  | .str token =>
    if !isCapabilityId token then .error (malformed "capability consumption ID is malformed")
    else
      match claimsDigest with
      | .str binding =>
        if !isDigest binding then .error (malformed "capability claims digest is malformed")
        else
          match expiresAt, consumedAt with
          | .int expiry, .int now =>
            if expiry ≤ 0 ∨ now < 0 then
              .error (malformed "capability consumption times are invalid")
            else .ok ⟨token, binding, expiry, now⟩
          | _, _ => .error (malformed "capability consumption times must be integers")
      | _ => .error (malformed "capability claims digest is malformed")
  | _ => .error (malformed "capability consumption ID is malformed")

/-- What validation accepts is what it was given. -/
theorem validateTransition_ok {capabilityId claimsDigest expiresAt consumedAt : Json}
    {c : Consumption}
    (h : validateTransition capabilityId claimsDigest expiresAt consumedAt = .ok c) :
    capabilityId = .str c.capabilityId ∧ claimsDigest = .str c.claimsDigest ∧
      expiresAt = .int c.expiresAt ∧ consumedAt = .int c.consumedAt := by
  unfold validateTransition at h
  split at h
  · split at h
    · cases h
    · split at h
      · split at h
        · cases h
        · split at h
          · split at h
            · cases h
            · cases h
              exact ⟨rfl, rfl, rfl, rfl⟩
          · cases h
      · cases h
  · cases h

end EventHorizon.Replay
