import EventHorizon.Canonical.Python
import EventHorizon.Library.Transducer
import EventHorizon.Replay.State

/-!
# What a store of consumed capabilities does

`CapabilityConsumptionStore` has one operation, `consume`, and several implementations. What they
have in common is told by the history of the calls alone: the first well-formed call for a
capability binds it to its claims and succeeds, later calls with the same claims are repetitions,
and all else is refused (`expected`). `Laws` says this of one call in terms of the bindings that a
state holds; a store with these laws answers every history as expected.
-/

namespace EventHorizon.Replay

/-! ## Arguments of any type -/

/-- The arguments of a call of `consume`. -/
structure Arguments where
  capabilityId : PyValue
  claimsDigest : PyValue
  expiresAt : PyValue
  consumedAt : PyValue

private def malformedArgument (message : String) : Exn := ⟨.capabilityConsumptionError, message⟩

/-- The text of a value that is a string without surrogates. No pattern of the source matches a
surrogate. -/
def textOf : PyValue → Option String
  | .str s => s.text?
  | _ => none

/-- `_validate_transition`, on any objects. -/
def Arguments.validate (a : Arguments) : Except Exn Consumption :=
  match textOf a.capabilityId with
  | none => .error (malformedArgument "capability consumption ID is malformed")
  | some token =>
    if !isCapabilityId token then .error
      (malformedArgument "capability consumption ID is malformed")
    else
      match textOf a.claimsDigest with
      | none => .error (malformedArgument "capability claims digest is malformed")
      | some binding =>
        if !isDigest binding then .error (malformedArgument "capability claims digest is malformed")
        else
          match a.expiresAt, a.consumedAt with
          | .int expiry, .int now =>
            if expiry ≤ 0 ∨ now < 0 then
              .error (malformedArgument "capability consumption times are invalid")
            else .ok ⟨token, binding, expiry, now⟩
          | _, _ => .error (malformedArgument "capability consumption times must be integers")

/-- The integers among the arguments are in the range of the canonical form. -/
structure Arguments.Safe (a : Arguments) : Prop where
  expiresAt : ∀ n, a.expiresAt = .int n → n.natAbs ≤ maxSafeInteger
  consumedAt : ∀ n, a.consumedAt = .int n → n.natAbs ≤ maxSafeInteger

/-- What validation guarantees of a consumption. -/
structure Consumption.Valid (c : Consumption) : Prop where
  capabilityId : isCapabilityId c.capabilityId = true
  claimsDigest : isDigest c.claimsDigest = true
  expiresAt : 0 < c.expiresAt
  consumedAt : 0 ≤ c.consumedAt

/-- Arguments of the right type pass the validation. -/
theorem Consumption.Valid.validateTransition_eq {c : Consumption} (hc : c.Valid) :
    validateTransition (.str c.capabilityId) (.str c.claimsDigest) (.int c.expiresAt)
      (.int c.consumedAt) = .ok c := by
  have hexp := hc.expiresAt
  have hcon := hc.consumedAt
  rw [validateTransition]
  simp only [hc.capabilityId, hc.claimsDigest, Bool.not_true, Bool.false_eq_true, if_false]
  rw [if_neg (by omega)]

theorem textOf_eq_some {v : PyValue} {t : String} (h : textOf v = some t) :
    v = .str (.ofString t) := by
  cases v with
  | str s => exact congrArg _ (PyStr.eq_ofString_of_text? h)
  | _ => cases h

theorem Arguments.validate_eq_ok {a : Arguments} {c : Consumption} (h : a.validate = .ok c) :
    c.Valid ∧ a = ⟨.str (.ofString c.capabilityId), .str (.ofString c.claimsDigest),
      .int c.expiresAt, .int c.consumedAt⟩ := by
  obtain ⟨id, claims, expires, consumed⟩ := a
  rw [validate] at h
  split at h
  · cases h
  case h_2 token htoken =>
  split at h
  · cases h
  case isFalse hid =>
  split at h
  · cases h
  case h_2 binding hbinding =>
  split at h
  · cases h
  case isFalse hdigest =>
  split at h
  case h_2 => cases h
  case h_1 expiry now hexpiry hnow =>
  split at h
  · cases h
  case isFalse htimes =>
  cases h
  rw [not_or, not_le, not_lt] at htimes
  simp only at htoken hbinding hexpiry hnow
  refine ⟨⟨by simpa using hid, by simpa using hdigest, htimes.1, htimes.2⟩, ?_⟩
  rw [textOf_eq_some htoken, textOf_eq_some hbinding, hexpiry, hnow]

/-- Validation raises one class of exception. -/
theorem Arguments.raisesOnly_validate (a : Arguments) :
    RaisesOnly (fun e ↦ e.cls = .capabilityConsumptionError) a.validate := by
  intro e h
  rw [validate] at h
  split at h
  · cases h
    rfl
  split at h
  · cases h
    rfl
  split at h
  · cases h
    rfl
  split at h
  · cases h
    rfl
  split at h
  · split at h
    · cases h
      rfl
    · cases h
  · cases h
    rfl

theorem Arguments.Safe.consumption {a : Arguments} (hsafe : a.Safe) {c : Consumption}
    (h : a.validate = .ok c) :
    c.expiresAt.natAbs ≤ maxSafeInteger ∧ c.consumedAt.natAbs ≤ maxSafeInteger := by
  obtain ⟨-, rfl⟩ := validate_eq_ok h
  exact ⟨hsafe.expiresAt _ rfl, hsafe.consumedAt _ rfl⟩

/-! ## Histories -/

/-- What a call binds its capability to, if the capability is the given one. -/
def Arguments.binding (id : String) (a : Arguments) : Option (String × ℤ) :=
  match a.validate with
  | .ok c => if c.capabilityId = id then some (c.claimsDigest, c.expiresAt) else none
  | .error _ => none

/-- What the first well-formed call for a capability bound it to. -/
def firstUse (history : List Arguments) (id : String) : Option (String × ℤ) :=
  history.findSome? (Arguments.binding id)

/-- The answer to a call after a history: `True` for the first use of a capability, `False` for a
repetition with the same claims and expiry, `CapabilityConsumptionError` for all else. -/
def expected (history : List Arguments) (a : Arguments) : Except ExnClass Bool :=
  match a.validate with
  | .error _ => .error .capabilityConsumptionError
  | .ok c =>
    match firstUse history c.capabilityId with
    | none => .ok true
    | some claim =>
      if claim = (c.claimsDigest, c.expiresAt) then .ok false
      else .error .capabilityConsumptionError

/-- The answers to the calls of a history, each after those before it. -/
def expectedAnswers (calls : List Arguments) : List (Except ExnClass Bool) :=
  (Transducer.run (fun history a ↦ (expected history a, history ++ [a])) [] calls).1

variable {σ : Type}

/-- What a caller can tell of the outcome of a call. -/
def outcome (x : Except Exn Bool) : Except ExnClass Bool := x.mapError Exn.cls

/-- The answers of a store to a list of calls. -/
def answers (consume : σ → Arguments → Except Exn Bool × σ) (s : σ) (calls : List Arguments) :
    List (Except ExnClass Bool) :=
  (Transducer.run (fun s a ↦ (outcome (consume s a).1, (consume s a).2)) s calls).1

/-- The state of a store after a list of calls. -/
def after (consume : σ → Arguments → Except Exn Bool × σ) (s : σ) (calls : List Arguments) : σ :=
  (Transducer.run (fun s a ↦ (outcome (consume s a).1, (consume s a).2)) s calls).2

/-! ## Laws -/

/-- One call of a store, in a state that satisfies its invariant. -/
structure Laws (consume : σ → Arguments → Except Exn Bool × σ) (I : σ → Prop)
    (bindings : σ → String → Option (String × ℤ)) : Prop where
  refused : ∀ {s a e}, I s → a.Safe → a.validate = .error e →
    outcome (consume s a).1 = .error .capabilityConsumptionError ∧ I (consume s a).2 ∧
      bindings (consume s a).2 = bindings s
  fresh : ∀ {s a c}, I s → a.Safe → a.validate = .ok c → bindings s c.capabilityId = none →
    outcome (consume s a).1 = .ok true ∧ I (consume s a).2 ∧ bindings (consume s a).2 =
      Function.update (bindings s) c.capabilityId (some (c.claimsDigest, c.expiresAt))
  repeated : ∀ {s a c}, I s → a.Safe → a.validate = .ok c →
    bindings s c.capabilityId = some (c.claimsDigest, c.expiresAt) →
    outcome (consume s a).1 = .ok false ∧ I (consume s a).2 ∧
      bindings (consume s a).2 = bindings s
  collided : ∀ {s a c claim}, I s → a.Safe → a.validate = .ok c →
    bindings s c.capabilityId = some claim → claim ≠ (c.claimsDigest, c.expiresAt) →
    outcome (consume s a).1 = .error .capabilityConsumptionError ∧ I (consume s a).2 ∧
      bindings (consume s a).2 = bindings s

theorem firstUse_append (history : List Arguments) (a : Arguments) (id : String) :
    firstUse (history ++ [a]) id = (firstUse history id).or (a.binding id) := by
  rw [firstUse, firstUse, List.findSome?_append, List.findSome?_singleton]

namespace Laws

variable {consume : σ → Arguments → Except Exn Bool × σ} {I : σ → Prop}
  {bindings : σ → String → Option (String × ℤ)}

/-- A store with the laws follows the history of its calls. -/
theorem simulates (H : Laws consume I bindings) :
    Transducer.Simulates (fun s a ↦ (outcome (consume s a).1, (consume s a).2))
      (fun history a ↦ (expected history a, history ++ [a])) Arguments.Safe
      fun s history ↦ I s ∧ bindings s = firstUse history := by
  rintro s history a hsafe ⟨hI, hbindings⟩
  have happend : ∀ id, firstUse (history ++ [a]) id = (bindings s id).or (a.binding id) := by
    intro id
    rw [firstUse_append, hbindings]
  simp only [expected]
  cases hvalid : a.validate with
  | error e =>
    obtain ⟨hanswer, hnext, hkept⟩ := H.refused hI hsafe hvalid
    refine ⟨hanswer, hnext, funext fun id ↦ ?_⟩
    rw [hkept, happend, Arguments.binding, hvalid, Option.or_none]
  | ok c =>
    have hbinding : ∀ id, a.binding id =
        if c.capabilityId = id then some (c.claimsDigest, c.expiresAt) else none := by
      intro id
      rw [Arguments.binding, hvalid]
    rw [← hbindings]
    cases hfirst : bindings s c.capabilityId with
    | none =>
      obtain ⟨hanswer, hnext, hkept⟩ := H.fresh hI hsafe hvalid hfirst
      simp only [hfirst]
      refine ⟨hanswer, hnext, funext fun id ↦ ?_⟩
      rw [hkept, happend, hbinding]
      by_cases hid : c.capabilityId = id
      · subst hid
        rw [Function.update_self, hfirst, if_pos rfl, Option.none_or]
      · rw [Function.update_of_ne (Ne.symm hid), if_neg hid, Option.or_none]
    | some claim =>
      have hkeep : ∀ id, (bindings s id).or (a.binding id) = bindings s id := by
        intro id
        rw [hbinding]
        by_cases hid : c.capabilityId = id
        · subst hid
          rw [hfirst, Option.some_or]
        · rw [if_neg hid, Option.or_none]
      by_cases hclaim : claim = (c.claimsDigest, c.expiresAt)
      · obtain ⟨hanswer, hnext, hkept⟩ := H.repeated hI hsafe hvalid (hfirst.trans (by rw [hclaim]))
        simp only [hfirst, hclaim, if_true]
        exact ⟨hanswer, hnext, funext fun id ↦ by rw [hkept, happend, hkeep]⟩
      · obtain ⟨hanswer, hnext, hkept⟩ := H.collided hI hsafe hvalid hfirst hclaim
        simp only [hfirst, if_neg hclaim]
        exact ⟨hanswer, hnext, funext fun id ↦ by rw [hkept, happend, hkeep]⟩

/-- A call that raises changes no binding. -/
theorem unchanged (H : Laws consume I bindings) {s : σ} {a : Arguments} (hI : I s) (hsafe : a.Safe)
    {e : Exn} (h : (consume s a).1 = .error e) : bindings (consume s a).2 = bindings s := by
  have hnot : ∀ b, outcome (consume s a).1 ≠ .ok b := by
    intro b hb
    rw [h] at hb
    cases hb
  cases hvalid : a.validate with
  | error e' => exact (H.refused hI hsafe hvalid).2.2
  | ok c =>
    cases hfirst : bindings s c.capabilityId with
    | none => exact absurd (H.fresh hI hsafe hvalid hfirst).1 (hnot true)
    | some claim =>
      by_cases hclaim : claim = (c.claimsDigest, c.expiresAt)
      · exact absurd (H.repeated hI hsafe hvalid (hfirst.trans (by rw [hclaim]))).1 (hnot false)
      · exact (H.collided hI hsafe hvalid hfirst hclaim).2.2

end Laws

/-- The store answers every list of calls as expected, and no call that raises changes a
binding. -/
structure Conforms (consume : σ → Arguments → Except Exn Bool × σ)
    (bindings : σ → String → Option (String × ℤ)) (s : σ) : Prop where
  answers : ∀ calls, (∀ a ∈ calls, a.Safe) → answers consume s calls = expectedAnswers calls
  unchanged : ∀ calls a e, (∀ b ∈ calls, b.Safe) → a.Safe →
    (consume (after consume s calls) a).1 = .error e →
    bindings (after consume s (calls ++ [a])) = bindings (after consume s calls)

theorem Laws.conforms {consume : σ → Arguments → Except Exn Bool × σ} {I : σ → Prop}
    {bindings : σ → String → Option (String × ℤ)} (H : Laws consume I bindings) {s : σ} (hI : I s)
    (hempty : bindings s = fun _ ↦ none) : Conforms consume bindings s where
  answers calls hsafe :=
    (H.simulates.run hsafe (s := s) (t := []) ⟨hI, hempty.trans (funext fun _ ↦ rfl)⟩).1
  unchanged calls a e hsafe ha he := by
    have hafter := (H.simulates.run hsafe (s := s) (t := [])
      ⟨hI, hempty.trans (funext fun _ ↦ rfl)⟩).2.1
    rw [after, Transducer.run_append]
    exact H.unchanged hafter ha he

end EventHorizon.Replay
