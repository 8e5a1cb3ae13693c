import EventHorizon.Evidence.Contract
import EventHorizon.Library.History

/-!
# One effect story

What a supervisor relies on when it signs the events that a contract has accepted: authorizations
belong to the exchange in progress, there is one dispatch and one completion of it, and each fenced
closing closes an authorization of its own.

The three flags of the contract keep these promises for one family of events. Where the families mix
they do not: a `fenced.authorized` takes back that the execution is finished, and a fenced closing
asks for an authorization without asking of which family. Two more events slip through: with no
capability in the exchange, or no exchange, `None` is the capability that an authorization has to
name; and an error class without a hash makes a denial fail with a `TypeError`. `Breach` says of
each of the four what is submitted and how the flags stand, then and before. A run tells one story
exactly when none of the four is submitted in it.
-/

namespace EventHorizon.Evidence

open PyValue (item hasExactKeys)

/-- A call of a contract. -/
inductive Call
  | beginRequest (message : PyValue)
  | endRequest
  | check (event : PyValue)

/-- A contract, the message of the exchange in progress, and the events it has accepted so far. -/
structure Session where
  contract : GatewayEventContract
  exchange : Option PyValue
  accepted : List (EventKind × List (PyKey × PyValue))

namespace Session

/-- The contract passes the event. -/
def Accepts (s : Session) (event : PyValue) : Prop := (s.contract.check event).1 = .ok ()

def step (s : Session) : Call → Session
  | .beginRequest message =>
    match s.contract.beginRequest message with
    | (.ok _, c) => { s with contract := c, exchange := some message }
    | (.error _, c) => { s with contract := c }
  | .endRequest => { s with contract := s.contract.endRequest, exchange := none }
  | .check event =>
    match s.contract.check event with
    | (.ok _, c) => { s with contract := c, accepted := s.accepted ++ (eventOf event).toList }
    | (.error _, c) => { s with contract := c }

/-- The session after a sequence of calls of a new contract. -/
def run (c : GatewayEventContract) (calls : List Call) : Session := calls.foldl step ⟨c, none, []⟩

end Session

/-- What holds of a check in the middle of a run. -/
def AtCheck (c : GatewayEventContract) (P : Session → PyValue → Prop) (before : List Call) :
    Call → Prop
  | .check event => P (Session.run c before) event
  | _ => True

/-- An authorization names the capability of the exchange in progress. -/
def NamesExchange (s : Session) (event : PyValue) : Prop :=
  s.Accepts event → ∀ k p, eventOf event = some (k, p) → k.isAuthorization = true →
    ∃ message cap, s.exchange = some message ∧ claimOf message = some cap ∧
      item p "capability_id" = .str cap

/-- An event that is not accepted raises `GatewayEvidenceContractError` and changes nothing. -/
def Rejects (s : Session) (event : PyValue) : Prop :=
  ∀ e, (s.contract.check event).1 = .error e →
    e.cls = .gatewayEvidenceContractError ∧ (s.contract.check event).2 = s.contract

/-- There is a fenced authorization that no fenced event has closed. -/
def HasOpen (accepted : List (EventKind × List (PyKey × PyValue))) : Prop :=
  ∃ before a after, accepted = before ++ a :: after ∧ a.1 = .fencedAuthorized ∧
    ∀ f ∈ after, f.1.isClosing = false

/-- What a run of a contract promises. -/
structure OneStory (c : GatewayEventContract) (calls : List Call) : Prop where
  /-- Authorizations belong to the exchange in progress. -/
  authorizations : Each (AtCheck c NamesExchange) calls
  /-- At most one dispatch is accepted. -/
  oneDispatch : ((Session.run c calls).accepted.filter fun f ↦ f.1 = .dispatch).length ≤ 1
  /-- It comes after an authorization. -/
  dispatchAuthorized :
    Each (PrecededBy (fun f ↦ f.1 = .dispatch) fun f ↦ f.1.isAuthorization = true)
      (Session.run c calls).accepted
  /-- At most one completion is accepted. -/
  oneCompletion : ((Session.run c calls).accepted.filter fun f ↦ f.1.isCompletion).length ≤ 1
  /-- It comes after the dispatch. -/
  completionDispatched : Each (PrecededBy (fun f ↦ f.1.isCompletion = true) fun f ↦ f.1 = .dispatch)
    (Session.run c calls).accepted
  /-- Each fenced closing closes an authorization that is open: no other closing has closed it. -/
  closings :
    Each (fun before f ↦ f.1.isClosing = true → HasOpen before) (Session.run c calls).accepted
  /-- The confirmations name one original capability. -/
  oneOriginal : ∃ original, ∀ f ∈ (Session.run c calls).accepted, f.1 = .fencedConfirmed →
    item f.2 "original_capability_id" = .str original
  /-- What is rejected is rejected with the error of the contract, and changes nothing. -/
  rejections : Each (AtCheck c Rejects) calls

/-! ## What a check does -/

namespace GatewayEventContract

variable {c : GatewayEventContract} {event : PyValue} {k : EventKind} {p : List (PyKey × PyValue)}

/-- Fenced events need a pinned recipient. -/
def Admits (c : GatewayEventContract) (k : EventKind) : Prop :=
  k.isFenced = true → c.fencedRecipientId ≠ none

theorem check_of_fits (he : eventOf event = some (k, p)) (hadmits : c.Admits k)
    (hhash : ¬c.Unhashable p k) (hfits : c.fits p k = true) :
    c.check event = (.ok (), c.next k) := by
  obtain ⟨⟨kind, payload⟩, henv, hkind⟩ := Option.bind_eq_some_iff.mp he
  obtain ⟨k', hk, hkp⟩ := Option.bind_eq_some_iff.mp hkind
  cases hkp
  rw [check, henv]
  simp only [hk]
  rw [if_neg fun h ↦ hadmits h.1 h.2, if_neg hhash, if_pos hfits]

theorem check_of_unhashable (he : eventOf event = some (k, p)) (h : c.Unhashable p k) :
    c.check event = (.error ⟨.typeError, "unhashable type"⟩, c) := by
  obtain ⟨⟨kind, payload⟩, henv, hkind⟩ := Option.bind_eq_some_iff.mp he
  obtain ⟨k', hk, hkp⟩ := Option.bind_eq_some_iff.mp hkind
  cases hkp
  rw [check, henv]
  simp only [hk]
  have hfenced : ¬(k.isFenced = true ∧ c.fencedRecipientId = none) := by
    rw [h.1]
    exact fun h' ↦ nomatch h'.1
  rw [if_neg hfenced, if_pos h]

/-- A check accepts an event of the allowlist and makes the assignments of its type, or raises and
assigns nothing. -/
theorem check_cases (c : GatewayEventContract) (event : PyValue) :
    (∃ k p, eventOf event = some (k, p) ∧ c.Admits k ∧ ¬c.Unhashable p k ∧ c.fits p k = true ∧
      c.check event = (.ok (), c.next k)) ∨
    ∃ e, c.check event = (.error e, c) ∧ (e.cls = .gatewayEvidenceContractError ∨
      ∃ k p, eventOf event = some (k, p) ∧ c.Unhashable p k) := by
  have hreject : ∀ message, c.check event = (.error ⟨.gatewayEvidenceContractError, message⟩, c) →
      ∃ e, c.check event = (.error e, c) ∧ (e.cls = .gatewayEvidenceContractError ∨
        ∃ k p, eventOf event = some (k, p) ∧ c.Unhashable p k) := fun _ h ↦ ⟨_, h, .inl rfl⟩
  cases henv : envelope event with
  | none => exact .inr (hreject _ (by rw [check, henv]))
  | some ep =>
    obtain ⟨kind, payload⟩ := ep
    cases hk : kindOf kind with
    | none =>
      refine .inr (hreject "gateway event type not on allowlist" ?_)
      rw [check, henv]
      simp only [hk]
    | some k =>
      have he : eventOf event = some (k, payload) := by
        rw [eventOf, henv]
        simp only [Option.bind_eq_bind, Option.bind_some, hk]
        rfl
      by_cases hadmits : c.Admits k
      swap
      · refine .inr (hreject "gateway event type not on allowlist" ?_)
        rw [Admits, Classical.not_imp, not_not] at hadmits
        rw [check, henv]
        simp only [hk]
        rw [if_pos hadmits]
      by_cases hhash : c.Unhashable payload k
      · exact .inr ⟨_, check_of_unhashable he hhash, .inr ⟨k, payload, he, hhash⟩⟩
      cases hfits : c.fits payload k with
      | true =>
        exact .inl ⟨k, payload, he, hadmits, hhash, hfits, check_of_fits he hadmits hhash hfits⟩
      | false =>
        refine .inr (hreject (c.rejection payload k) ?_)
        rw [check, henv]
        simp only [hk]
        rw [if_neg fun h ↦ hadmits h.1 h.2, if_neg hhash, hfits, if_neg Bool.false_ne_true]

/-! ### What is assigned -/

@[simp] theorem next_currentCapability : (c.next k).currentCapability = c.currentCapability := by
  cases k <;> rfl

@[simp] theorem next_authorized :
    (c.next k).authorized = (c.authorized || k.isAuthorization) := by
  cases k <;> simp [next, EventKind.isAuthorization]

@[simp] theorem next_dispatched :
    (c.next k).dispatched = (c.dispatched || decide (k = .dispatch)) := by
  cases k <;> simp [next]

/-- The events after which a story is open are those that left it open, and fenced
authorizations. -/
theorem next_finished (h : (c.next k).finished = false) (hk : k ≠ .fencedAuthorized) :
    c.finished = false ∧ k.isClosing = false ∧ k.isCompletion = false := by
  cases k with
  | fencedAuthorized => exact absurd rfl hk
  | denied | authorized | dispatch => exact ⟨h, rfl, rfl⟩
  | fencedIndeterminate | fencedConfirmed | completed | indeterminate => cases h

theorem next_originalCapabilityId {original : PyStr} (h : c.originalCapabilityId = some original) :
    (c.next k).originalCapabilityId = some original := by
  cases k with
  | fencedConfirmed =>
    rw [next, h]
    rfl
  | _ => exact h

/-! ### What a payload that fits says -/

theorem fits_authorization (hk : k.isAuthorization = true) (h : c.fits p k = true) :
    ¬(c.authorized = true ∧ c.finished = false) ∧
      isOptional c.currentCapability (item p "capability_id") = true := by
  have hfits : c.authorizationFits p = true := by
    cases k with
    | fencedAuthorized | authorized => exact h
    | _ => cases hk
  simp only [authorizationFits, Bool.and_eq_true, Bool.not_eq_true', Bool.and_eq_false_iff,
    Bool.not_eq_false'] at hfits
  obtain ⟨⟨⟨⟨⟨-, hopen⟩, -⟩, -⟩, hcap⟩, -⟩ := hfits
  refine ⟨fun h ↦ ?_, hcap⟩
  rcases hopen with ha | hf
  · rw [ha] at h
    cases h.1
  · rw [hf] at h
    cases h.2

theorem fits_dispatch (h : c.fits p .dispatch = true) :
    c.authorized = true ∧ c.dispatched = false ∧ c.finished = false := by
  simp only [fits, Bool.and_eq_true, Bool.not_eq_true'] at h
  obtain ⟨⟨⟨⟨⟨⟨-, ha⟩, hd⟩, hf⟩, -⟩, -⟩, -⟩ := h
  exact ⟨ha, hd, hf⟩

theorem fits_completion (hk : k.isCompletion = true) (h : c.fits p k = true) :
    c.dispatched = true ∧ c.finished = false := by
  cases k with
  | completed =>
    simp only [fits, Bool.and_eq_true, Bool.not_eq_true'] at h
    obtain ⟨⟨⟨⟨⟨⟨⟨-, hd⟩, hf⟩, -⟩, -⟩, -⟩, -⟩, -⟩ := h
    exact ⟨hd, hf⟩
  | indeterminate =>
    simp only [fits, Bool.and_eq_true, Bool.not_eq_true'] at h
    obtain ⟨⟨⟨⟨-, hd⟩, hf⟩, -⟩, -⟩ := h
    exact ⟨hd, hf⟩
  | _ => cases hk

theorem fits_confirmed (h : c.fits p .fencedConfirmed = true) :
    item p "original_capability_id" = .str (c.originalCapabilityId.getD c.capabilityId) := by
  simp only [fits, Bool.and_eq_true, provenanceFits] at h
  cases horiginal : c.originalCapabilityId with
  | none =>
    rw [horiginal] at h
    simp only [Bool.and_eq_true] at h
    exact PyValue.isText_iff.mp h.2.1.1
  | some original =>
    rw [horiginal] at h
    simp only [Bool.and_eq_true] at h
    exact PyValue.isText_iff.mp h.2.1

end GatewayEventContract

/-! ## Every run -/

section Runs

variable {s : Session} {event : PyValue} {k : EventKind} {p : List (PyKey × PyValue)}
  {c : GatewayEventContract} {calls : List Call} {call : Call}

theorem Session.run_concat : Session.run c (calls ++ [call]) = (Session.run c calls).step call :=
  List.foldl_concat ..

/-- How the flags of a contract go with the events it has accepted. -/
structure Kept (s : Session) : Prop where
  current : s.contract.currentCapability = s.exchange.bind claimOf
  authorized : s.contract.authorized = true ↔ ∃ f ∈ s.accepted, f.1.isAuthorization = true
  dispatched : s.contract.dispatched = true ↔ ∃ f ∈ s.accepted, f.1 = .dispatch
  oneDispatch : (s.accepted.filter fun f ↦ f.1 = .dispatch).length ≤ 1
  dispatchAuthorized :
    Each (PrecededBy (fun f ↦ f.1 = .dispatch) fun f ↦ f.1.isAuthorization = true) s.accepted
  completionDispatched : Each (PrecededBy (fun f ↦ f.1.isCompletion = true) fun f ↦ f.1 = .dispatch)
    s.accepted
  /-- After a fenced authorization an open story is one that it has opened. -/
  hasOpen : (∃ f ∈ s.accepted, f.1 = .fencedAuthorized) → s.contract.finished = false →
    HasOpen s.accepted
  originals : ∀ f ∈ s.accepted, f.1 = .fencedConfirmed → ∃ original,
    s.contract.originalCapabilityId = some original ∧
      item f.2 "original_capability_id" = .str original

theorem HasOpen.concat {accepted : List (EventKind × List (PyKey × PyValue))}
    (h : HasOpen accepted) {f : EventKind × List (PyKey × PyValue)} (hf : f.1.isClosing = false) :
    HasOpen (accepted ++ [f]) := by
  obtain ⟨before, a, after, rfl, ha, hafter⟩ := h
  refine ⟨before, a, after ++ [f], by simp, ha, fun g hg ↦ ?_⟩
  rcases List.mem_append.mp hg with hg | hg
  · exact hafter g hg
  · rw [List.mem_singleton.mp hg]
    exact hf

theorem kept_start (hauthorized : c.authorized = false) (hdispatched : c.dispatched = false)
    (hcurrent : c.currentCapability = none) : Kept ⟨c, none, []⟩ where
  current := hcurrent
  authorized := by simp [hauthorized]
  dispatched := by simp [hdispatched]
  oneDispatch := Nat.zero_le 1
  dispatchAuthorized := each_nil
  completionDispatched := each_nil
  hasOpen := by simp
  originals := by simp

/-- Whether an event of a kind is among those accepted, after one more. -/
theorem exists_concat (P : EventKind → Prop)
    {accepted : List (EventKind × List (PyKey × PyValue))} :
    (∃ f ∈ accepted ++ [(k, p)], P f.1) ↔ (∃ f ∈ accepted, P f.1) ∨ P k := by
  simp only [List.mem_append, List.mem_singleton, or_and_right, exists_or, exists_eq_left]

/-- Accepting an event keeps flags and events together. -/
theorem Kept.accept (h : Kept s) (hfits : s.contract.fits p k = true) :
    Kept ⟨s.contract.next k, s.exchange, s.accepted ++ [(k, p)]⟩ where
  current := by
    rw [GatewayEventContract.next_currentCapability]
    exact h.current
  authorized := by
    rw [GatewayEventContract.next_authorized, Bool.or_eq_true, h.authorized]
    exact (exists_concat fun k ↦ k.isAuthorization = true).symm
  dispatched := by
    rw [GatewayEventContract.next_dispatched, Bool.or_eq_true, h.dispatched, decide_eq_true_iff]
    exact (exists_concat fun k ↦ k = .dispatch).symm
  oneDispatch := by
    rw [List.filter_append]
    by_cases hk : k = .dispatch
    · subst hk
      have hnone : s.accepted.filter (fun f ↦ f.1 = .dispatch) = [] := by
        refine List.filter_eq_nil_iff.mpr fun f hf hkind ↦ ?_
        have hd := (GatewayEventContract.fits_dispatch hfits).2.1
        rw [h.dispatched.mpr ⟨f, hf, of_decide_eq_true hkind⟩] at hd
        cases hd
      rw [hnone]
      exact Nat.le_refl 1
    · simpa [hk] using h.oneDispatch
  dispatchAuthorized := by
    refine each_concat.mpr ⟨h.dispatchAuthorized, fun hk ↦ h.authorized.mp ?_⟩
    obtain rfl : k = .dispatch := hk
    exact (GatewayEventContract.fits_dispatch hfits).1
  completionDispatched := each_concat.mpr ⟨h.completionDispatched, fun hk ↦
    h.dispatched.mp (GatewayEventContract.fits_completion hk hfits).1⟩
  hasOpen := by
    intro hfenced hfinished
    by_cases hk : k = .fencedAuthorized
    · exact ⟨s.accepted, (k, p), [], rfl, hk, fun f hf ↦ nomatch hf⟩
    -- another event neither opens nor closes, and the authorization stays open
    obtain ⟨hfinished, hclosing, -⟩ := GatewayEventContract.next_finished hfinished hk
    have hbefore : ∃ f ∈ s.accepted, f.1 = .fencedAuthorized :=
      ((exists_concat fun k ↦ k = .fencedAuthorized).mp hfenced).resolve_right hk
    exact (h.hasOpen hbefore hfinished).concat hclosing
  originals := by
    intro f hf hkind
    rcases List.mem_append.mp hf with hf | hf
    · obtain ⟨original, horiginal, hitem⟩ := h.originals f hf hkind
      exact ⟨original, GatewayEventContract.next_originalCapabilityId horiginal, hitem⟩
    · obtain rfl := List.mem_singleton.mp hf
      obtain rfl : k = .fencedConfirmed := hkind
      exact ⟨_, rfl, GatewayEventContract.fits_confirmed hfits⟩

theorem Session.step_check (s : Session) (event : PyValue) :
    (∃ k p, eventOf event = some (k, p) ∧ s.contract.Admits k ∧ s.contract.fits p k = true ∧
      s.Accepts event ∧
      s.step (.check event) = ⟨s.contract.next k, s.exchange, s.accepted ++ [(k, p)]⟩) ∨
    (¬s.Accepts event ∧ s.step (.check event) = s) := by
  rcases s.contract.check_cases event with ⟨k, p, he, hadmits, -, hfits, hcheck⟩ | ⟨e, hcheck, -⟩
  · refine .inl ⟨k, p, he, hadmits, hfits, ?_, ?_⟩
    · rw [Session.Accepts, hcheck]
    · rw [Session.step, hcheck, he]
      rfl
  · refine .inr ⟨?_, ?_⟩
    · rw [Session.Accepts, hcheck]
      exact fun h ↦ nomatch h
    · rw [Session.step, hcheck]

theorem Session.step_beginRequest (s : Session) (message : PyValue) :
    s.step (.beginRequest message) = if s.contract.currentCapability ≠ none then s
      else ⟨{ s.contract with currentCapability := claimOf message }, some message,
        s.accepted⟩ := by
  rw [Session.step, GatewayEventContract.beginRequest]
  by_cases h : s.contract.currentCapability ≠ none
  · rw [if_pos h, if_pos h]
  · rw [if_neg h, if_neg h]

theorem Kept.step (h : Kept s) (call : Call) : Kept (s.step call) := by
  cases call with
  | beginRequest message =>
    rw [Session.step_beginRequest]
    split
    · exact h
    · exact { h with current := rfl }
  | endRequest => exact { h with current := rfl }
  | check event =>
    rcases s.step_check event with ⟨k, p, -, -, hfits, -, hstep⟩ | ⟨-, hstep⟩
    · rw [hstep]
      exact h.accept hfits
    · rw [hstep]
      exact h

theorem kept_run (hstart : Kept ⟨c, none, []⟩) (calls : List Call) :
    Kept (Session.run c calls) := by
  induction calls using List.reverseRecOn with
  | nil => exact hstart
  | append_singleton calls call ih =>
    rw [Session.run_concat]
    exact ih.step call

/-- Accepted events stay accepted. -/
theorem accepted_prefix (before after : List Call) :
    (Session.run c before).accepted <+: (Session.run c (before ++ after)).accepted := by
  induction after using List.reverseRecOn with
  | nil => simp
  | append_singleton after call ih =>
    rw [← List.append_assoc, Session.run_concat]
    refine ih.trans ?_
    cases call with
    | beginRequest message =>
      rw [Session.step_beginRequest]
      split <;> exact List.prefix_rfl
    | endRequest => exact List.prefix_rfl
    | check event =>
      rcases Session.step_check _ event with ⟨k, p, -, -, -, -, hstep⟩ | ⟨-, hstep⟩
      · rw [hstep]
        exact List.prefix_append _ _
      · simp [hstep]

/-! ## Events that break the story -/

namespace GatewayEventContract

variable {c : GatewayEventContract} {k : EventKind} {p : List (PyKey × PyValue)}

/-- The payload of an authorization that names no capability, with the request and its digest as
they were pinned. -/
def namesNone (c : GatewayEventContract) (p : List (PyKey × PyValue)) : Bool :=
  hasExactKeys p EventKind.authorized.fields && (item p "request_id").isText c.requestId &&
    (item p "request_digest").isText c.digest && (item p "capability_id").isNone

/-- The payload of a completion or of a fenced closing has the values that were pinned. The flags
are left out of the comparison. -/
def matchesPinned (c : GatewayEventContract) (p : List (PyKey × PyValue)) (k : EventKind) : Bool :=
  { c with authorized := true, dispatched := true, finished := false }.fits p k

theorem fits_authorization_iff (hk : k.isAuthorization = true) (h : c.currentCapability = none) :
    c.fits p k = true ↔ c.namesNone p = true ∧ c.authorized = true ∧ c.finished = true := by
  have hfits : c.fits p k = c.authorizationFits p := by
    cases k with
    | fencedAuthorized | authorized => rfl
    | _ => cases hk
  have hnone : (item p "capability_id").isNone = true →
      (item p "capability_id").isText c.capabilityId = false := by
    cases item p "capability_id" <;> exact fun h ↦ (by first | rfl | cases h)
  rw [hfits, authorizationFits, namesNone, h, isOptional]
  revert hnone
  cases (item p "capability_id").isNone <;> cases (item p "capability_id").isText c.capabilityId <;>
    cases c.authorized <;> cases c.finished <;> simp

theorem fits_completion_iff (hk : k.isCompletion = true) : c.fits p k = true ↔
    c.matchesPinned p k = true ∧ c.dispatched = true ∧ c.finished = false := by
  cases k with
  | completed | indeterminate =>
    simp only [matchesPinned, fits, Bool.and_eq_true, Bool.not_eq_true']
    tauto
  | _ => cases hk

/-- The flags in the comparison of a fenced event. -/
theorem fencedFits_eq : c.fencedFits p = (c.authorized && !c.finished &&
    { c with authorized := true, dispatched := true, finished := false }.fencedFits p) := by
  simp only [fencedFits, Bool.and_assoc, Bool.not_false, Bool.true_and]

theorem confirmationFits_eq : c.confirmationFits p = (c.authorized && !c.finished &&
    { c with authorized := true, dispatched := true, finished := false }.confirmationFits p) := by
  rw [confirmationFits, fencedFits_eq, confirmationFits]
  simp only [Bool.and_assoc, Bool.and_left_comm (hasExactKeys _ _)]

theorem fits_closing_iff (hk : k.isClosing = true) : c.fits p k = true ↔
    c.matchesPinned p k = true ∧ c.authorized = true ∧ c.finished = false := by
  cases k with
  | fencedIndeterminate =>
    rw [matchesPinned, fits, fits, fencedFits_eq]
    simp only [Bool.and_eq_true, Bool.not_eq_true']
    tauto
  | fencedConfirmed =>
    rw [matchesPinned, fits, fits, confirmationFits_eq]
    simp only [Bool.and_eq_true, Bool.not_eq_true']
    exact ⟨fun h ↦ ⟨⟨h.1.2, h.2⟩, h.1.1⟩, fun h ↦ ⟨⟨h.2, h.1.1⟩, h.1.2⟩⟩
  | _ => cases hk

end GatewayEventContract

/-- A check of a completion has set the flag `finished`. -/
def SetsFinished (c : GatewayEventContract) (before : List Call) : Call → Prop
  | .check event => (∃ k p, eventOf event = some (k, p) ∧ k.isCompletion = true) ∧
      (Session.run c before).contract.finished = false ∧
      (Session.run c (before ++ [.check event])).contract.finished = true
  | _ => False

/-- A check of a fenced authorization has set the flag `authorized`, or has cleared `finished`. -/
def OpensFenced (c : GatewayEventContract) (before : List Call) : Call → Prop
  | .check event => (∃ p, eventOf event = some (.fencedAuthorized, p)) ∧
      ((Session.run c before).contract.authorized = false ∧
          (Session.run c (before ++ [.check event])).contract.authorized = true ∨
        (Session.run c before).contract.finished = true ∧
          (Session.run c (before ++ [.check event])).contract.finished = false)
  | _ => False

/-- The events that break a promise, as what is submitted and how the flags stand. -/
inductive Breach (c : GatewayEventContract) (before : List Call) (s : GatewayEventContract)
    (k : EventKind) (p : List (PyKey × PyValue)) : Prop
  /-- An authorization that names `None`, while the contract has no capability of an exchange and a
  story is finished. -/
  | authorization (hk : k.isAuthorization = true) (hadmits : s.Admits k)
    (hpayload : s.namesNone p = true) (hcurrent : s.currentCapability = none)
    (hauthorized : s.authorized = true) (hfinished : s.finished = true)
  /-- A completion while the flag that an earlier completion has set is cleared again. -/
  | completion (hk : k.isCompletion = true) (hpayload : s.matchesPinned p k = true)
    (hdispatched : s.dispatched = true) (hfinished : s.finished = false)
    (hbefore : Earlier (SetsFinished c) before)
  /-- A fenced closing of a story that no fenced authorization has opened. -/
  | closing (hk : k.isClosing = true) (hadmits : s.Admits k) (hpayload : s.matchesPinned p k = true)
    (hauthorized : s.authorized = true) (hfinished : s.finished = false)
    (hbefore : ¬Earlier (OpensFenced c) before)
  /-- A denial whose error class has no hash. -/
  | denial (h : s.Unhashable p k)

/-- The call submits none of these events. -/
def Safe (c : GatewayEventContract) (before : List Call) : Call → Prop
  | .check event => ∀ k p, eventOf event = some (k, p) →
      ¬Breach c before (Session.run c before).contract k p
  | _ => True

/-! ### The flags and the events accepted -/

theorem Session.accepts_iff {s : Session} (he : eventOf event = some (k, p)) :
    s.Accepts event ↔ s.contract.Admits k ∧ ¬s.contract.Unhashable p k ∧
      s.contract.fits p k = true := by
  constructor
  · intro h
    rcases s.contract.check_cases event with ⟨k', p', he', hadmits, hhash, hfits, -⟩ |
      ⟨e, hcheck, -⟩
    · rw [he] at he'
      cases he'
      exact ⟨hadmits, hhash, hfits⟩
    · rw [Accepts, hcheck] at h
      cases h
  · rintro ⟨hadmits, hhash, hfits⟩
    rw [Accepts, GatewayEventContract.check_of_fits he hadmits hhash hfits]

/-- An accepted event is one that a check has accepted. -/
theorem exists_accepted_iff {P : EventKind → Prop} {R : List Call → Call → Prop}
    (hcheck : ∀ before event k p, eventOf event = some (k, p) →
      (R before (.check event) ↔ P k ∧ (Session.run c before).Accepts event))
    (hnone : ∀ before event, eventOf event = none → ¬R before (.check event))
    (hother : ∀ before message, ¬R before (.beginRequest message) ∧ ¬R before .endRequest) :
    (∃ f ∈ (Session.run c calls).accepted, P f.1) ↔ Earlier R calls := by
  induction calls using List.reverseRecOn with
  | nil => exact iff_of_false (by rintro ⟨f, hf, -⟩; cases hf) not_earlier_nil
  | append_singleton calls call ih =>
    rw [Session.run_concat, earlier_concat, ← ih]
    cases call with
    | beginRequest message =>
      rw [or_iff_left (hother calls message).1, Session.step_beginRequest]
      split <;> rfl
    | endRequest =>
      rw [or_iff_left (hother calls .none).2]
      rfl
    | check event =>
      rcases Session.step_check (Session.run c calls) event with
        ⟨k, p, he, -, -, haccepts, hstep⟩ | ⟨hrefused, hstep⟩
      · rw [hstep, exists_concat, hcheck calls event k p he, and_iff_left haccepts]
      · rw [hstep, or_iff_left]
        intro hR
        cases he : eventOf event with
        | none => exact hnone calls event he hR
        | some kp => exact hrefused ((hcheck calls event kp.1 kp.2 he).mp hR).2

theorem exists_completion_iff : (∃ f ∈ (Session.run c calls).accepted, f.1.isCompletion = true) ↔
    Earlier (SetsFinished c) calls := by
  refine exists_accepted_iff (P := fun k ↦ k.isCompletion = true) ?_ ?_
    fun before message ↦ ⟨id, id⟩
  · intro before event k p he
    rw [SetsFinished, Session.run_concat]
    constructor
    · rintro ⟨⟨k', p', he', hk⟩, hfinished, hset⟩
      rw [he] at he'
      cases he'
      refine ⟨hk, ?_⟩
      rcases Session.step_check (Session.run c before) event with
        ⟨-, -, -, -, -, haccepts, -⟩ | ⟨-, hstep⟩
      · exact haccepts
      · rw [hstep, hfinished] at hset
        cases hset
    · rintro ⟨hk, haccepts⟩
      obtain ⟨hadmits, hhash, hfits⟩ := (Session.accepts_iff he).mp haccepts
      refine ⟨⟨k, p, he, hk⟩, (GatewayEventContract.fits_completion hk hfits).2, ?_⟩
      rw [Session.step, GatewayEventContract.check_of_fits he hadmits hhash hfits]
      cases k with
      | completed | indeterminate => rfl
      | _ => cases hk
  · rintro before event hnone ⟨⟨k, p, he, -⟩, -⟩
    cases hnone.symm.trans he

theorem exists_fencedAuthorized_iff :
    (∃ f ∈ (Session.run c calls).accepted, f.1 = .fencedAuthorized) ↔
      Earlier (OpensFenced c) calls := by
  refine exists_accepted_iff (P := fun k ↦ k = .fencedAuthorized) ?_ ?_
    fun before message ↦ ⟨id, id⟩
  · intro before event k p he
    rw [OpensFenced, Session.run_concat]
    constructor
    · rintro ⟨⟨p', he'⟩, hset⟩
      rw [he] at he'
      cases he'
      refine ⟨rfl, ?_⟩
      rcases Session.step_check (Session.run c before) event with
        ⟨-, -, -, -, -, haccepts, -⟩ | ⟨-, hstep⟩
      · exact haccepts
      · rw [hstep] at hset
        rcases hset with ⟨h, h'⟩ | ⟨h, h'⟩ <;> cases h.symm.trans h'
    · rintro ⟨rfl, haccepts⟩
      obtain ⟨hadmits, hhash, hfits⟩ := (Session.accepts_iff he).mp haccepts
      refine ⟨⟨p, he⟩, ?_⟩
      have hopen := (GatewayEventContract.fits_authorization rfl hfits).1
      rw [Session.step, GatewayEventContract.check_of_fits he hadmits hhash hfits]
      cases hauthorized : (Session.run c before).contract.authorized with
      | false => exact .inl ⟨rfl, rfl⟩
      | true =>
        refine .inr ⟨?_, rfl⟩
        rw [hauthorized] at hopen
        exact Bool.not_eq_false _ ▸ fun h ↦ hopen ⟨rfl, h⟩
  · rintro before event hnone ⟨⟨p, he⟩, -⟩
    cases hnone.symm.trans he

/-! ### A safe run -/

theorem Kept.namesExchange (h : Kept (Session.run c calls)) (hsafe : Safe c calls (.check event)) :
    NamesExchange (Session.run c calls) event := by
  intro haccepts k p he hk
  obtain ⟨hadmits, -, hfits⟩ := (Session.accepts_iff he).mp haccepts
  have hcap := (GatewayEventContract.fits_authorization hk hfits).2
  cases hcurrent : (Session.run c calls).contract.currentCapability with
  | none =>
    obtain ⟨hpayload, hauthorized, hfinished⟩ :=
      (GatewayEventContract.fits_authorization_iff hk hcurrent).mp hfits
    exact absurd (.authorization hk hadmits hpayload hcurrent hauthorized hfinished) (hsafe k p he)
  | some cap =>
    rw [hcurrent] at hcap
    obtain ⟨message, hmessage, hclaim⟩ :=
      Option.bind_eq_some_iff.mp (h.current.symm.trans hcurrent)
    exact ⟨message, cap, hmessage, hclaim, isOptional_some.mp hcap⟩

theorem rejects_of_safe (hsafe : Safe c calls (.check event)) :
    Rejects (Session.run c calls) event := by
  intro e he
  rcases (Session.run c calls).contract.check_cases event with
    ⟨k, p, -, -, -, -, hcheck⟩ | ⟨e', hcheck, hcls⟩
  · rw [hcheck] at he
    cases he
  · rw [hcheck] at he ⊢
    cases he
    refine ⟨hcls.resolve_right ?_, rfl⟩
    rintro ⟨k, p, hevent, h⟩
    exact hsafe k p hevent (.denial h)

/-- What the condition adds to the invariant of all runs. -/
structure Told (s : Session) : Prop extends Kept s where
  oneCompletion : (s.accepted.filter fun f ↦ f.1.isCompletion).length ≤ 1
  closings : Each (fun before f ↦ f.1.isClosing = true → HasOpen before) s.accepted

theorem Told.check (h : Told (Session.run c calls)) (hsafe : Safe c calls (.check event)) :
    Told ((Session.run c calls).step (.check event)) := by
  rcases (Session.run c calls).step_check event with
    ⟨k, p, he, hadmits, hfits, -, hstep⟩ | ⟨-, hstep⟩
  swap
  · rw [hstep]
    exact h
  rw [hstep]
  refine ⟨h.toKept.accept hfits, ?_, each_concat.mpr ⟨h.closings, fun hk ↦ ?_⟩⟩
  · rw [List.filter_append]
    by_cases hk : k.isCompletion = true
    · have hnone : (Session.run c calls).accepted.filter (fun f ↦ f.1.isCompletion) = [] := by
        refine List.filter_eq_nil_iff.mpr fun f hf hkind ↦ hsafe k p he ?_
        obtain ⟨hpayload, hdispatched, hfinished⟩ :=
          (GatewayEventContract.fits_completion_iff hk).mp hfits
        exact .completion hk hpayload hdispatched hfinished
          (exists_completion_iff.mp ⟨f, hf, hkind⟩)
      rw [hnone]
      exact List.length_filter_le _ _
    · simpa [hk] using h.oneCompletion
  · by_contra hopen
    obtain ⟨hpayload, hauthorized, hfinished⟩ :=
      (GatewayEventContract.fits_closing_iff hk).mp hfits
    refine hsafe k p he (.closing hk hadmits hpayload hauthorized hfinished fun hbefore ↦ hopen ?_)
    exact h.hasOpen (exists_fencedAuthorized_iff.mpr hbefore) hfinished

theorem told_run (hstart : Kept ⟨c, none, []⟩) (hsafe : Each (Safe c) calls) :
    Told (Session.run c calls) := by
  refine Each.invariant (P := fun calls ↦ Told (Session.run c calls)) hsafe
    ⟨hstart, Nat.zero_le 1, each_nil⟩ fun before call ih hcall ↦ ?_
  rw [Session.run_concat]
  cases call with
  | check event => exact ih.check hcall
  | beginRequest message =>
    refine ⟨ih.toKept.step _, ?_, ?_⟩ <;> rw [Session.step_beginRequest] <;> split
    · exact ih.oneCompletion
    · exact ih.oneCompletion
    · exact ih.closings
    · exact ih.closings
  | endRequest => exact ⟨ih.toKept.step _, ih.oneCompletion, ih.closings⟩

/-- What is accepted in the middle of a run is part of what the run accepts. -/
theorem accepted_of_fits {before after : List Call}
    (hcalls : calls = before ++ .check event :: after)
    (he : eventOf event = some (k, p)) (hk : k ≠ .denied)
    (hadmits : (Session.run c before).contract.Admits k)
    (hfits : (Session.run c before).contract.fits p k = true) :
    (Session.run c before).Accepts event ∧
      (Session.run c before).accepted ++ [(k, p)] <+: (Session.run c calls).accepted := by
  have hcheck := GatewayEventContract.check_of_fits he hadmits (fun h ↦ hk h.1) hfits
  refine ⟨by rw [Session.Accepts, hcheck], ?_⟩
  have hprefix := accepted_prefix (c := c) (before ++ [.check event]) after
  rwa [List.append_assoc, List.singleton_append, ← hcalls, Session.run_concat, Session.step,
    hcheck, he] at hprefix

/-- A run that tells one story submits none of the events that break it. -/
theorem OneStory.safe (h : OneStory c calls) (hstart : Kept ⟨c, none, []⟩) :
    Each (Safe c) calls := by
  intro before call after hcalls
  cases call with
  | beginRequest | endRequest => trivial
  | check event =>
    intro k p he hbreach
    have hkept := kept_run hstart before
    -- what the call submits is accepted, and then a clause fails
    cases hbreach with
    | authorization hk hadmits hpayload hcurrent hauthorized hfinished =>
      have hdenied : k ≠ .denied := by
        rintro rfl
        cases hk
      have hfits := (GatewayEventContract.fits_authorization_iff hk hcurrent).mpr
        ⟨hpayload, hauthorized, hfinished⟩
      obtain ⟨haccepts, -⟩ := accepted_of_fits hcalls he hdenied hadmits hfits
      obtain ⟨message, cap, hmessage, hclaim, -⟩ :=
        h.authorizations before _ after hcalls haccepts k p he hk
      rw [hkept.current, hmessage] at hcurrent
      exact absurd (hclaim.symm.trans hcurrent) (Option.some_ne_none cap)
    | completion hk hpayload hdispatched hfinished hbefore =>
      have hdenied : k ≠ .denied := by
        rintro rfl
        cases hk
      have hadmits : (Session.run c before).contract.Admits k := fun hfenced ↦ by
        cases k with
        | completed | indeterminate => cases hfenced
        | _ => cases hk
      have hfits := (GatewayEventContract.fits_completion_iff hk).mpr
        ⟨hpayload, hdispatched, hfinished⟩
      obtain ⟨f, hf, hkind⟩ := exists_completion_iff.mpr hbefore
      have hle := ((accepted_of_fits hcalls he hdenied hadmits hfits).2.filter
        fun f ↦ f.1.isCompletion).length_le.trans h.oneCompletion
      have hpos : 0 < ((Session.run c before).accepted.filter fun f ↦ f.1.isCompletion).length :=
        List.length_pos_of_mem (List.mem_filter.mpr ⟨hf, hkind⟩)
      have hlast : [(k, p)].filter (fun f ↦ f.1.isCompletion) = [(k, p)] :=
        List.filter_eq_self.mpr (List.forall_mem_singleton.mpr hk)
      rw [List.filter_append, List.length_append, hlast, List.length_singleton] at hle
      omega
    | closing hk hadmits hpayload hauthorized hfinished hbefore =>
      have hdenied : k ≠ .denied := by
        rintro rfl
        cases hk
      have hfits := (GatewayEventContract.fits_closing_iff hk).mpr
        ⟨hpayload, hauthorized, hfinished⟩
      obtain ⟨rest, hrest⟩ := (accepted_of_fits hcalls he hdenied hadmits hfits).2
      rw [List.append_assoc, List.singleton_append] at hrest
      obtain ⟨pre, a, post, hpre, ha, -⟩ := h.closings _ _ _ hrest.symm hk
      have hmem : a ∈ (Session.run c before).accepted :=
        hpre ▸ List.mem_append_right _ List.mem_cons_self
      exact hbefore (exists_fencedAuthorized_iff.mp ⟨a, hmem, ha⟩)
    | denial hhash =>
      have hcheck := GatewayEventContract.check_of_unhashable he hhash
      have hcls := (h.rejections before _ after hcalls _ (congrArg Prod.fst hcheck)).1
      cases hcls

/-- A new contract. -/
theorem kept_create {pid digest requestId capabilityId recipientId originalId : PyValue}
    (h : GatewayEventContract.create pid digest requestId capabilityId recipientId originalId =
      .ok c) : Kept ⟨c, none, []⟩ := by
  have hfresh : c.authorized = false ∧ c.dispatched = false ∧ c.currentCapability = none := by
    unfold GatewayEventContract.create at h
    repeat' split at h
    all_goals first | (cases h; done) | (cases h; exact ⟨rfl, rfl, rfl⟩)
  exact kept_start hfresh.1 hfresh.2.1 hfresh.2.2

/-- Every run of a new contract tells one story, exactly when none of the four events that break the
story is submitted in it. -/
theorem oneStory_iff {pid digest requestId capabilityId recipientId originalId : PyValue}
    (hc : GatewayEventContract.create pid digest requestId capabilityId recipientId originalId =
      .ok c) (calls : List Call) :
    OneStory c calls ↔ Each (Safe c) calls := by
  have hstart := kept_create hc
  refine ⟨fun h ↦ h.safe hstart, fun hsafe ↦ ?_⟩
  have htold := told_run hstart hsafe
  refine ⟨?_, htold.oneDispatch, htold.dispatchAuthorized, htold.oneCompletion,
    htold.completionDispatched, htold.closings, ?_, ?_⟩
  · intro before call after hcalls
    have hcall := hsafe before call after hcalls
    cases call with
    | check event => exact (kept_run hstart before).namesExchange hcall
    | beginRequest | endRequest => trivial
  · cases horiginal : (Session.run c calls).contract.originalCapabilityId with
    | some original =>
      refine ⟨original, fun f hf hkind ↦ ?_⟩
      obtain ⟨original', h, hitem⟩ := htold.originals f hf hkind
      rw [horiginal] at h
      cases h
      exact hitem
    | none =>
      refine ⟨[], fun f hf hkind ↦ ?_⟩
      obtain ⟨original, h, -⟩ := htold.originals f hf hkind
      rw [horiginal] at h
      cases h
  · intro before call after hcalls
    have hcall := hsafe before call after hcalls
    cases call with
    | check event => exact rejects_of_safe hcall
    | beginRequest | endRequest => trivial

end Runs

/-! ## A second completion -/

namespace Sample

def text (s : String) : PyValue := .str (.ofString s)

def dict (items : List (String × PyValue)) : PyValue := .ofNamed items

/-- An event of the gateway. -/
def event (k : EventKind) (payload : List (String × PyValue)) : PyValue :=
  dict [("source_id", text "host-effect-service"), ("event_type", text k.name),
    ("payload", dict payload)]

def requestDigest : PyValue := .str (List.replicate 64 (.scalar 'a'))

/-- A contract with a pinned recipient. -/
def contract : GatewayEventContract where
  fencedRecipientId := some (.ofString "recipient")
  originalCapabilityId := none
  pid := 4201
  digest := List.replicate 64 (.scalar 'a')
  requestId := .ofString "dataset-read"
  capabilityId := .ofString "cap_original"
  authorized := false
  dispatched := false
  finished := false
  currentCapability := none

theorem create_contract : GatewayEventContract.create (.int 4201) requestDigest
    (text "dataset-read") (text "cap_original") (text "recipient") .none = .ok contract := by
  rfl

/-- A message that carries the pinned capability. -/
def message : PyValue :=
  dict [("capability", dict [("claims", dict [("capability_id", text "cap_original")])])]

/-- The payload of an authorization. -/
def authorization : List (String × PyValue) :=
  [("request_id", text "dataset-read"), ("request_digest", requestDigest),
    ("capability_id", text "cap_original")]

def dispatch : PyValue :=
  event .dispatch [("request_digest", requestDigest), ("dispatch_count", .int 1),
    ("gateway_pid", .int 4201)]

def completion : PyValue :=
  event .completed [("request_id", text "dataset-read"), ("capability_id", text "cap_original"),
    ("success", .bool true), ("output_bytes", .int 74), ("effect_state", text "completed")]

end Sample

/-- An authorization and the dispatch after it. -/
theorem oneStory_iff_sample : OneStory Sample.contract [.beginRequest Sample.message,
    .check (Sample.event .authorized Sample.authorization), .check Sample.dispatch] := by
  refine (oneStory_iff Sample.create_contract _).mpr ?_
  change Each _ ([] ++ [Call.beginRequest Sample.message] ++ [Call.check _] ++ [Call.check _])
  rw [each_concat, each_concat, each_concat]
  refine ⟨⟨⟨each_nil, trivial⟩, fun k p he hbreach ↦ ?_⟩, fun k p he hbreach ↦ ?_⟩
  · have hk : k = .authorized := (Prod.mk.inj (Option.some.inj he)).1.symm
    subst hk
    cases hbreach with
    | authorization _ _ _ hcurrent => exact absurd hcurrent (by decide +kernel)
    | completion hk | closing hk => cases hk
    | denial h => cases h.1
  · have hk : k = .dispatch := (Prod.mk.inj (Option.some.inj he)).1.symm
    subst hk
    cases hbreach with
    | authorization hk | completion hk | closing hk => cases hk
    | denial h => cases h.1

/-- A fenced authorization after a completion lets the completion pass a second time. -/
theorem not_oneStory : ¬OneStory Sample.contract [.beginRequest Sample.message,
    .check (Sample.event .authorized Sample.authorization), .check Sample.dispatch,
    .check Sample.completion, .check (Sample.event .fencedAuthorized Sample.authorization),
    .check Sample.completion] :=
  fun h ↦ absurd h.oneCompletion (by decide +kernel)

end EventHorizon.Evidence
