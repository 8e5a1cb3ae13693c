import EventHorizon.Evidence.Recovery

/-!
# What an honest gateway may submit

A `FencedEffectRecoveryGateway` appends a `fenced.authorized` for every capability that its verifier
accepts, and a closing event only if the call gets as far as the recipient and the journal takes the
receipt. The other exits leave the story of the contract open, and an open story refuses the next
authorization, whatever capability it is for. So a run of the gateway is accepted exactly when every
call whose capability was verified has appended a closing event, the last such call apart.
-/

namespace EventHorizon.Evidence

open PyValue (item hasExactKeys)

namespace GatewayEventContract

/-- The contract is pinned to the request and the recipient of the gateway. -/
structure PinnedTo (c : GatewayEventContract) (g : FencedEffectRecoveryGateway) : Prop where
  recipient : c.fencedRecipientId = some g.recipientId
  request : c.requestId = g.requestId
  digest : c.digest = g.requestDigest

variable {c : GatewayEventContract} {g : FencedEffectRecoveryGateway} {claims : Claims}

/-- The event that `append` makes of a payload. -/
def eventWith (kind : EventKind) (payload : List (String × PyValue)) : PyValue :=
  .ofNamed [("event_type", .str (.ofString kind.name)), ("payload", .ofNamed payload),
    ("source_id", .str (.ofString "host-effect-service"))]

/-- The items of a payload. -/
def itemsOf (payload : List (String × PyValue)) : List (PyKey × PyValue) :=
  payload.map fun f ↦ (.str (.ofString f.1), f.2)

theorem item_itemsOf (payload : List (String × PyValue)) (key : String) :
    item (itemsOf payload) key = (payload.lookup key).getD .none := PyValue.item_named payload key

theorem hasExactKeys_itemsOf (payload : List (String × PyValue)) (names : List String) :
    hasExactKeys (itemsOf payload) names = ((payload.map Prod.fst).all (fun key ↦ key ∈ names) &&
      names.all fun name ↦ name ∈ payload.map Prod.fst) := PyValue.hasExactKeys_named payload names

theorem envelope_eventWith (kind : EventKind) (payload : List (String × PyValue)) :
    envelope (eventWith kind payload) =
      some (.str (.ofString kind.name), itemsOf payload) := by
  have hkeys : hasExactKeys (itemsOf [("event_type", .str (.ofString kind.name)),
      ("payload", .ofNamed payload), ("source_id", .str (.ofString "host-effect-service"))])
      ["event_type", "payload", "source_id"] = true := by
    rw [hasExactKeys_itemsOf]
    rfl
  have hsource : item (itemsOf [("event_type", .str (.ofString kind.name)),
      ("payload", .ofNamed payload), ("source_id", .str (.ofString "host-effect-service"))])
      "source_id" = .str (.ofString "host-effect-service") := by
    rw [item_itemsOf]
    rfl
  have htype : item (itemsOf [("event_type", .str (.ofString kind.name)),
      ("payload", .ofNamed payload), ("source_id", .str (.ofString "host-effect-service"))])
      "event_type" = .str (.ofString kind.name) := by
    rw [item_itemsOf]
    rfl
  have hpayload : item (itemsOf [("event_type", .str (.ofString kind.name)),
      ("payload", .ofNamed payload), ("source_id", .str (.ofString "host-effect-service"))])
      "payload" = .dict (itemsOf payload) := by
    rw [item_itemsOf]
    rfl
  have hevent : eventWith kind payload = .dict (itemsOf [
      ("event_type", .str (.ofString kind.name)), ("payload", .ofNamed payload),
      ("source_id", .str (.ofString "host-effect-service"))]) := rfl
  rw [hevent, envelope, hkeys, hsource, hpayload, htype, PyValue.isText_iff.mpr rfl]
  rfl

theorem kindOf_name (kind : EventKind) : kindOf (.str (.ofString kind.name)) = some kind := by
  cases kind <;> decide +kernel

theorem check_eventWith (kind : EventKind) (payload : List (String × PyValue))
    (hpinned : c.PinnedTo g) (hkind : kind ≠ .denied) :
    c.check (eventWith kind payload) =
      if c.fits (itemsOf payload) kind then (.ok (), c.next kind)
      else (.error ⟨.gatewayEvidenceContractError, c.rejection (itemsOf payload) kind⟩, c) := by
  rw [check, envelope_eventWith]
  simp only [kindOf_name]
  rw [if_neg fun h ↦ Option.some_ne_none _ (hpinned.recipient.symm.trans h.2),
    if_neg fun h ↦ hkind h.1]

theorem authorizationFits_named (hpinned : c.PinnedTo g)
    (hcurrent : c.currentCapability = some claims.capabilityId) :
    c.authorizationFits (itemsOf (g.named claims)) = true ↔
      ¬(c.authorized = true ∧ c.finished = false) ∧
        (c.authorized = true ∨ claims.capabilityId = c.capabilityId) := by
  have hkeys : hasExactKeys (itemsOf (g.named claims)) EventKind.authorized.fields = true := by
    rw [hasExactKeys_itemsOf]
    rfl
  have hrequest : item (itemsOf (g.named claims)) "request_id" = .str g.requestId := by
    rw [item_itemsOf]
    rfl
  have hdigest : item (itemsOf (g.named claims)) "request_digest" = .str g.requestDigest := by
    rw [item_itemsOf]
    rfl
  have hcap : item (itemsOf (g.named claims)) "capability_id" = .str claims.capabilityId := by
    rw [item_itemsOf]
    rfl
  rw [authorizationFits, hkeys, hrequest, hdigest, hcap, hcurrent]
  simp only [Bool.true_and, Bool.and_eq_true, Bool.not_eq_true', Bool.and_eq_false_iff,
    Bool.not_eq_false', Bool.or_eq_true, isOptional_some, PyValue.isText_iff, PyValue.str.injEq,
    hpinned.request, hpinned.digest, and_true]
  cases c.authorized <;> cases c.finished <;> simp

theorem fencedFits_named (hpinned : c.PinnedTo g)
    (hcurrent : c.currentCapability = some claims.capabilityId) (hauthorized : c.authorized = true)
    (hfinished : c.finished = false) (more : List (String × PyValue)) :
    c.fencedFits (itemsOf (g.named claims ++ more)) = true := by
  have hrequest : item (itemsOf (g.named claims ++ more)) "request_id" = .str g.requestId := by
    rw [item_itemsOf]
    rfl
  have hdigest : item (itemsOf (g.named claims ++ more)) "request_digest" =
      .str g.requestDigest := by
    rw [item_itemsOf]
    rfl
  have hcap : item (itemsOf (g.named claims ++ more)) "capability_id" =
      .str claims.capabilityId := by
    rw [item_itemsOf]
    rfl
  rw [fencedFits, hrequest, hdigest, hcap, hcurrent, hauthorized, hfinished]
  simp [isOptional_some, PyValue.isText_iff, hpinned.request, hpinned.digest]

theorem fits_indeterminate (hpinned : c.PinnedTo g)
    (hcurrent : c.currentCapability = some claims.capabilityId) (hauthorized : c.authorized = true)
    (hfinished : c.finished = false) :
    c.fits (itemsOf (g.indeterminatePayload claims)) .fencedIndeterminate = true := by
  have hkeys : hasExactKeys (itemsOf (g.indeterminatePayload claims))
      EventKind.fencedIndeterminate.fields = true := by
    rw [hasExactKeys_itemsOf]
    rfl
  have hstate : item (itemsOf (g.indeterminatePayload claims)) "effect_state" =
      .str (.ofString "possibly-committed") := by
    rw [item_itemsOf]
    rfl
  rw [fits, hkeys, hstate, FencedEffectRecoveryGateway.indeterminatePayload,
    fencedFits_named hpinned hcurrent hauthorized hfinished, PyValue.isText_iff.mpr rfl]
  rfl

theorem fits_confirmed_of {binding : Effect} {recovered : Bool} {receipt observed : FencedReceipt}
    (hpinned : c.PinnedTo g) (hcurrent : c.currentCapability = some claims.capabilityId)
    (hauthorized : c.authorized = true) (hfinished : c.finished = false)
    (hrecipient : observed.recipientId = g.recipientId)
    (horiginal : c.originalCapabilityId = some binding.capabilityId)
    (hrecovered : recovered = true ↔ claims.capabilityId ≠ binding.capabilityId) :
    c.fits (itemsOf (g.confirmedPayload claims binding recovered receipt observed))
      .fencedConfirmed = true := by
  set payload := g.confirmedPayload claims binding recovered receipt observed with hpayload
  have hkeys : hasExactKeys (itemsOf payload) EventKind.fencedConfirmed.fields = true := by
    rw [hasExactKeys_itemsOf]
    rfl
  have hcap : item (itemsOf payload) "capability_id" = .str claims.capabilityId := by
    rw [item_itemsOf]
    rfl
  have hreceipt : item (itemsOf payload) "receipt_digest" = .str observed.receiptDigest := by
    rw [item_itemsOf]
    rfl
  have hid : item (itemsOf payload) "recipient_id" = .str observed.recipientId := by
    rw [item_itemsOf]
    rfl
  have hsequence : item (itemsOf payload) "commit_sequence" = .int observed.sequence := by
    rw [item_itemsOf]
    rfl
  have hrecovery : item (itemsOf payload) "recovery" = .bool recovered := by
    rw [item_itemsOf]
    rfl
  have hcommit : item (itemsOf payload) "new_effect_commit" = .bool receipt.newlyCommitted := by
    rw [item_itemsOf]
    rfl
  have hprovenance : item (itemsOf payload) "original_capability_id" =
      .str binding.capabilityId := by
    rw [item_itemsOf]
    rfl
  have hconfirmation : c.confirmationFits (itemsOf payload) = true := by
    rw [confirmationFits, hkeys, hreceipt, hid, hsequence, hrecovery, hcommit, hpayload,
      FencedEffectRecoveryGateway.confirmedPayload,
      fencedFits_named hpinned hcurrent hauthorized hfinished]
    simp [isOptional_some, hpinned.recipient, hrecipient, observed.hex, isIntFrom,
      observed.positive]
  rw [fits, hconfirmation, provenanceFits, horiginal]
  simp only [hprovenance, hrecovery, hcap, PyValue.truthy, PyValue.isText, Bool.true_and]
  cases recovered with
  | true => simp [hrecovered.mp rfl]
  | false => simpa using Decidable.not_not.mp fun h ↦ Bool.false_ne_true (hrecovered.mpr h)

end GatewayEventContract

/-! ## One call -/

section Calls

variable [Platform] {g : FencedEffectRecoveryGateway} {w : World} {a : Attempt} {claims : Claims}

/-- What is appended is accepted. -/
def World.AllAccepted (w : World) : Prop := ∀ f ∈ w.appended, f.2 = true

/-- The receipt of the recipient, if it is corroborated, is taken by the journal. -/
def FencedEffectRecoveryGateway.TakesReceipt (g : FencedEffectRecoveryGateway) (a : Attempt)
    (outputDigest : PyStr) (binding : Effect) (rows : List Effect) : Prop :=
  ∀ receipt observed, g.corroborated a outputDigest = some (receipt, observed) →
    (Journal.confirm g.tenant g.environment a.confirmFault binding observed.receiptDigest rows).1 =
      .ok ()

/-- The call appends a closing event: the output may be dispatched, the effect is reserved for it,
and if the receipt of the recipient is corroborated then the journal takes it. -/
def FencedEffectRecoveryGateway.Closes (g : FencedEffectRecoveryGateway) (w : World) (a : Attempt) :
    Prop :=
  ∃ claims outputDigest binding recovered, a.claims = .ok claims ∧
    a.prepare claims = some outputDigest ∧
    (g.reserve a claims outputDigest w.journal).1 = .ok (binding, recovered) ∧
    g.TakesReceipt a outputDigest binding (g.reserve a claims outputDigest w.journal).2

/-- Between two calls. -/
structure Settled (g : FencedEffectRecoveryGateway) (original : PyStr) (w : World) : Prop where
  pinned : w.contract.PinnedTo g
  source : w.contract.originalCapabilityId = some original
  current : w.contract.currentCapability = none

/-- A story is open that no event of the gateway will close. -/
structure Stuck (g : FencedEffectRecoveryGateway) (original : PyStr) (w : World) : Prop
    extends Settled g original w where
  authorized : w.contract.authorized = true
  finished : w.contract.finished = false

/-- No story is open, and the reservation of the effect, if there is one, is that of the original
capability. -/
structure Ready (g : FencedEffectRecoveryGateway) (original : PyStr) (w : World) : Prop
    extends Settled g original w where
  ready : w.contract.authorized = false ∨ w.contract.finished = true
  reserved : ∀ row, w.journal.find? (fun row ↦ row.effectKey = g.effectKey) = some row →
    row.capabilityId = original
  /-- Where there is no reservation, no capability has been authorized. -/
  unreserved : w.journal.find? (fun row ↦ row.effectKey = g.effectKey) = none →
    w.contract.authorized = false ∧ w.contract.capabilityId = original

/-- In a call, after its authorization has been accepted. -/
structure Opened (g : FencedEffectRecoveryGateway) (original : PyStr) (claims : Claims)
    (w : World) : Prop where
  pinned : w.contract.PinnedTo g
  source : w.contract.originalCapabilityId = some original
  current : w.contract.currentCapability = some claims.capabilityId
  authorized : w.contract.authorized = true
  finished : w.contract.finished = false

omit [Platform] in
/-- An event that fits is appended. -/
theorem World.append_of_fits (w : World) (kind : EventKind) {payload : List (String × PyValue)}
    (hpinned : w.contract.PinnedTo g) (hkind : kind ≠ .denied)
    (hfits : w.contract.fits (GatewayEventContract.itemsOf payload) kind = true) :
    w.append kind payload = (.ok (), ⟨w.contract.next kind, w.journal,
      w.appended ++ [(GatewayEventContract.eventWith kind payload, true)]⟩) := by
  have hcheck := GatewayEventContract.check_eventWith kind payload hpinned hkind
  rw [if_pos hfits] at hcheck
  unfold World.append
  dsimp only
  rw [GatewayEventContract.eventWith] at hcheck
  rw [hcheck]
  rfl

omit [Platform] in
theorem World.AllAccepted.concat (h : w.AllAccepted) (event : PyValue) {c : GatewayEventContract}
    {rows : List Effect} : World.AllAccepted ⟨c, rows, w.appended ++ [(event, true)]⟩ := by
  intro f hf
  rcases List.mem_append.mp hf with hf | hf
  · exact h f hf
  · rw [List.mem_singleton.mp hf]

/-! ### The journal -/

namespace Journal

omit [Platform] in
theorem transact_snd {α : Type} (unavailable : String) (fault : Fault) (rows : List Effect)
    {body : Except Exn (α × List Effect)} :
    (transact unavailable fault rows body).2 = rows ∨
      ∃ b, body = .ok b ∧ (transact unavailable fault rows body).2 = b.2 := by
  unfold transact
  split
  · exact .inl rfl
  · exact .inl rfl
  · exact .inr ⟨_, rfl, rfl⟩
  · exact .inr ⟨_, rfl, rfl⟩

omit [Platform] in
theorem reserveFenced_cases (tenant environment : PyStr) (fault : Fault) (r : Reservation)
    (rows : List Effect) :
    let reserved := reserveFenced tenant environment fault r rows
    (reserved.2 = rows ∧ reserved.1 ≠ .ok true) ∨
    (reserved.2 = rows ++ [r.row] ∧ (∀ row ∈ rows, row.effectKey ≠ r.effectKey) ∧
      (reserved.1 = .ok true ∨ ∃ e, reserved.1 = .error e ∧ e.cls = .effectJournalError)) := by
  intro reserved
  simp only [reserved, reserveFenced]
  split
  · exact .inl ⟨rfl, by simp⟩
  split
  · left
    split <;> cases fault <;> exact ⟨rfl, by simp [transact]⟩
  next hfind =>
    have hkeys : ∀ row ∈ rows, row.effectKey ≠ r.effectKey := by
      intro row hrow heq
      have := List.find?_eq_none.mp hfind row hrow
      simp [heq] at this
    cases fault with
    | never => exact .inr ⟨rfl, hkeys, .inl rfl⟩
    | before => exact .inl ⟨rfl, by simp [transact]⟩
    | after => exact .inr ⟨rfl, hkeys, .inr ⟨_, rfl, rfl⟩⟩

omit [Platform] in
theorem Reservation.check_eq_ok {r : Reservation} {tenant environment : PyStr}
    (hvalid : validate tenant environment r.effectKey r.capabilityId r.requestDigest
      r.claimsDigest = .ok ())
    (hrecipient : r.recipientId ≠ []) (hlength : r.recipientId.length ≤ 128)
    (houtput : isHex r.outputDigest = true) : r.check tenant environment = .ok () := by
  rw [check, hvalid]
  exact if_neg (by simp [hrecipient, hlength, houtput])

omit [Platform] in
theorem confirm_snd (tenant environment : PyStr) (fault : Fault) (binding : Effect)
    (receiptDigest : PyStr) (rows : List Effect) :
    ∃ f : Effect → Effect,
      (confirm tenant environment fault binding receiptDigest rows).2 = rows.map f ∧
      ∀ row, (f row).capabilityId = row.capabilityId ∧ (f row).effectKey = row.effectKey := by
  rw [confirm]
  split
  · exact ⟨id, (List.map_id rows).symm, fun _ ↦ ⟨rfl, rfl⟩⟩
  rcases transact_snd "recipient confirmation unavailable" fault rows with h | ⟨b, hb, h⟩
  · exact ⟨id, h.trans (List.map_id rows).symm, fun _ ↦ ⟨rfl, rfl⟩⟩
  · rw [h]
    clear h
    split at hb
    · cases hb
    split at hb
    · cases hb
    split at hb
    · cases hb
    cases hb
    refine ⟨_, rfl, fun row ↦ ?_⟩
    split <;> exact ⟨rfl, rfl⟩

end Journal

/-! ### The reservation of a call -/

namespace FencedEffectRecoveryGateway

variable {outputDigest : PyStr} {rows : List Effect}

omit [Platform] in
theorem reserve_snd : (g.reserve a claims outputDigest rows).2 =
    (Journal.reserveFenced g.tenant g.environment a.reserveFault (g.expected claims outputDigest)
      rows).2 := by
  unfold reserve
  dsimp only
  split
  · rfl
  split
  · rfl
  · rfl
  split <;> rfl

omit [Platform] in
/-- A reservation that succeeds has fetched its binding from the rows it leaves, and it has made the
binding itself if the effect is not recovered. -/
theorem reserve_eq_ok {binding : Effect} {recovered : Bool}
    (h : (g.reserve a claims outputDigest rows).1 = .ok (binding, recovered)) :
    (match (Journal.reserveFenced g.tenant g.environment a.reserveFault
        (g.expected claims outputDigest) rows).1 with
      | .ok first => recovered = !first
      | .error e => e.cls = .effectAlreadyReserved ∧ recovered = true) ∧
    (g.reserve a claims outputDigest rows).2.find? (fun row ↦ row.effectKey = g.effectKey) =
      some binding := by
  rw [reserve_snd]
  unfold reserve at h
  dsimp only at h
  split at h
  · cases h
  next recovered' hrecovered =>
    unfold Journal.observeEffect at h
    split at h
    · cases h
    · cases h
    next binding' hfind =>
      split at h
      · cases h
        split at hfind
        · cases hfind
        split at hfind
        · refine ⟨?_, Except.ok.inj hfind⟩
          split
          next first hfirst =>
            rw [hfirst] at hrecovered
            exact (Option.some.inj hrecovered).symm
          next e he =>
            rw [he] at hrecovered
            dsimp only at hrecovered
            split at hrecovered
            next hcls => exact ⟨hcls, (Option.some.inj hrecovered).symm⟩
            · cases hrecovered
        · cases hfind
      · cases h

omit [Platform] in
/-- The effect is recovered, or it is reserved by this call for its own capability. -/
theorem reserve_cases {binding : Effect} {recovered : Bool}
    (h : (g.reserve a claims outputDigest rows).1 = .ok (binding, recovered)) :
    (recovered = true ∧ rows.find? (fun row ↦ row.effectKey = g.effectKey) = some binding) ∨
    (recovered = false ∧ rows.find? (fun row ↦ row.effectKey = g.effectKey) = none ∧
      binding.capabilityId = claims.capabilityId) := by
  obtain ⟨hrecovered, hfind⟩ := reserve_eq_ok h
  rw [reserve_snd] at hfind
  rcases Journal.reserveFenced_cases g.tenant g.environment a.reserveFault
    (g.expected claims outputDigest) rows with ⟨hrows, hfirst⟩ | ⟨hrows, hkeys, hfirst⟩
  · rw [hrows] at hfind
    refine .inl ⟨?_, hfind⟩
    split at hrecovered
    next first hok =>
      cases first with
      | true => exact absurd hok hfirst
      | false => exact hrecovered
    next => exact hrecovered.2
  · have hnone : rows.find? (fun row ↦ row.effectKey = g.effectKey) = none :=
      List.find?_eq_none.mpr fun row hrow ↦ by simpa [expected] using hkeys row hrow
    rw [hrows, List.find?_append, hnone] at hfind
    have hbinding : (g.expected claims outputDigest).row = binding := by
      simpa [expected, Journal.Reservation.row] using hfind
    refine .inr ⟨?_, hnone, hbinding ▸ rfl⟩
    rcases hfirst with hok | ⟨e, he, hcls⟩
    · rw [hok] at hrecovered
      exact hrecovered
    · rw [he] at hrecovered
      cases hcls ▸ hrecovered.1

omit [Platform] in
theorem reserve_nil (hreserve : a.reserveFault = .never) (hobserve : a.observeFault = .never)
    (hcheck : (g.expected claims outputDigest).check g.tenant g.environment = .ok ())
    (htenant : Journal.isIdentity g.tenant = true)
    (henvironment : Journal.isIdentity g.environment = true) (hkey : isHex g.effectKey = true) :
    (g.reserve a claims outputDigest []).1 = .ok ((g.expected claims outputDigest).row, false) := by
  have hreserved : Journal.reserveFenced g.tenant g.environment a.reserveFault
      (g.expected claims outputDigest) [] =
        (.ok true, [(g.expected claims outputDigest).row]) := by
    rw [Journal.reserveFenced, hcheck, hreserve]
    rfl
  have hfits : g.bindingFits claims outputDigest false (g.expected claims outputDigest).row =
      true := by
    simp [bindingFits, expected, Journal.Reservation.row]
  have hfind : [(g.expected claims outputDigest).row].find? (fun row ↦
      row.effectKey = g.effectKey) = some (g.expected claims outputDigest).row :=
    List.find?_cons_of_pos (by simp [expected, Journal.Reservation.row])
  simp [reserve, hreserved, Journal.observeEffect, htenant, henvironment, hkey, hobserve, hfind,
    hfits]

omit [Platform] in
theorem capabilityId_reserve {row : Effect} (h : row ∈ (g.reserve a claims outputDigest rows).2) :
    row ∈ rows ∨ row.capabilityId = claims.capabilityId := by
  rw [reserve_snd] at h
  rcases Journal.reserveFenced_cases g.tenant g.environment a.reserveFault
    (g.expected claims outputDigest) rows with ⟨hrows, _⟩ | ⟨hrows, _⟩
  · exact .inl (hrows ▸ h)
  · rw [hrows] at h
    exact (List.mem_append.mp h).imp_right fun h ↦ by rw [List.mem_singleton.mp h]; rfl

end FencedEffectRecoveryGateway

/-! ### The end of a call -/

omit [Platform] in
/-- A call that has not closed its story leaves it open for good. -/
theorem Opened.stuck {original : PyStr} (h : Opened g original claims w) :
    Stuck g original { w with contract := w.contract.endRequest } :=
  ⟨⟨⟨h.pinned.recipient, h.pinned.request, h.pinned.digest⟩, h.source, rfl⟩, h.authorized,
    h.finished⟩

/-- In a call, after its closing event. -/
structure Closed (g : FencedEffectRecoveryGateway) (original : PyStr) (w : World) : Prop where
  pinned : w.contract.PinnedTo g
  source : w.contract.originalCapabilityId = some original
  authorized : w.contract.authorized = true
  finished : w.contract.finished = true
  reserved : ∃ row, w.journal.find? (fun row ↦ row.effectKey = g.effectKey) = some row ∧
    row.capabilityId = original

omit [Platform] in
theorem Closed.ready {original : PyStr} (h : Closed g original w) :
    Ready g original { w with contract := w.contract.endRequest } where
  pinned := ⟨h.pinned.recipient, h.pinned.request, h.pinned.digest⟩
  source := h.source
  current := rfl
  ready := .inr h.finished
  reserved row hrow := by
    obtain ⟨row', hrow', hcap⟩ := h.reserved
    cases hrow'.symm.trans hrow
    exact hcap
  unreserved hnone := by
    obtain ⟨row, hrow, _⟩ := h.reserved
    cases hnone.symm.trans hrow

omit [Platform] in
theorem Settled.begun {original : PyStr} (h : Settled g original w)
    (hcarries : claimOf a.message = some claims.capabilityId) :
    ∃ c, (w.contract.beginRequest a.message).2 = c ∧ c.PinnedTo g ∧
      c.originalCapabilityId = some original ∧
      c.currentCapability = some claims.capabilityId ∧
      c.authorized = w.contract.authorized ∧ c.finished = w.contract.finished ∧
      c.capabilityId = w.contract.capabilityId := by
  refine ⟨{ w.contract with currentCapability := some claims.capabilityId }, ?_,
    ⟨h.pinned.recipient, h.pinned.request, h.pinned.digest⟩, h.source, rfl, rfl, rfl, rfl⟩
  rw [GatewayEventContract.beginRequest, if_neg (fun hne ↦ hne h.current), hcarries]

omit [Platform] in
theorem Ready.opened {original : PyStr} (h : Ready g original w)
    (hcarries : claimOf a.message = some claims.capabilityId)
    (hfirst : w.contract.authorized = false → claims.capabilityId = w.contract.capabilityId) :
    ∃ event contract, Opened g original claims ⟨contract, w.journal, w.appended⟩ ∧
      World.append { w with contract := (w.contract.beginRequest a.message).2 } .fencedAuthorized
        (g.named claims) = (.ok (), ⟨contract, w.journal, w.appended ++ [(event, true)]⟩) := by
  obtain ⟨c, hc, hpinned, hsource, hcurrent, hauthorized, hfinished, hcapability⟩ :=
    h.toSettled.begun hcarries
  rw [hc]
  refine ⟨_, c.next .fencedAuthorized,
    ⟨⟨hpinned.recipient, hpinned.request, hpinned.digest⟩, hsource, hcurrent, rfl, rfl⟩,
    World.append_of_fits { w with contract := c } .fencedAuthorized hpinned nofun
      ((GatewayEventContract.authorizationFits_named hpinned hcurrent).mpr ⟨fun hopen ↦ ?_, ?_⟩)⟩
  · rw [hauthorized, hfinished] at hopen
    rcases h.ready with hready | hready
    · exact Bool.false_ne_true (hready.symm.trans hopen.1)
    · exact Bool.false_ne_true (hopen.2.symm.trans hready)
  · rw [hauthorized, hcapability]
    cases hflag : w.contract.authorized with
    | true => exact .inl rfl
    | false => exact .inr (hfirst hflag)

namespace FencedEffectRecoveryGateway

variable {original outputDigest : PyStr} {binding : Effect} {recovered : Bool}

omit [Platform] in
theorem recipientId_of_corroborated {receipt observed : FencedReceipt}
    (h : g.corroborated a outputDigest = some (receipt, observed)) :
    observed.recipientId = g.recipientId := by
  unfold corroborated at h
  split at h
  · split at h
    next hfits =>
      cases h
      exact hfits.2.2.2
    · cases h
  · cases h

omit [Platform] in
theorem dispatch_snd (g : FencedEffectRecoveryGateway) (a : Attempt) (claims : Claims)
    (outputDigest : PyStr) (binding : Effect) (recovered : Bool) (w : World) :
    (g.corroborated a outputDigest = none ∧
      (g.dispatch a claims outputDigest binding recovered w).2 =
        (w.append .fencedIndeterminate (g.indeterminatePayload claims)).2) ∨
    ∃ receipt observed, g.corroborated a outputDigest = some (receipt, observed) ∧
      let confirmed := Journal.confirm g.tenant g.environment a.confirmFault binding
        observed.receiptDigest w.journal
      (confirmed.1 ≠ .ok () ∧ (g.dispatch a claims outputDigest binding recovered w).2 =
        { w with journal := confirmed.2 }) ∨
      (confirmed.1 = .ok () ∧ (g.dispatch a claims outputDigest binding recovered w).2 =
        (World.append { w with journal := confirmed.2 } .fencedConfirmed
          (g.confirmedPayload claims binding recovered receipt observed)).2) := by
  unfold dispatch
  split
  next hnone =>
    refine .inl ⟨hnone, ?_⟩
    dsimp only
    split <;> rfl
  next receipt observed hsome =>
    refine .inr ⟨receipt, observed, hsome, ?_⟩
    dsimp only
    split
    next e he => exact .inl ⟨fun hok ↦ (nomatch he.symm.trans hok), rfl⟩
    next hok =>
      refine .inr ⟨hok, ?_⟩
      split <;> rfl

omit [Platform] in
/-- From the recipient on, the story is closed unless the journal refuses the receipt. -/
theorem dispatch_cases (a : Attempt) (outputDigest : PyStr)
    (h : Opened g original claims w) (hall : w.AllAccepted)
    (hreserved : ∃ row, w.journal.find? (fun row ↦ row.effectKey = g.effectKey) = some row ∧
      row.capabilityId = original)
    (hbinding : binding.capabilityId = original)
    (hrecovered : recovered = true ↔ claims.capabilityId ≠ binding.capabilityId) :
    let w' := (g.dispatch a claims outputDigest binding recovered w).2
    w'.AllAccepted ∧
    (∀ row ∈ w'.journal, ∃ row' ∈ w.journal, row'.capabilityId = row.capabilityId) ∧
    (g.TakesReceipt a outputDigest binding w.journal → Closed g original w') ∧
    (¬g.TakesReceipt a outputDigest binding w.journal → Opened g original claims w') := by
  intro w'
  -- without a receipt that is corroborated the attempt closes as indeterminate
  rcases g.dispatch_snd a claims outputDigest binding recovered w with
    ⟨hnone, hw⟩ | ⟨receipt, observed, hsome, hconfirm⟩
  · have htakes : g.TakesReceipt a outputDigest binding w.journal :=
      fun receipt observed heq ↦ by cases hnone.symm.trans heq
    rw [World.append_of_fits w .fencedIndeterminate h.pinned nofun
      (GatewayEventContract.fits_indeterminate h.pinned h.current h.authorized h.finished)] at hw
    simp only [w', hw]
    exact ⟨hall.concat _, fun row hrow ↦ ⟨row, hrow, rfl⟩,
      fun _ ↦ ⟨⟨h.pinned.recipient, h.pinned.request, h.pinned.digest⟩, h.source, h.authorized, rfl,
        hreserved⟩, fun hn ↦ absurd htakes hn⟩
  obtain ⟨f, hrows, hf⟩ := Journal.confirm_snd g.tenant g.environment a.confirmFault binding
    observed.receiptDigest w.journal
  have hkept : ∀ row ∈ w.journal.map f, ∃ row' ∈ w.journal,
      row'.capabilityId = row.capabilityId := by
    intro row hrow
    obtain ⟨row', hmem, rfl⟩ := List.mem_map.mp hrow
    exact ⟨row', hmem, (hf row').1.symm⟩
  dsimp only at hconfirm
  rw [hrows] at hconfirm
  -- the journal refuses the receipt, or the effect is confirmed for its first capability
  rcases hconfirm with ⟨hrefused, hw⟩ | ⟨hok, hw⟩
  · simp only [w', hw]
    exact ⟨hall, hkept, fun htakes ↦ absurd (htakes receipt observed hsome) hrefused,
      fun _ ↦ ⟨⟨h.pinned.recipient, h.pinned.request, h.pinned.digest⟩, h.source, h.current,
        h.authorized, h.finished⟩⟩
  have htakes : g.TakesReceipt a outputDigest binding w.journal := by
    intro receipt' observed' heq
    cases hsome.symm.trans heq
    exact hok
  have hkeys : ((fun row : Effect ↦ decide (row.effectKey = g.effectKey)) ∘ f) =
      fun row ↦ decide (row.effectKey = g.effectKey) :=
    funext fun row ↦ by simp [(hf row).2]
  rw [World.append_of_fits { w with journal := w.journal.map f } .fencedConfirmed h.pinned nofun
    (GatewayEventContract.fits_confirmed_of h.pinned h.current h.authorized h.finished
      (recipientId_of_corroborated hsome) (hbinding ▸ h.source) hrecovered)] at hw
  simp only [w', hw]
  refine ⟨hall.concat _, hkept, fun _ ↦
    ⟨⟨h.pinned.recipient, h.pinned.request, h.pinned.digest⟩, ?_, h.authorized, rfl, ?_⟩,
    fun hn ↦ absurd htakes hn⟩
  · simp [GatewayEventContract.next, h.source]
  · obtain ⟨row, hrow, hcap⟩ := hreserved
    refine ⟨f row, ?_, (hf row).1.trans hcap⟩
    rw [List.find?_map, hkeys, hrow]
    rfl

theorem execute_snd (hclaims : a.claims = .ok claims) {w₁ : World}
    (happend : w.append .fencedAuthorized (g.named claims) = (.ok (), w₁)) :
    (a.prepare claims = none ∧ (g.execute a w).2 = w₁) ∨
    ∃ outputDigest, a.prepare claims = some outputDigest ∧
      let reserved := g.reserve a claims outputDigest w₁.journal
      let w₂ : World := { w₁ with journal := reserved.2 }
      ((∃ decision, reserved.1 = .error decision) ∧ (g.execute a w).2 = w₂) ∨
      ∃ binding recovered, reserved.1 = .ok (binding, recovered) ∧
        (g.execute a w).2 = (g.dispatch a claims outputDigest binding recovered w₂).2 := by
  unfold execute
  rw [hclaims]
  simp only [happend]
  cases hprepare : a.prepare claims with
  | none => exact .inl ⟨rfl, rfl⟩
  | some outputDigest =>
    refine .inr ⟨outputDigest, rfl, ?_⟩
    dsimp only
    cases hreserve : (g.reserve a claims outputDigest w₁.journal).1 with
    | error decision => exact .inl ⟨⟨decision, rfl⟩, rfl⟩
    | ok pair => exact .inr ⟨pair.1, pair.2, rfl, rfl⟩

/-- A call that is verified while no story is open: its events are accepted, and it leaves a story
that is closed or one that will never be. -/
theorem attempt_of_ready (h : Ready g original w) (hall : w.AllAccepted)
    (hclaims : a.claims = .ok claims) (hcarries : claimOf a.message = some claims.capabilityId)
    (hfirst : w.contract.authorized = false → claims.capabilityId = w.contract.capabilityId)
    (hnew : ∀ row ∈ w.journal, row.capabilityId ≠ claims.capabilityId) :
    (g.attempt w a).AllAccepted ∧
    (∀ row ∈ (g.attempt w a).journal, row.capabilityId = claims.capabilityId ∨
      ∃ row' ∈ w.journal, row'.capabilityId = row.capabilityId) ∧
    (g.Closes w a →
      Ready g original (g.attempt w a) ∧ (g.attempt w a).contract.authorized = true) ∧
    (¬g.Closes w a → Stuck g original (g.attempt w a)) := by
  obtain ⟨event, contract, hopened, happend⟩ := h.opened hcarries hfirst
  have hall₁ : World.AllAccepted ⟨contract, w.journal, w.appended ++ [(event, true)]⟩ :=
    hall.concat event
  unfold attempt
  dsimp only
  -- without a prepared effect nothing is reserved, and the story that was opened stays open
  rcases execute_snd hclaims happend with ⟨hnone, hw⟩ | ⟨outputDigest, hprepare, hreserve⟩
  · rw [hw]
    refine ⟨hall₁, fun row hrow ↦ .inr ⟨row, hrow, rfl⟩, fun hcloses ↦ ?_, fun _ ↦
      Opened.stuck ⟨hopened.pinned, hopened.source, hopened.current, hopened.authorized,
        hopened.finished⟩⟩
    obtain ⟨claims', outputDigest, _, _, hclaims', hprepare, _⟩ := hcloses
    cases hclaims.symm.trans hclaims'
    cases hnone.symm.trans hprepare
  -- a reservation of the journal is of this capability or was there before
  have hcaps : ∀ row ∈ (g.reserve a claims outputDigest w.journal).2,
      row.capabilityId = claims.capabilityId ∨
        ∃ row' ∈ w.journal, row'.capabilityId = row.capabilityId := by
    intro row hrow
    exact (capabilityId_reserve hrow).symm.imp_right fun hmem ↦ ⟨row, hmem, rfl⟩
  have hcloses : g.Closes w a ↔ ∃ binding recovered,
      (g.reserve a claims outputDigest w.journal).1 = .ok (binding, recovered) ∧
      g.TakesReceipt a outputDigest binding (g.reserve a claims outputDigest w.journal).2 := by
    refine ⟨fun hcloses ↦ ?_, fun ⟨binding, recovered, hok, htakes⟩ ↦
      ⟨claims, outputDigest, binding, recovered, hclaims, hprepare, hok, htakes⟩⟩
    obtain ⟨claims', outputDigest', binding, recovered, hclaims', hprepare', hok, htakes⟩ := hcloses
    cases hclaims.symm.trans hclaims'
    cases hprepare.symm.trans hprepare'
    exact ⟨binding, recovered, hok, htakes⟩
  dsimp only at hreserve
  rcases hreserve with ⟨⟨decision, herror⟩, hw⟩ | ⟨binding, recovered, hok, hw⟩
  · rw [hw]
    refine ⟨hall₁, hcaps, fun h ↦ ?_, fun _ ↦
      Opened.stuck ⟨hopened.pinned, hopened.source, hopened.current, hopened.authorized,
        hopened.finished⟩⟩
    obtain ⟨binding, recovered, hok, _⟩ := hcloses.mp h
    cases herror.symm.trans hok
  have hfind := (reserve_eq_ok hok).2
  -- the effect goes by the original capability; under another one this is a recovery
  have hbinding : binding.capabilityId = original ∧
      (recovered = true ↔ claims.capabilityId ≠ binding.capabilityId) := by
    rcases reserve_cases hok with ⟨rfl, hfind⟩ | ⟨rfl, hnone, hcap⟩
    · have hne := hnew binding (List.mem_of_find?_eq_some hfind)
      exact ⟨h.reserved binding hfind, iff_of_true rfl fun heq ↦ hne heq.symm⟩
    · obtain ⟨hauthorized, horiginal⟩ := h.unreserved hnone
      exact ⟨hcap.trans ((hfirst hauthorized).trans horiginal),
        iff_of_false nofun fun hne ↦ hne hcap.symm⟩
  obtain ⟨haccepted, hkept, hclosed, hleft⟩ := dispatch_cases a outputDigest
    (w := ⟨contract, (g.reserve a claims outputDigest w.journal).2,
      w.appended ++ [(event, true)]⟩)
    ⟨hopened.pinned, hopened.source, hopened.current, hopened.authorized, hopened.finished⟩
    hall₁ ⟨binding, hfind, hbinding.1⟩ hbinding.1 hbinding.2
  rw [hw]
  refine ⟨haccepted, fun row hrow ↦ ?_, fun h ↦ ?_, fun h ↦ ?_⟩
  · obtain ⟨row', hmem, heq⟩ := hkept row hrow
    exact heq ▸ hcaps row' hmem
  · obtain ⟨binding', recovered', hok', htakes⟩ := hcloses.mp h
    cases hok.symm.trans hok'
    exact ⟨(hclosed htakes).ready, (hclosed htakes).authorized⟩
  · exact (hleft fun htakes ↦ h (hcloses.mpr ⟨binding, recovered, hok, htakes⟩)).stuck

theorem attempt_of_denied {e : Exn} (hcurrent : w.contract.currentCapability = none)
    (hdenied : a.claims = .error e) : g.attempt w a = w := by
  obtain ⟨contract, journal, appended⟩ := w
  obtain ⟨_, _, _, _, _, _, _, _, _, current⟩ := contract
  cases hcurrent
  simp [attempt, execute, hdenied, GatewayEventContract.beginRequest,
    GatewayEventContract.endRequest]

theorem not_allAccepted_of_stuck (h : Stuck g original w) (hclaims : a.claims = .ok claims)
    (hcarries : claimOf a.message = some claims.capabilityId) :
    ¬(g.attempt w a).AllAccepted := by
  obtain ⟨c, hc, hpinned, _, hcurrent, hauthorized, hfinished, _⟩ := h.toSettled.begun hcarries
  have hcheck := GatewayEventContract.check_eventWith .fencedAuthorized (g.named claims) hpinned
    nofun
  have hrefused : c.fits (GatewayEventContract.itemsOf (g.named claims)) .fencedAuthorized ≠ true :=
    fun hfits ↦ ((GatewayEventContract.authorizationFits_named hpinned hcurrent).mp hfits).1
      ⟨hauthorized.trans h.authorized, hfinished.trans h.finished⟩
  rw [if_neg hrefused] at hcheck
  intro hall
  have hmem : (GatewayEventContract.eventWith .fencedAuthorized (g.named claims), false) ∈
      (g.attempt w a).appended := by
    unfold attempt execute World.append
    rw [hclaims, hc]
    dsimp only
    rw [GatewayEventContract.eventWith] at hcheck ⊢
    rw [hcheck]
    exact List.mem_append_right _ (List.mem_singleton.mpr rfl)
  exact Bool.false_ne_true (hall _ hmem)

omit [Platform] in
theorem subset_appended_append (w : World) (kind : EventKind) (payload : List (String × PyValue)) :
    w.appended ⊆ (w.append kind payload).2.appended := List.subset_append_left _ _

omit [Platform] in
theorem subset_appended_dispatch :
    w.appended ⊆ (g.dispatch a claims outputDigest binding recovered w).2.appended := by
  rcases g.dispatch_snd a claims outputDigest binding recovered w with
    ⟨_, hw⟩ | ⟨receipt, observed, _, ⟨_, hw⟩ | ⟨_, hw⟩⟩
  · rw [hw]
    exact subset_appended_append w _ _
  · rw [hw]
    exact List.Subset.refl _
  · rw [hw]
    exact subset_appended_append { w with journal := _ } _ _

theorem subset_appended_attempt (g : FencedEffectRecoveryGateway) (w : World) (a : Attempt) :
    w.appended ⊆ (g.attempt w a).appended := by
  unfold attempt execute
  dsimp only
  split
  · exact List.Subset.refl _
  next claims _ =>
    refine List.Subset.trans (subset_appended_append
      { w with contract := (w.contract.beginRequest a.message).2 } .fencedAuthorized
      (g.named claims)) ?_
    generalize World.append { w with contract := (w.contract.beginRequest a.message).2 }
      .fencedAuthorized (g.named claims) = appended
    split
    · exact List.Subset.refl _
    split
    · exact List.Subset.refl _
    next outputDigest _ =>
      split
      · exact List.Subset.refl _
      · exact subset_appended_dispatch (w := { appended.2 with
          journal := (g.reserve a claims outputDigest appended.2.journal).2 })

end FencedEffectRecoveryGateway

/-! ## A run -/

/-- The capability of a call that the verifier accepts. -/
def Attempt.verified (a : Attempt) : Option PyStr := a.claims.toOption.map Claims.capabilityId

/-- The calls that are made in a world: a message carries the capability that is verified, the
verifier accepts no capability twice, and the first one is the pinned one. -/
structure Presented (w : World) (attempts : List Attempt) : Prop where
  carries : ∀ a ∈ attempts, ∀ claims, a.claims = .ok claims →
    claimOf a.message = some claims.capabilityId
  fresh : (attempts.filterMap Attempt.verified).Nodup
  unused : ∀ row ∈ w.journal, row.capabilityId ∉ attempts.filterMap Attempt.verified
  first : w.contract.authorized = false → ∀ capability,
    (attempts.filterMap Attempt.verified).head? = some capability →
      capability = w.contract.capabilityId

/-- Each call that is verified, and that a call follows that is verified too, closes its story. -/
def FencedEffectRecoveryGateway.EachCloses (g : FencedEffectRecoveryGateway) (w : World)
    (attempts : List Attempt) : Prop :=
  ∀ before a after, attempts = before ++ a :: after → a.verified ≠ none →
    after.filterMap Attempt.verified ≠ [] → g.Closes (g.run w before) a

theorem AllAccepted.of_run {attempts : List Attempt} (h : (g.run w attempts).AllAccepted) :
    w.AllAccepted := by
  induction attempts generalizing w with
  | nil => exact h
  | cons a rest ih =>
    exact fun f hf ↦ ih h f (FencedEffectRecoveryGateway.subset_appended_attempt g w a hf)

/-- Once a story is open for good, no further capability may be verified. -/
theorem Stuck.allAccepted_run_iff {original : PyStr} {attempts : List Attempt}
    (h : Stuck g original w) (hall : w.AllAccepted)
    (hcarries : ∀ a ∈ attempts, ∀ claims, a.claims = .ok claims →
      claimOf a.message = some claims.capabilityId) :
    (g.run w attempts).AllAccepted ↔ attempts.filterMap Attempt.verified = [] := by
  induction attempts with
  | nil => exact iff_of_true hall rfl
  | cons a rest ih =>
    cases hclaims : a.claims with
    | error e =>
      have hsame : g.run w (a :: rest) = g.run w rest := by
        rw [FencedEffectRecoveryGateway.run, List.foldl_cons,
          FencedEffectRecoveryGateway.attempt_of_denied h.current hclaims,
          FencedEffectRecoveryGateway.run]
      have hnone : a.verified = none := by rw [Attempt.verified, hclaims]; rfl
      rw [hsame, List.filterMap_cons_none hnone]
      exact ih fun a ha ↦ hcarries a (List.mem_cons_of_mem _ ha)
    | ok claims =>
      have hsome : a.verified = some claims.capabilityId := by rw [Attempt.verified, hclaims]; rfl
      rw [List.filterMap_cons_some hsome]
      refine iff_of_false (fun hrun ↦ ?_) (List.cons_ne_nil _ _)
      exact FencedEffectRecoveryGateway.not_allAccepted_of_stuck h hclaims
        (hcarries a List.mem_cons_self claims hclaims) (AllAccepted.of_run hrun)

theorem FencedEffectRecoveryGateway.eachCloses_cons {rest : List Attempt} :
    g.EachCloses w (a :: rest) ↔
      (a.verified ≠ none → rest.filterMap Attempt.verified ≠ [] → g.Closes w a) ∧
        g.EachCloses (g.attempt w a) rest := by
  constructor
  · exact fun h ↦ ⟨h [] a rest rfl, fun before a' after heq ↦
      h (a :: before) a' after (by rw [heq]; rfl)⟩
  · rintro ⟨hfirst, hrest⟩ before a' after heq
    cases before with
    | nil =>
      cases heq
      exact hfirst
    | cons b before =>
      cases heq
      exact hrest before a' after rfl

omit [Platform] in
theorem Presented.tail {rest : List Attempt} {w' : World} (h : Presented w (a :: rest))
    (hclaims : a.claims = .ok claims)
    (hjournal : ∀ row ∈ w'.journal, row.capabilityId = claims.capabilityId ∨
      ∃ row' ∈ w.journal, row'.capabilityId = row.capabilityId)
    (hauthorized : w'.contract.authorized = true) : Presented w' rest := by
  have hsome : a.verified = some claims.capabilityId := by rw [Attempt.verified, hclaims]; rfl
  have hfresh := h.fresh
  have hunused := h.unused
  rw [List.filterMap_cons_some hsome] at hfresh hunused
  refine ⟨fun a' ha ↦ h.carries a' (List.mem_cons_of_mem _ ha), (List.nodup_cons.mp hfresh).2,
    fun row hrow ↦ ?_, fun hnot ↦ absurd hauthorized (by simp [hnot])⟩
  rcases hjournal row hrow with heq | ⟨row', hmem, heq⟩
  · exact heq ▸ (List.nodup_cons.mp hfresh).1
  · exact heq ▸ fun hin ↦ hunused row' hmem (List.mem_cons_of_mem _ hin)

/-- A run from a world in which no story is open. -/
theorem Ready.allAccepted_run_iff {original : PyStr} {attempts : List Attempt}
    (h : Ready g original w) (hall : w.AllAccepted) (hpresented : Presented w attempts) :
    (g.run w attempts).AllAccepted ↔ g.EachCloses w attempts := by
  induction attempts generalizing w with
  | nil => exact iff_of_true hall fun before a after heq ↦ by simp at heq
  | cons a rest ih =>
    have hrun : g.run w (a :: rest) = g.run (g.attempt w a) rest := rfl
    rw [hrun, FencedEffectRecoveryGateway.eachCloses_cons]
    cases hclaims : a.claims with
    | error e =>
      have hnone : a.verified = none := by rw [Attempt.verified, hclaims]; rfl
      have hrest : Presented w rest := by
        have hfresh := hpresented.fresh
        have hunused := hpresented.unused
        have hfirst := hpresented.first
        rw [List.filterMap_cons_none hnone] at hfresh hunused hfirst
        exact ⟨fun a' ha ↦ hpresented.carries a' (List.mem_cons_of_mem _ ha), hfresh, hunused,
          hfirst⟩
      rw [FencedEffectRecoveryGateway.attempt_of_denied h.current hclaims, ih h hall hrest]
      exact (and_iff_right fun hsome ↦ absurd hnone hsome).symm
    | ok claims =>
      have hcarries := hpresented.carries a List.mem_cons_self claims hclaims
      have hsome : a.verified = some claims.capabilityId := by rw [Attempt.verified, hclaims]; rfl
      have hfirst : w.contract.authorized = false →
          claims.capabilityId = w.contract.capabilityId := fun hnot ↦
        hpresented.first hnot _ (by rw [List.filterMap_cons_some hsome]; rfl)
      have hnew : ∀ row ∈ w.journal, row.capabilityId ≠ claims.capabilityId := by
        intro row hrow heq
        refine hpresented.unused row hrow ?_
        rw [List.filterMap_cons_some hsome, heq]
        exact List.mem_cons_self
      obtain ⟨hall', hjournal, hcloses, hleft⟩ :=
        FencedEffectRecoveryGateway.attempt_of_ready h hall hclaims hcarries hfirst hnew
      by_cases hclose : g.Closes w a
      · obtain ⟨hready, hauthorized⟩ := hcloses hclose
        rw [ih hready hall' (hpresented.tail hclaims hjournal hauthorized)]
        exact (and_iff_right fun _ _ ↦ hclose).symm
      -- The story stays open, so what remains is accepted only if nothing more is verified.
      · rw [(hleft hclose).allAccepted_run_iff hall' fun a' ha ↦
          hpresented.carries a' (List.mem_cons_of_mem _ ha)]
        constructor
        · intro hnone
          refine ⟨fun _ hafter ↦ absurd hnone hafter, fun before a' after heq hsome' ↦ ?_⟩
          rw [heq, List.filterMap_append, List.append_eq_nil_iff] at hnone
          obtain ⟨cap, hcap⟩ := Option.ne_none_iff_exists'.mp hsome'
          rw [List.filterMap_cons_some hcap] at hnone
          exact absurd hnone.2 (List.cons_ne_nil _ _)
        · intro heach
          by_contra hafter
          exact hclose (heach.1 (by rw [hsome]; exact Option.some_ne_none _) hafter)

omit [Platform] in
theorem someText_eq_some {s t : PyStr} (h : someText (.str s) = some t) : t = s := by
  rw [someText] at h
  by_cases hs : s = []
  · rw [if_pos hs] at h
    cases h
  · rw [if_neg hs] at h
    exact (Option.some.inj h).symm

omit [Platform] in
theorem create_eq_ok {pid : PyValue} {digest requestId capability recipientId original : PyStr}
    {c : GatewayEventContract}
    (h : GatewayEventContract.create pid (.str digest) (.str requestId) (.str capability)
      (.str recipientId) (.str original) = .ok c) :
    ∃ n, c = ⟨some recipientId, some original, n, digest, requestId, capability, false, false,
      false, none⟩ := by
  unfold GatewayEventContract.create at h
  split at h
  · split at h
    · cases h
    dsimp only at h
    split at h
    · cases h
    split at h
    · cases h
    next requestId' hrequest =>
    split at h
    · cases h
    next capability' hcapability =>
    split at h
    · cases h
    next hrecipient =>
    split at h
    · cases h
    next horiginal =>
      obtain ⟨recipientId', hrecipientId⟩ : ∃ s, someText (.str recipientId) = some s :=
        Option.ne_none_iff_exists'.mp fun hnone ↦ hrecipient ⟨rfl, by rw [hnone]; rfl⟩
      obtain ⟨original', horiginalId⟩ : ∃ s, someText (.str original) = some s :=
        Option.ne_none_iff_exists'.mp fun hnone ↦ horiginal ⟨rfl, .inr hnone⟩
      cases h
      rw [hrecipientId, horiginalId, someText_eq_some hrequest, someText_eq_some hcapability,
        someText_eq_some hrecipientId, someText_eq_some horiginalId]
      exact ⟨_, rfl⟩
  · cases h

omit [Platform] in
theorem ready_of_create {pid : PyValue} {original capability : PyStr} {c : GatewayEventContract}
    {rows : List Effect}
    (hcreate : GatewayEventContract.create pid (.str g.requestDigest) (.str g.requestId)
      (.str capability) (.str g.recipientId) (.str original) = .ok c)
    (hreserved : ∀ row, rows.find? (fun row ↦ row.effectKey = g.effectKey) = some row →
      row.capabilityId = original)
    (hunreserved : rows.find? (fun row ↦ row.effectKey = g.effectKey) = none →
      capability = original) :
    Ready g original ⟨c, rows, []⟩ := by
  obtain ⟨n, rfl⟩ := create_eq_ok hcreate
  exact ⟨⟨⟨rfl, rfl, rfl⟩, rfl, rfl⟩, .inl rfl, hreserved, fun hnone ↦ ⟨rfl, hunreserved hnone⟩⟩

/-- **The contract accepts what an honest gateway submits exactly when its stories are closed.** A
supervisor has created a contract for the request and the recipient of its gateway and for the
capability that the effect was reserved for, or will be. Whatever fails in the calls of `execute`,
every event that the gateway appends is accepted if and only if each call whose capability was
verified has appended a closing event, the last such call apart. -/
theorem run_accepted_iff {pid : PyValue} {original capability : PyStr} {c : GatewayEventContract}
    {rows : List Effect}
    (hcreate : GatewayEventContract.create pid (.str g.requestDigest) (.str g.requestId)
      (.str capability) (.str g.recipientId) (.str original) = .ok c)
    (hreserved : ∀ row, rows.find? (fun row ↦ row.effectKey = g.effectKey) = some row →
      row.capabilityId = original)
    (hunreserved : rows.find? (fun row ↦ row.effectKey = g.effectKey) = none →
      capability = original)
    (attempts : List Attempt) (hpresented : Presented ⟨c, rows, []⟩ attempts) :
    (g.run ⟨c, rows, []⟩ attempts).AllAccepted ↔ g.EachCloses ⟨c, rows, []⟩ attempts :=
  (ready_of_create hcreate hreserved hunreserved).allAccepted_run_iff
    (fun _ hf ↦ (nomatch hf)) hpresented

end Calls

/-! ## A denial before the dispatch -/

namespace Sample

def gateway : FencedEffectRecoveryGateway where
  tenant := .ofString "default"
  environment := .ofString "synthetic"
  recipientId := .ofString "recipient"
  requestId := .ofString "dataset-read"
  requestDigest := List.replicate 64 (.scalar 'a')
  effectKey := List.replicate 64 (.scalar 'b')

/-- A contract that is pinned to the first capability of the request. -/
def pinned : GatewayEventContract where
  fencedRecipientId := some (.ofString "recipient")
  originalCapabilityId := some (.ofString "cap_original")
  pid := 4201
  digest := List.replicate 64 (.scalar 'a')
  requestId := .ofString "dataset-read"
  capabilityId := .ofString "cap_original"
  authorized := false
  dispatched := false
  finished := false
  currentCapability := none

theorem create_pinned : GatewayEventContract.create (.int 4201) (.str gateway.requestDigest)
    (.str gateway.requestId) (.str (.ofString "cap_original")) (.str gateway.recipientId)
    (.str (.ofString "cap_original")) = .ok pinned := by
  rfl

/-- A call with a capability that is verified. No receipt arrives. -/
def call (capability : String) (rule : Bool) : Attempt where
  message := .ofNamed [("capability", .ofNamed [("claims",
    .ofNamed [("capability_id", .str (.ofString capability))])])]
  claims := .ok ⟨.ofString capability, .int 512, List.replicate 64 (.scalar 'c'),
    by decide +kernel⟩
  rule := some (.ok rule)
  output := .ok (.str (.ofString "row"))
  reserveFault := .never
  observeFault := .never
  applied := .error ⟨.runtimeError, "recipient vanished"⟩
  observed := .ok none
  confirmFault := .never

theorem presented (rule rule' : Bool) : Presented ⟨pinned, [], []⟩
    [call "cap_original" rule, call "cap_fresh" rule'] where
  carries a ha claims hclaims := by
    simp only [List.mem_cons, List.not_mem_nil, or_false] at ha
    rcases ha with rfl | rfl
    all_goals
      cases hclaims
      rfl
  fresh := by
    change [PyStr.ofString "cap_original", PyStr.ofString "cap_fresh"].Nodup
    decide +kernel
  unused row hrow := by cases hrow
  first _ capability h := (Option.some.inj h).symm

theorem ready : Ready gateway (.ofString "cap_original") ⟨pinned, [], []⟩ :=
  ready_of_create create_pinned (fun _ h ↦ by cases h) fun _ ↦ rfl

theorem isHex_prepare :
    let _ := pythonPlatform
    ((call "cap_original" true).prepare ⟨.ofString "cap_original", .int 512,
      List.replicate 64 (.scalar 'c'), by decide +kernel⟩).map isHex = some true := by
  decide +kernel

end Sample

/-- A capability whose acknowledgement is lost, and a fresh one after it. -/
theorem run_accepted_iff_sample :
    let _ := pythonPlatform
    (Sample.gateway.run ⟨Sample.pinned, [], []⟩
      [Sample.call "cap_original" true, Sample.call "cap_fresh" true]).AllAccepted := by
  intro _
  refine (run_accepted_iff Sample.create_pinned (fun _ h ↦ by cases h) (fun _ ↦ rfl) _
    (Sample.presented true true)).mpr fun before a after heq _ hafter ↦ ?_
  match before, heq with
  | [], heq =>
    cases heq
    obtain ⟨outputDigest, hprepare, hhex⟩ := Option.map_eq_some_iff.mp Sample.isHex_prepare
    have hnone : Sample.gateway.corroborated (Sample.call "cap_original" true) outputDigest =
        none := rfl
    refine ⟨_, outputDigest, (Sample.gateway.expected _ outputDigest).row, false, rfl, hprepare,
      FencedEffectRecoveryGateway.reserve_nil rfl rfl ?_ rfl rfl (by decide +kernel),
      fun receipt observed hsome ↦ by cases hnone.symm.trans hsome⟩
    have hvalid : Journal.validate Sample.gateway.tenant Sample.gateway.environment
        Sample.gateway.effectKey (.ofString "cap_original") Sample.gateway.requestDigest
        (List.replicate 64 (.scalar 'c')) = .ok () := by
      decide +kernel
    have hrecipient : Sample.gateway.recipientId ≠ [] := by decide
    have hlength : Sample.gateway.recipientId.length ≤ 128 := by decide
    exact Journal.Reservation.check_eq_ok hvalid hrecipient hlength hhex
  | [_], heq =>
    cases heq
    exact absurd rfl hafter
  | _ :: _ :: _, heq => simp at heq

/-- The rule denies the first capability before the dispatch. Nothing closes its story, and the
fresh capability that should recover the effect is refused. -/
theorem not_run_accepted :
    let _ := pythonPlatform
    Presented ⟨Sample.pinned, [], []⟩
        [Sample.call "cap_original" false, Sample.call "cap_fresh" true] ∧
      ¬(Sample.gateway.run ⟨Sample.pinned, [], []⟩
        [Sample.call "cap_original" false, Sample.call "cap_fresh" true]).AllAccepted := by
  intro _
  refine ⟨Sample.presented false true, fun hall ↦ ?_⟩
  have heach := (Sample.ready.allAccepted_run_iff (fun _ hf ↦ by cases hf)
    (Sample.presented false true)).mp hall
  obtain ⟨claims, outputDigest, _, _, _, hprepare, _⟩ :=
    heach [] _ _ rfl (Option.some_ne_none _) (List.cons_ne_nil _ _)
  cases hprepare

end EventHorizon.Evidence
