import EventHorizon.Canonical.Encodable
import EventHorizon.Replay.Client

/-!
# The answers of the replay service

`_sign_response` of `ReferenceReplayService`, with which every answer of the service ends. What the
service decides is an argument here. The client verifies what a service with the pinned identity has
signed for its request, whenever the checkpoint continues the pinned one.
-/

namespace EventHorizon.Replay

open Broker (Ed25519 spellSignature)
open AuthenticatedReplayClient (Call Transport Verified)

variable [Platform] [Ed25519]

/-! ## Signing -/

/-- What `_sign_response` uses of the service. -/
structure ReferenceReplayService where
  serviceId : String
  privateKey : Ed25519.PrivateKey

/-- What the service has decided, with the checkpoint after it. -/
structure Decision where
  accepted : Bool
  status : String
  result : List (String × PyValue)
  epoch : ℤ
  pin : Pin
  respondedAt : ℤ

namespace ReferenceReplayService

variable (s : ReferenceReplayService)

def unsignedResponse (request : List (String × PyValue)) (requestDigest : String) (d : Decision) :
    List (String × PyValue) := [
  ("schema", .str (.ofString "event-horizon.replay-response.v1")),
  ("algorithm", .str (.ofString "Ed25519")),
  ("service_id", .str (.ofString s.serviceId)),
  ("server_key_id", .str (.ofString (replayKeyId (Ed25519.publicKey s.privateKey)))),
  ("epoch", .int d.epoch),
  ("checkpoint", .int d.pin.checkpoint),
  ("checkpoint_digest", .str (.ofString d.pin.digest)),
  ("request_id", (request.lookup "request_id").getD .none),
  ("request_digest", .str (.ofString requestDigest)),
  ("accepted", .bool d.accepted),
  ("status", .str (.ofString d.status)),
  ("result", .ofNamed d.result),
  ("responded_at", .int d.respondedAt)]

/-- The response with the signature of its canonical octets. -/
def signed (unsigned : List (String × PyValue)) (data : List ℕ) : List (String × PyValue) :=
  unsigned ++ [("signature", .str (.ofString (spellSignature (Ed25519.sign s.privateKey data))))]

/-- `_sign_response`. -/
def signResponse (request : List (String × PyValue)) (requestDigest : String) (d : Decision) :
    Except Exn PyValue := do
  let unsigned := s.unsignedResponse request requestDigest d
  let data ← (PyValue.ofNamed unsigned).canonicalBytes
  return .ofNamed (s.signed unsigned data)

/-- A transport to the service, when it decides so. -/
def answering (d : Decision) : Transport := fun request ↦ do
  let requestDigest ← (PyValue.ofNamed request).digest
  s.signResponse request requestDigest d

end ReferenceReplayService

/-! ## What can be signed -/

section Checks

omit [Platform] [Ed25519]

theorem requireScope_ofString {t label : String} (h : isScope t = true) :
    requireScope (.str (.ofString t)) label = .ok t := by
  rw [requireScope, textOf, PyStr.text?_ofString]
  exact if_pos h

theorem requireDigest_ofString {t label : String} (h : isDigest t = true) :
    requireDigest (.str (.ofString t)) label = .ok ⟨t, h⟩ := by
  rw [requireDigest, textOf, PyStr.text?_ofString]
  exact dif_pos h

end Checks

/-- The keys and the constants of requests and responses. -/
def protocolNames : List String := AuthenticatedReplayClient.operations ++
  AuthenticatedReplayClient.responseFields ++ [
  "Ed25519", "event-horizon.replay-request.v1", "event-horizon.replay-response.v1", "client_key_id",
  "expected_epoch", "expires_at", "issued_at", "minimum_checkpoint", "minimum_checkpoint_digest",
  "operation", "partition", "payload"]

omit [Ed25519] in
theorem isCanonicalString_name : ∀ k ∈ protocolNames, IsCanonicalString k := by
  have hname : ∀ k ∈ protocolNames,
      isAscii k = true ∧ k.toList.length ≤ maxCanonicalStringBytes := by decide +kernel
  exact fun k hk ↦ isCanonicalString_of_isAscii (hname k hk).1 (hname k hk).2

omit [Ed25519] in
theorem isCanonicalString_of_isScope {t : String} (h : isScope t = true) : IsCanonicalString t :=
  isCanonicalString_of_isAscii (isAscii_of_isScope h).1
    ((isAscii_of_isScope h).2.2.trans (by decide))

theorem isCanonicalString_spellSignature (key : Ed25519.PrivateKey) (data : List ℕ) :
    IsCanonicalString (spellSignature (Ed25519.sign key data)) := by
  have hsignature := Broker.isSignature_spellSignature (Ed25519.length_sign key data)
    (Ed25519.sign_lt key data)
  rw [isSignature, Bool.and_eq_true, beq_iff_eq] at hsignature
  refine isCanonicalString_of_isAscii (List.all_eq_true.mpr fun c hc ↦ ?_) ?_
  · have hmember := List.all_eq_true.mp hsignature.2 c hc
    exact decide_eq_true (Broker.lt_of_mem_base64UrlAlphabet (of_decide_eq_true hmember))
  · rw [hsignature.1]
    decide

theorem isCanonicalString_replayKeyId (key : Ed25519.PublicKey) :
    IsCanonicalString (replayKeyId key) := by
  obtain ⟨digits, hdigits, hkey⟩ : ∃ digits : String, isDigest digits = true ∧
      (replayKeyId key).toList = "ed25519:".toList ++ digits.toList.take 32 :=
    ⟨_, Platform.isDigest_sha256 _, String.toList_append.trans (congrArg _ String.toList_ofList)⟩
  refine isCanonicalString_of_isAscii ?_ ?_
  · rw [isAscii, hkey, List.all_append, Bool.and_eq_true]
    refine ⟨by decide, List.all_eq_true.mpr fun c hc ↦ ?_⟩
    exact List.all_eq_true.mp (isAscii_of_isDigest hdigits) c (List.mem_of_mem_take hc)
  · rw [hkey, List.length_append, List.length_take]
    have hname : "ed25519:".toList.length = 8 := rfl
    have hle : 40 ≤ maxCanonicalStringBytes := by decide
    omega

omit [Ed25519] in
/-- A dictionary whose keys and values are within the limits. -/
theorem canonicalizes_of_encodes {items : List (String × PyValue)}
    (hlength : items.length ≤ maxCanonicalItems)
    (h : ∀ f ∈ items, IsCanonicalString f.1 ∧ f.2.Canonicalizes 1) :
    (PyValue.ofNamed items).Canonicalizes 0 :=
  (PyValue.canonicalizes_ofNamed fun f hf ↦ (h f hf).1).mpr
    ⟨Nat.zero_le _, hlength, fun f hf ↦ ⟨by decide, (h f hf).2⟩⟩

namespace AuthenticatedReplayClient

variable {c : AuthenticatedReplayClient} {a : Call}

/-- What a call needs to be signed: an operation and a partition, a payload and numbers that have a
canonical form, and an identifier. -/
structure Signable (c : AuthenticatedReplayClient) (a : Call) : Prop where
  operation : ∃ t ∈ operations, a.operation = .str (.ofString t)
  partition : ∃ t, isScope t = true ∧ a.partition = .str (.ofString t)
  payload : ∃ items, a.payload = .dict items ∧ a.payload.Canonicalizes 1
  service : isScope c.serviceId = true
  identifier : IsCanonicalString (spellSignature a.token)
  epoch : 1 ≤ c.epoch
  numbers : ∀ n ∈ [a.nowMs, a.nowMs + c.lifetimeMs, c.epoch, c.pin.checkpoint],
    n.natAbs ≤ maxSafeInteger

theorem Signable.encodes (h : Signable c a) :
    ∀ f ∈ c.unsignedRequest a, IsCanonicalString f.1 ∧ f.2.Canonicalizes 1 := by
  obtain ⟨op, hop, hoperation⟩ := h.operation
  obtain ⟨scope, hscope, hpartition⟩ := h.partition
  obtain ⟨items, hitems, hpayload⟩ := h.payload
  have hkeys : ∀ f ∈ c.unsignedRequest a, f.1 ∈ protocolNames := by
    simp only [unsignedRequest, List.forall_mem_cons]
    decide
  have hnames : ∀ k ∈ ["event-horizon.replay-request.v1", "Ed25519", op], IsCanonicalString k := by
    simp only [List.forall_mem_cons]
    refine ⟨?_, ?_, isCanonicalString_name op ?_, fun _ h ↦ (by cases h)⟩
    · exact isCanonicalString_name _ (by decide)
    · exact isCanonicalString_name _ (by decide)
    · exact List.mem_append_left _ (List.mem_append_left _ hop)
  have hnumbers := h.numbers
  simp only [List.forall_mem_cons] at hnumbers hnames
  refine fun f hf ↦ ⟨isCanonicalString_name f.1 (hkeys f hf), ?_⟩
  revert f
  simp [unsignedRequest, hoperation, hpartition, hpayload, h.identifier, hnumbers, hnames,
    isCanonicalString_of_isScope h.service, isCanonicalString_of_isScope hscope,
    isCanonicalString_replayKeyId, isCanonicalString_of_isDigest c.pin.isDigest_digest,
    (by decide : 1 ≤ maxCanonicalDepth)]

/-- What is signed for a call that can be signed. -/
theorem Signable.exists_sign (h : Signable c a) :
    ∃ request, c.sign a = .ok request ∧
      request.lookup "request_id" = some (.str (.ofString (spellSignature a.token))) ∧
      ∃ x, (PyValue.ofNamed request).digest = .ok x := by
  have hlength : (c.unsignedRequest a).length ≤ maxCanonicalItems :=
    (by decide : 13 ≤ maxCanonicalItems)
  obtain ⟨data, hdata⟩ := PyValue.canonicalBytes_eq_ok.mpr
    (canonicalizes_of_encodes hlength h.encodes)
  obtain ⟨op, hop, hoperation⟩ := h.operation
  obtain ⟨scope, hscope, hpartition⟩ := h.partition
  obtain ⟨items, hitems, -⟩ := h.payload
  refine ⟨c.unsignedRequest a ++
    [("signature", .str (.ofString (spellSignature (Ed25519.sign c.signingKey data))))], ?_, rfl,
    PyValue.digest_eq_ok.mpr (canonicalizes_of_encodes ?_ ?_)⟩
  · refine raiseIf_bind_eq_ok.mpr ⟨?_, raiseIf_bind_eq_ok.mpr ⟨?_, ?_⟩⟩
    · rw [hoperation]
      exact Bool.noConfusion
    · intro hnone
      have hsame := hnone op hop
      rw [hoperation, PyValue.isText_iff.mpr rfl] at hsame
      cases hsame
    refine bind_eq_ok.mpr ⟨scope, ?_, ?_⟩
    · rw [hpartition, requireScope_ofString hscope]
    refine bind_eq_ok.mpr ⟨⟨_, h.epoch⟩, requireInteger_eq_ok.mpr rfl, ?_⟩
    refine bind_eq_ok.mpr ⟨⟨_, c.pin.nonneg⟩, requireInteger_eq_ok.mpr rfl, ?_⟩
    refine bind_eq_ok.mpr ⟨_, requireDigest_ofString c.pin.isDigest_digest, ?_⟩
    refine raiseIf_bind_eq_ok.mpr ⟨?_, bind_eq_ok.mpr ⟨data, hdata, rfl⟩⟩
    rw [hitems]
    exact Bool.noConfusion
  · exact (by decide : 14 ≤ maxCanonicalItems)
  · intro f hf
    obtain hf | hf := List.mem_append.mp hf
    · exact h.encodes f hf
    · rw [List.mem_singleton.mp hf]
      refine ⟨isCanonicalString_name "signature" (by decide), ?_⟩
      rw [PyValue.canonicalizes_str, PyStr.isCanonical_ofString]
      exact ⟨by decide, isCanonicalString_spellSignature _ _⟩

end AuthenticatedReplayClient

/-! ## What is answered -/

/-- A decision with texts, numbers and a result that have a canonical form. -/
structure Decision.Encodes (d : Decision) : Prop where
  status : IsCanonicalString d.status
  result : (PyValue.ofNamed d.result).Canonicalizes 1
  numbers : ∀ n ∈ [d.epoch, d.pin.checkpoint, d.respondedAt], n.natAbs ≤ maxSafeInteger

namespace ReferenceReplayService

variable {s : ReferenceReplayService} {c : AuthenticatedReplayClient} {d : Decision}
  {request : List (String × PyValue)} {requestId requestDigest : String}

/-- The service is the one that the client has pinned, and its checkpoint continues the one of the
client. -/
structure Pinned (s : ReferenceReplayService) (c : AuthenticatedReplayClient) (d : Decision) :
    Prop where
  service : c.serviceId = s.serviceId
  key : c.serverPublicKey = Ed25519.publicKey s.privateKey
  epoch : c.epoch = d.epoch
  continues : c.pin.le d.pin
  respondedAt : 0 ≤ d.respondedAt

omit [Platform] in
theorem unsignedItems_signed {unsigned : List (String × PyValue)} {data : List ℕ}
    (h : ∀ f ∈ unsigned, f.1 ≠ "signature") :
    AuthenticatedReplayClient.unsignedItems
        ((s.signed unsigned data).map fun f ↦ (.str (.ofString f.1), f.2)) =
      unsigned.map fun f ↦ (.str (.ofString f.1), f.2) := by
  rw [signed, List.map_append, AuthenticatedReplayClient.unsignedItems, List.filter_append,
    List.filter_eq_self.mpr]
  · simp
  · intro f hf
    obtain ⟨g, hg, rfl⟩ := List.mem_map.mp hf
    refine decide_eq_true fun heq ↦ h g hg ?_
    exact PyStr.ofString_injective (PyKey.str.inj heq)

/-- The signature is the one of the other items. -/
theorem verifySignature_signed {unsigned : List (String × PyValue)}
    {items : List (PyKey × PyValue)} {data : List ℕ}
    (hkey : c.serverPublicKey = Ed25519.publicKey s.privateKey)
    (hitems : AuthenticatedReplayClient.unsignedItems items =
      unsigned.map fun f ↦ (.str (.ofString f.1), f.2))
    (hdata : (PyValue.ofNamed unsigned).canonicalBytes = .ok data)
    (hsignature : PyValue.item items "signature" =
      .str (.ofString (spellSignature (Ed25519.sign s.privateKey data)))) :
    c.verifySignature items = .ok () := by
  have hlength := Ed25519.length_sign s.privateKey data
  have hoctets := Ed25519.sign_lt s.privateKey data
  rw [AuthenticatedReplayClient.verifySignature, hsignature, textOf, PyStr.text?_ofString]
  refine raiseIf_bind_eq_ok.mpr ⟨?_, ?_⟩
  · rw [Broker.isSignature_spellSignature hlength hoctets]
    exact Bool.noConfusion
  rw [Broker.decode_spellSignature hoctets]
  refine raiseIf_bind_eq_ok.mpr ⟨fun hne ↦ hne rfl, ?_⟩
  rw [hitems, ← PyValue.ofNamed, hdata]
  refine raiseIf_eq_ok.mpr ?_
  rw [hkey, Ed25519.verify_sign]
  exact Bool.noConfusion

/-- The client verifies what the service has signed for its request. -/
theorem verifyResponse_signed {data : List ℕ} (h : s.Pinned c d)
    (hid : request.lookup "request_id" = some (.str (.ofString requestId)))
    (hdigest : (PyValue.ofNamed request).digest = .ok requestDigest)
    (hdata : (PyValue.ofNamed (s.unsignedResponse request requestDigest d)).canonicalBytes =
      .ok data) :
    ∃ v, c.verifyResponse request
        (.ofNamed (s.signed (s.unsignedResponse request requestDigest d) data)) = .ok v ∧
      v.pin = d.pin ∧ PyValue.item v.items "status" = .str (.ofString d.status) := by
  have hitem : ∀ {k : String} {x : PyValue},
      (s.signed (s.unsignedResponse request requestDigest d) data).lookup k = some x →
      PyValue.item ((s.signed (s.unsignedResponse request requestDigest d) data).map
        fun f ↦ (.str (.ofString f.1), f.2)) k = x := by
    intro k x hx
    rw [PyValue.item_named, hx]
    rfl
  have hid' : (request.lookup "request_id").getD .none = .str (.ofString requestId) := by
    rw [hid]
    rfl
  have hsame : ∀ {t u : String}, t = u →
      (PyValue.str (.ofString u)).isText (.ofString t) ≠ false := by
    rintro t _ rfl
    rw [PyValue.isText_iff.mpr rfl]
    exact Bool.noConfusion
  refine ⟨⟨_, d.pin⟩, ?_, rfl, hitem rfl⟩
  rw [PyValue.ofNamed, AuthenticatedReplayClient.verifyResponse]
  -- the checks of `_verify_response`, in their order
  refine raiseIf_bind_eq_ok.mpr ⟨?_, raiseIf_bind_eq_ok.mpr ⟨?_, raiseIf_bind_eq_ok.mpr ⟨?_,
    raiseIf_bind_eq_ok.mpr ⟨?_, raiseIf_bind_eq_ok.mpr ⟨?_, bind_eq_ok.mpr ⟨_, hdigest,
    raiseIf_bind_eq_ok.mpr ⟨?_, raiseIf_bind_eq_ok.mpr ⟨?_, ?_⟩⟩⟩⟩⟩⟩⟩⟩
  · rw [PyValue.hasExactKeys_named]
    exact (by decide : ¬true = false)
  · rw [hitem rfl, hitem rfl]
    exact not_or.mpr ⟨hsame rfl, hsame rfl⟩
  · rw [hitem rfl]
    exact hsame h.service
  · rw [hitem rfl, h.key]
    exact hsame rfl
  · rw [hitem rfl, hid', AuthenticatedReplayClient.answers, hid]
    exact hsame rfl
  · rw [hitem rfl]
    exact hsame rfl
  · rw [hitem rfl, PyValue.isInt, h.epoch, decide_eq_true rfl]
    exact Bool.noConfusion
  refine bind_eq_ok.mpr ⟨⟨_, d.pin.nonneg⟩, requireInteger_eq_ok.mpr (hitem rfl), ?_⟩
  refine bind_eq_ok.mpr ⟨⟨_, d.pin.isDigest_digest⟩, ?_, ?_⟩
  · rw [hitem rfl]
    exact requireDigest_ofString d.pin.isDigest_digest
  refine raiseIf_bind_eq_ok.mpr ⟨?_, raiseIf_bind_eq_ok.mpr ⟨?_, ?_⟩⟩
  -- the service is not behind the pin, and has its digest when it is at the pin
  · obtain hlt | heq := h.continues
    · exact not_lt.mpr hlt.le
    · rw [heq]
      exact lt_irrefl _
  · rintro ⟨heq, hne⟩
    obtain hlt | hpin := h.continues
    · exact absurd heq hlt.ne'
    · exact hne (congrArg Pin.digest hpin.symm)
  rw [hitem (k := "accepted") rfl, hitem (k := "status") rfl]
  refine raiseIf_bind_eq_ok.mpr ⟨?_, ?_⟩
  · rw [hitem rfl]
    exact Bool.noConfusion
  refine bind_eq_ok.mpr ⟨⟨_, h.respondedAt⟩, requireInteger_eq_ok.mpr (hitem rfl), ?_⟩
  refine bind_eq_ok.mpr ⟨(), ?_, rfl⟩
  have hnames : ∀ f ∈ s.unsignedResponse request requestDigest d, f.1 ≠ "signature" := by
    simp only [unsignedResponse, List.forall_mem_cons]
    decide
  exact verifySignature_signed h.key (unsignedItems_signed hnames) hdata (hitem rfl)

theorem encodes_unsignedResponse (hd : d.Encodes)
    (hservice : isScope s.serviceId = true)
    (hid : request.lookup "request_id" = some (.str (.ofString requestId)))
    (hidentifier : IsCanonicalString requestId) (hdigest : isDigest requestDigest = true) :
    ∀ f ∈ s.unsignedResponse request requestDigest d,
      IsCanonicalString f.1 ∧ f.2.Canonicalizes 1 := by
  have hkeys : ∀ f ∈ s.unsignedResponse request requestDigest d, f.1 ∈ protocolNames := by
    simp only [unsignedResponse, List.forall_mem_cons]
    decide
  have hnames : ∀ k ∈ ["event-horizon.replay-response.v1", "Ed25519"], IsCanonicalString k := by
    simp only [List.forall_mem_cons]
    refine ⟨?_, ?_, fun _ h ↦ (by cases h)⟩
    · exact isCanonicalString_name _ (by decide)
    · exact isCanonicalString_name _ (by decide)
  have hnumbers := hd.numbers
  simp only [List.forall_mem_cons] at hnumbers hnames
  refine fun f hf ↦ ⟨isCanonicalString_name f.1 (hkeys f hf), ?_⟩
  revert f
  simp [unsignedResponse, hid, hidentifier, hd.status, hd.result, hnumbers,
    hnames, isCanonicalString_of_isScope hservice, isCanonicalString_replayKeyId,
    isCanonicalString_of_isDigest hdigest, isCanonicalString_of_isDigest d.pin.isDigest_digest,
    (by decide : 1 ≤ maxCanonicalDepth)]

/-- **What the service answers is verified**, with the checkpoint and the status of its decision. -/
theorem exchange_answering {a : Call} (h : s.Pinned c d) (hd : d.Encodes)
    (ha : c.Signable a) :
    ∃ v, c.exchange a (s.answering d) = .ok v ∧ v.pin = d.pin ∧
      PyValue.item v.items "status" = .str (.ofString d.status) := by
  obtain ⟨request, hsign, hid, requestDigest, hdigest⟩ := ha.exists_sign
  have hservice : isScope s.serviceId = true := h.service ▸ ha.service
  have hrequest : isDigest requestDigest = true := by
    obtain ⟨bytes, -, rfl⟩ := map_eq_ok.mp hdigest
    exact Platform.isDigest_sha256 bytes
  have hencodes := encodes_unsignedResponse hd hservice hid ha.identifier hrequest
  have hlength : (s.unsignedResponse request requestDigest d).length ≤ maxCanonicalItems :=
    (by decide : 13 ≤ maxCanonicalItems)
  obtain ⟨data, hdata⟩ := PyValue.canonicalBytes_eq_ok.mpr
    (canonicalizes_of_encodes hlength hencodes)
  obtain ⟨v, hv, hpin, hstatus⟩ := verifyResponse_signed h hid hdigest hdata
  refine ⟨v, bind_eq_ok.mpr ⟨request, hsign, ?_⟩, hpin, hstatus⟩
  have hanswer : s.answering d request = .ok (.ofNamed
      (s.signed (s.unsignedResponse request requestDigest d) data)) :=
    bind_eq_ok.mpr ⟨requestDigest, hdigest, bind_eq_ok.mpr ⟨data, hdata, rfl⟩⟩
  rw [hanswer]
  exact hv

end ReferenceReplayService

end EventHorizon.Replay
