import EventHorizon.Protocol.Serve

/-!
# Every frame is answered

A server owes its peer one response for each complete frame, and may stop only at the end of the
input, at a size that is not allowed, at a header that is cut off, or at its request limit
(`Serves`). It does so exactly when every frame it gets to is `Clean`: what is raised while the
frame is handled can itself be reported, and the result of a handler fits into a frame.
-/

namespace EventHorizon.Protocol

/-! ## What a server owes its peer -/

/-- What comes next on a stream. -/
inductive Inbound
  | frame (payload : List ℕ)
  /-- Nothing more, or a body that is cut off. -/
  | ended
  | badSize
  | truncatedHeader
  deriving DecidableEq, Repr

def inbound (data : List ℕ) : Inbound :=
  if data = [] then .ended
  else if data.length < 4 then .truncatedHeader
  else
    let size := unpackLength (data.take 4)
    if size = 0 ∨ maxFrameBytes < size then .badSize
    else if (data.drop 4).length < size then .ended
    else .frame ((data.drop 4).take size)

/-- What is left after a frame. -/
def afterFrame (data payload : List ℕ) : List ℕ := data.drop (4 + payload.length)

section Specification

variable [Platform] [FloatReader] (server : StrictRpcServer) (clock : Clock)

/-- The frame of an error response. -/
def IsErrorFrame (b : List ℕ) : Prop :=
  ∃ rid e, encodeFrame maxFrameBytes (errorResponse rid e) = .ok b

/-- The frame of a response. -/
def IsResponseFrame (b : List ℕ) : Prop :=
  IsErrorFrame b ∨ ∃ rid body, encodeFrame maxFrameBytes (successResponse rid body) = .ok b

/-- A payload is a request that counts against the limit: `validate_request` accepts it. -/
def counts (i : ℕ) (payload : List ℕ) : Bool :=
  match decodePayload payload with
  | .ok (.dict message) =>
    match validateRequest server.specs (clock.validated i) i message with
    | .ok _ => true
    | .error _ => false
  | _ => false

/-- A run from turn `i` on, with so many requests handled, that reads the given bytes and does what
is owed: it returns, answers each frame once, and stops for one of the four reasons. -/
inductive Serves : ℕ → ℕ → List ℕ → Run → Prop
  | ended {i handled data} (hlimit : handled < server.maxRequests)
      (hdata : inbound data = .ended) : Serves i handled data ⟨[[]], [], .returned⟩
  | refused {i handled data b} (hlimit : handled < server.maxRequests)
      (hdata : inbound data = .badSize ∨ inbound data = .truncatedHeader) (hb : IsErrorFrame b) :
      Serves i handled data ⟨[[b]], [], .returned⟩
  | limit {i handled data b} (hlimit : handled = server.maxRequests) (hb : IsErrorFrame b) :
      Serves i handled data ⟨[], [b], .returned⟩
  | answered {i handled data payload b run} (hlimit : handled < server.maxRequests)
      (hdata : inbound data = .frame payload) (hb : IsResponseFrame b)
      (hrun : Serves (i + 1) (handled + (counts server clock i payload).toNat)
        (afterFrame data payload) run) :
      Serves i handled data ⟨[b] :: run.turns, run.closing, run.outcome⟩

/-! ## When it does -/

/-- An error whose response can be sent in answer to a request: the texts are in normal form C and
have no surrogate, and the response is not too long. -/
def Sendable (rid : PyStr) (e : ProtocolError) : Prop :=
  ∃ r c m, rid = PyStr.ofString r ∧ e.code = PyStr.ofString c ∧
    e.message.take 512 = PyStr.ofString m ∧ IsCanonicalString r ∧ IsCanonicalString c ∧
    IsCanonicalString m ∧ (spellString r).length + (spellString c).length +
      (spellString m).length + errorFrameBytes ≤ maxFrameBytes

/-- What an authorizer or a handler may raise: no `EOFError`, no `BaseException`, and no
`ProtocolError` that has one of the codes of the transport or cannot be sent. -/
def Tolerable (rid : PyStr) : Raised → Prop
  | .exception _ => True
  | .protocol e => e.code ∉ closingCodes ∧ Sendable rid e
  | .eof | .base => False

/-- What a handler may return: the name of a type that cannot be sent can be reported, and a result
that can be sent fits into a frame. -/
structure Deliverable (rid : PyStr) (body : List (PyKey × PyValue)) : Prop where
  named : ∀ name, validateValue 0 (successResponse rid body) = .error (unsupported name) →
    Plain ((PyStr.ofString name).take 488)
  fits : validateValue 0 (successResponse rid body) = .ok () →
    ∀ b, (successResponse rid body).canonicalBytes = .ok b → b.length ≤ maxFrameBytes

/-- A frame that can be answered. A key that is repeated is named in the answer; what the authorizer
and the handler raise is reported in it; and the result of the handler is put into it. -/
structure Clean (i : ℕ) (payload : List ℕ) : Prop where
  repeated : ∀ key, decodePayload payload = .error (duplicateField key) → Plain (key.take 495)
  authorizer : ∀ message call r, decodePayload payload = .ok (.dict message) →
    checkRequest server.specs (clock.validated i) message = .ok call →
    call.authorize i = .error r → Tolerable call.requestId r
  handler : ∀ message call r, decodePayload payload = .ok (.dict message) →
    validateRequest server.specs (clock.validated i) i message = .ok call →
    call.spec.handler i call.body = .error r → Tolerable call.requestId r
  result : ∀ message call body, decodePayload payload = .ok (.dict message) →
    validateRequest server.specs (clock.validated i) i message = .ok call →
    call.spec.handler i call.body = .ok (.dict body) → clock.finished i ≤ call.deadline →
    Deliverable call.requestId body

/-- From one turn to the next, as long as there is a frame to read: the number of the turn, the
requests handled and the bytes that are left. -/
inductive Follows : ℕ × ℕ × List ℕ → ℕ × ℕ × List ℕ → Prop
  | frame {i handled data payload} (hlimit : handled < server.maxRequests)
      (hdata : inbound data = .frame payload) :
      Follows (i, handled, data) (i + 1, handled + (counts server clock i payload).toNat,
        afterFrame data payload)

/-- Every frame that the server gets to is clean. -/
def AllClean (i handled : ℕ) (data : List ℕ) : Prop :=
  ∀ i' handled' data' payload,
    Relation.ReflTransGen (Follows server clock) (i, handled, data) (i', handled', data') →
    handled' < server.maxRequests → inbound data' = .frame payload →
    Clean server clock i' payload

end Specification

/-! ## Reading -/

section Reading

variable [Platform] [FloatReader] {src : Source}

theorem readFrame_inbound (src : Source) :
    match inbound src.data with
    | .ended => (readFrame maxFrameBytes src).1 = .error .eof
    | .badSize =>
      (readFrame maxFrameBytes src).1 = .error (refusal "frame_limit" "frame byte limit exceeded")
    | .truncatedHeader =>
      (readFrame maxFrameBytes src).1 = .error (refusal "truncated_frame" "incomplete frame header")
    | .frame payload => (readFrame maxFrameBytes src).1 = decodePayload payload ∧
      (readFrame maxFrameBytes src).2.data = afterFrame src.data payload := by
  have hheader : src.readHeader.1 = src.data.take 4 := rfl
  rw [inbound, readFrame]
  simp only [hheader]
  by_cases hnil : src.data = []
  · rw [if_pos hnil, if_pos (by rw [hnil]; rfl)]
  have hne : src.data.take 4 ≠ [] := by simpa using hnil
  have hlen : (src.data.take 4).length = min 4 src.data.length := List.length_take
  rw [if_neg hnil, if_neg hne]
  by_cases hshort : src.data.length < 4
  · have hlen4 : (src.data.take 4).length ≠ 4 := by omega
    rw [if_pos hshort, if_pos hlen4]
  have hlen4 : ¬(src.data.take 4).length ≠ 4 := by omega
  rw [if_neg hshort, if_neg hlen4]
  by_cases hsize : unpackLength (src.data.take 4) = 0 ∨
    maxFrameBytes < unpackLength (src.data.take 4)
  · rw [if_pos hsize, if_pos hsize]
  rw [if_neg hsize, if_neg hsize]
  by_cases hbody : (src.data.drop 4).length < unpackLength (src.data.take 4)
  · rw [if_pos hbody]
    have hnone := @Source.readExact_of_lt src.readHeader.2 _ hbody
    generalize src.readHeader.2.readExact (unpackLength (src.data.take 4)) = r at hnone
    obtain ⟨body, src'⟩ := r
    simp only at hnone
    subst hnone
    rfl
  · rw [if_neg hbody]
    obtain ⟨hsome, hrest⟩ := @Source.readExact_of_le src.readHeader.2 _ (not_lt.mp hbody)
    have htake : ((src.data.drop 4).take (unpackLength (src.data.take 4))).length =
        unpackLength (src.data.take 4) := List.length_take_of_le (not_lt.mp hbody)
    generalize src.readHeader.2.readExact (unpackLength (src.data.take 4)) = r at hsome hrest
    obtain ⟨body, src'⟩ := r
    simp only at hsome hrest
    subst hsome
    refine ⟨rfl, ?_⟩
    rw [afterFrame, htake]
    exact hrest.trans List.drop_drop

end Reading

/-! ## Settling a turn -/

section Settling

variable [Platform] {rid : PyStr} {r : Raised}

/-- A turn is answered with one response, and the loop goes on. -/
def Settles (answer : List (List ℕ) × Next) : Prop :=
  ∃ b, answer = ([b], .again) ∧ IsResponseFrame b

theorem settles_ok {b : List ℕ} (h : IsResponseFrame b) : Settles (settle rid (.ok b)) :=
  ⟨b, rfl, h⟩

/-- The request ids that responses carry. -/
def IsRequestId (rid : PyStr) : Prop := Plain rid ∧ rid.length ≤ 128

theorem isRequestId_unavailable : IsRequestId unavailable :=
  ⟨Plain.of_isAscii (by decide), by decide⟩

theorem exists_encodeFrame_own {e : ProtocolError} (hrid : IsRequestId rid)
    (h : e ∈ [serviceFailure, requestLimit]) :
    ∃ b, encodeFrame maxFrameBytes (errorResponse rid e) = .ok b := by
  have hown : ∃ code message, e = ⟨.ofString code, .ofString message⟩ ∧ isAscii code = true ∧
      code.toList.length ≤ 64 ∧ isAscii message = true ∧ message.toList.length ≤ 512 := by
    rcases List.mem_pair.mp h with rfl | rfl
    · exact ⟨_, _, rfl, by decide, by decide, by decide, by decide⟩
    · exact ⟨_, _, rfl, by decide, by decide, by decide, by decide⟩
  obtain ⟨code, message, rfl, hcode, hshort, hmessage, hlen⟩ := hown
  refine exists_encodeFrame_of_plain hrid.1 hrid.2 (Plain.of_isAscii hcode)
    ((List.length_map _).trans_le hshort) ?_
  have htake : (PyStr.ofString message).take 512 = PyStr.ofString message :=
    List.take_of_length_le ((List.length_map _).trans_le hlen)
  exact htake.symm ▸ Plain.of_isAscii hmessage

/-- The turn is answered exactly when what was raised is tolerable. -/
theorem settles_error (hrid : IsRequestId rid) :
    Settles (settle rid (.error r)) ↔ Tolerable rid r := by
  cases r with
  | eof => exact ⟨fun ⟨b, h, _⟩ ↦ (nomatch h), fun h ↦ h.elim⟩
  | base => exact ⟨fun ⟨b, h, _⟩ ↦ (nomatch h), fun h ↦ h.elim⟩
  | exception e =>
    obtain ⟨b, hb⟩ := exists_encodeFrame_own hrid (e := serviceFailure) (by simp)
    refine ⟨fun _ ↦ trivial, fun _ ↦ ⟨b, ?_, .inl ⟨_, _, hb⟩⟩⟩
    rw [settle, hb]
  | protocol e =>
    rw [settle, Tolerable, Sendable, ← exists_encodeFrame_errorResponse]
    cases hb : encodeFrame maxFrameBytes (errorResponse rid e) with
    | error r =>
      constructor
      · rintro ⟨b, h, -⟩
        cases h
      · rintro ⟨-, b, h⟩
        cases h
    | ok b =>
      by_cases hcode : e.code ∈ closingCodes
      · rw [if_pos hcode]
        exact ⟨fun ⟨b', h, _⟩ ↦ (nomatch (Prod.ext_iff.mp h).2), fun h ↦ absurd hcode h.1⟩
      · rw [if_neg hcode]
        exact ⟨fun _ ↦ ⟨hcode, b, rfl⟩, fun _ ↦ ⟨b, rfl, .inl ⟨_, _, hb⟩⟩⟩

theorem tolerable_of_reportable (hrid : IsRequestId rid) (h : r.Reportable) : Tolerable rid r := by
  cases r with
  | eof | base => exact h
  | exception e => trivial
  | protocol e =>
    refine ⟨h.continues, exists_encodeFrame_errorResponse.mp ?_⟩
    exact exists_encodeFrame_of_plain hrid.1 hrid.2 h.plain h.short h.message

variable [NormalForm]

theorem tolerable_labelled (hrid : IsRequestId rid) (code label : String) {n : ℕ}
    (hcode : isAscii code = true ∧ code.toList.length ≤ 64 ∧ PyStr.ofString code ∉ closingCodes)
    (hlabel : isAscii label = true) (hn : label.length + 1 + n = 512) {s : PyStr} :
    Tolerable rid (.protocol ⟨.ofString code, .ofString (label ++ " ") ++ s⟩) ↔
      Plain (s.take n) := by
  rw [← plain_take_append hlabel s n, hn]
  constructor
  · rintro ⟨-, -, -, m, -, -, hm, -, -, hcanon, -⟩
    exact ⟨m, hm, hcanon.1⟩
  · intro h
    exact ⟨hcode.2.2, exists_encodeFrame_errorResponse.mp (exists_encodeFrame_of_plain hrid.1
      hrid.2 (Plain.of_isAscii hcode.1) ((List.length_map _).trans_le hcode.2.1) h)⟩

/-- A repeated key can be reported exactly when its first characters can be sent. -/
theorem tolerable_duplicateField (hrid : IsRequestId rid) {key : PyStr} :
    Tolerable rid (duplicateField key) ↔ Plain (key.take 495) :=
  tolerable_labelled hrid "duplicate_field" "duplicate field:"
    (by decide +kernel) (by decide +kernel) rfl

theorem tolerable_unsupported (hrid : IsRequestId rid) {name : String} :
    Tolerable rid (unsupported name) ↔ Plain ((PyStr.ofString name).take 488) := by
  have hname : unsupported name = .protocol ⟨.ofString "invalid_type",
      PyStr.ofString ("unsupported JSON value:" ++ " ") ++ PyStr.ofString name⟩ := by
    simp [unsupported, refusal, PyStr.ofString]
  rw [hname]
  exact tolerable_labelled hrid "invalid_type" "unsupported JSON value:"
    (by decide +kernel) (by decide +kernel) rfl

end Settling

/-! ## Requests -/

section Requests

variable [Platform] {message : List (PyKey × PyValue)}

theorem validateValue_lookup (h : validateValue 0 (.dict message) = .ok ()) {key : PyKey}
    {v : PyValue} (hv : message.lookup key = some v) : validateValue 1 v = .ok () := by
  have hfields : validateFields 1 message = .ok () → validateValue 1 v = .ok () := by
    clear h
    intro h
    induction message with
    | nil => cases hv
    | cons f message ih =>
      obtain ⟨k, x⟩ := f
      cases k with
      | other => cases h
      | str k =>
        rw [validateFields] at h
        obtain ⟨⟨⟩, -, h⟩ := bind_eq_ok.mp h
        obtain ⟨⟨⟩, hx, h⟩ := bind_eq_ok.mp h
        rw [List.lookup_cons] at hv
        split at hv
        · cases hv
          exact hx
        · exact ih hv h
  rw [validateValue] at h
  split at h
  · cases h
  split at h
  · cases h
  · exact hfields h

theorem plain_of_lookup (h : validateValue 0 (.dict message) = .ok ()) {key : PyKey} {s : PyStr}
    (hs : message.lookup key = some (.str s)) : Plain s := by
  have htext := validateValue_lookup h hs
  rw [validateValue] at htext
  obtain ⟨-, t, ht, hcanon⟩ := validateText_eq_ok.mp htext
  exact ⟨t, ht, hcanon.1⟩

omit [Platform] in
theorem envelopeField_eq_ok {key : String} {v : PyValue} :
    envelopeField message key = .ok v ↔ message.lookup (.str (.ofString key)) = some v := by
  rw [envelopeField]
  cases message.lookup (.str (.ofString key)) with
  | none => exact ⟨fun h ↦ (nomatch h), fun h ↦ (nomatch h)⟩
  | some w => exact
      ⟨fun h ↦ congrArg some (Except.ok.inj h), fun h ↦ congrArg _ (Option.some.inj h)⟩

omit [Platform] in
theorem requestId_of_checkRequest {specs : List (PyStr × MessageSpec)} {now : ℤ} {call : Call}
    (h : checkRequest specs now message = .ok call) :
    message.lookup (.str (.ofString "request_id")) = some (.str call.requestId) ∧
      call.requestId ≠ [] ∧ call.requestId.length ≤ 128 := by
  rw [checkRequest] at h
  obtain ⟨typeField, -, h⟩ := bind_eq_ok.mp h
  obtain ⟨idField, hfield, h⟩ := bind_eq_ok.mp h
  obtain ⟨deadlineField, -, h⟩ := bind_eq_ok.mp h
  obtain ⟨bodyField, -, h⟩ := bind_eq_ok.mp h
  obtain ⟨messageType, -, h⟩ := bind_eq_ok.mp h
  obtain ⟨requestId, hid, h⟩ := bind_eq_ok.mp h
  obtain ⟨deadline, -, h⟩ := bind_eq_ok.mp h
  obtain ⟨body, -, h⟩ := bind_eq_ok.mp h
  have hstr : idField = .str requestId ∧ requestId ≠ [] ∧ requestId.length ≤ 128 := by
    unfold requestIdOf at hid
    split at hid
    · split at hid
      · cases hid
      case isFalse hs =>
      cases hid
      rw [not_or, not_lt] at hs
      exact ⟨rfl, hs⟩
    · cases hid
  have hcall : call.requestId = requestId := by
    split at h
    · cases h
    · obtain ⟨-, h⟩ := raiseIf_bind_eq_ok.mp h
      obtain ⟨-, h⟩ := raiseIf_bind_eq_ok.mp h
      obtain ⟨-, h⟩ := raiseIf_bind_eq_ok.mp h
      obtain ⟨-, h⟩ := raiseIf_bind_eq_ok.mp h
      obtain ⟨authorization, -, h⟩ := bind_eq_ok.mp h
      cases h
      rfl
  rw [hcall, envelopeField_eq_ok.mp hfield, hstr.1]
  exact ⟨rfl, hstr.2⟩

omit [Platform] in
theorem candidateId_of_checkRequest {specs : List (PyStr × MessageSpec)} {now : ℤ} {call : Call}
    (h : checkRequest specs now message = .ok call) : candidateId message = call.requestId := by
  obtain ⟨hlookup, hne, hlen⟩ := requestId_of_checkRequest h
  rw [candidateId, hlookup]
  simp only
  rw [if_neg hne, List.take_of_length_le hlen]

theorem isRequestId_of_checkRequest {specs : List (PyStr × MessageSpec)} {now : ℤ} {call : Call}
    (hvalid : validateValue 0 (.dict message) = .ok ())
    (h : checkRequest specs now message = .ok call) : IsRequestId call.requestId := by
  obtain ⟨hlookup, -, hlen⟩ := requestId_of_checkRequest h
  exact ⟨plain_of_lookup hvalid hlookup, hlen⟩

variable [NormalForm]

/-- What is raised before the authorizer is called can be reported. -/
theorem raisesOnly_checkRequest (h : validateValue 0 (.dict message) = .ok ())
    (specs : List (PyStr × MessageSpec)) (now : ℤ) :
    RaisesOnly Raised.Reportable (checkRequest specs now message) := by
  have hfield : ∀ key, RaisesOnly Raised.Reportable (envelopeField message key) := by
    intro key
    rw [envelopeField]
    split
    · exact raisesOnly_error (reportable_of_isAscii (by decide +kernel))
    · exact raisesOnly_ok
  refine (hfield _).bind fun typeField htype ↦ ?_
  refine (hfield _).bind fun idField _ ↦ (hfield _).bind fun deadlineField _ ↦ ?_
  refine (hfield _).bind fun bodyField _ ↦ ?_
  refine RaisesOnly.bind ?_ fun messageType hmessageType ↦ ?_
  · unfold messageTypeOf
    split
    · split
      · exact raisesOnly_error (reportable_of_isAscii (by decide +kernel))
      · exact raisesOnly_ok
    · exact raisesOnly_error (reportable_of_isAscii (by decide +kernel))
  -- the type is a text of the validated message, so errors that quote it can be sent
  have hplain : Plain messageType := by
    unfold messageTypeOf at hmessageType
    split at hmessageType
    · split at hmessageType
      · cases hmessageType
      · cases hmessageType
        exact plain_of_lookup h (envelopeField_eq_ok.mp htype)
    · cases hmessageType
  refine RaisesOnly.bind ?_ fun requestId _ ↦ RaisesOnly.bind ?_ fun deadline _ ↦
    RaisesOnly.bind ?_ fun body _ ↦ ?_
  · unfold requestIdOf
    split
    · split
      · exact raisesOnly_error (reportable_of_isAscii (by decide +kernel))
      · exact raisesOnly_ok
    · exact raisesOnly_error (reportable_of_isAscii (by decide +kernel))
  · unfold deadlineOf
    split
    · exact raisesOnly_ok
    · exact raisesOnly_error (reportable_of_isAscii (by decide +kernel))
  · unfold bodyOf
    split
    · exact raisesOnly_ok
    · exact raisesOnly_error (reportable_of_isAscii (by decide +kernel))
  split
  · exact raisesOnly_error (reportable_protocol (by decide +kernel)
      (hplain.labelled "unknown message type:" (by decide)))
  case h_2 spec _ =>
  refine (raisesOnly_raiseIf fun _ ↦ ?_).bind fun _ _ ↦ ?_
  · cases spec.authorizer.isSome
    · exact reportable_of_isAscii (by decide +kernel)
    · exact reportable_of_isAscii (by decide +kernel)
  refine (raisesOnly_raiseIf fun _ ↦ ?_).bind fun _ _ ↦ ?_
  · exact reportable_protocol (by decide +kernel)
      (hplain.followed "body fields are invalid" (by decide))
  refine (raisesOnly_raiseIf fun _ ↦ reportable_of_isAscii (by decide +kernel)).bind fun _ _ ↦ ?_
  refine (raisesOnly_raiseIf fun _ ↦ reportable_of_isAscii (by decide +kernel)).bind fun _ _ ↦ ?_
  refine RaisesOnly.bind ?_ fun authorization _ ↦ raisesOnly_ok
  unfold authorizationOf
  split
  · exact raisesOnly_ok
  · split
    · exact raisesOnly_ok
    · exact raisesOnly_error (reportable_of_isAscii (by decide +kernel))

theorem isRequestId_candidateId (h : validateValue 0 (.dict message) = .ok ()) :
    IsRequestId (candidateId message) := by
  rw [candidateId]
  split
  · split
    · exact isRequestId_unavailable
    case h_1 s hs _ => exact ⟨(plain_of_lookup h hs).take 128, List.length_take_le _ _⟩
  · exact isRequestId_unavailable

end Requests

/-! ## Clean frames are the ones that are answered -/

section Answers

variable [Platform] [NormalForm] {rid : PyStr}

omit [NormalForm] in
theorem ne_nil_of_canonicalBytes {items : List (PyKey × PyValue)} {b : List ℕ}
    (h : (PyValue.dict items).canonicalBytes = .ok b) : b ≠ [] := by
  obtain ⟨c, hc, rfl⟩ := map_eq_ok.mp h
  rw [PyValue.canonicalValue] at hc
  split at hc
  · cases hc
  split at hc
  · cases hc
  split at hc
  · cases hc
  obtain ⟨fields, -, rfl⟩ := map_eq_ok.mp hc
  cases fields with
  | nil => decide
  | cons f fields => simp [spell]

/-- The result of a handler is sent, or reported, exactly when it is deliverable. -/
theorem settles_successResponse (hrid : IsRequestId rid) {body : List (PyKey × PyValue)} :
    Settles (settle rid (encodeFrame maxFrameBytes (successResponse rid body))) ↔
      Deliverable rid body := by
  -- the response is refused when it is validated, when it is encoded or for its length
  cases hvalid : validateValue 0 (successResponse rid body) with
  | error r =>
    have hframe : encodeFrame maxFrameBytes (successResponse rid body) = .error r := by
      rw [encodeFrame, hvalid]
      rfl
    rw [hframe, settles_error hrid]
    constructor
    · intro h
      refine ⟨fun name hname ↦ ?_, fun hok ↦ (by cases hvalid.symm.trans hok)⟩
      rw [Except.error.inj (hvalid.symm.trans hname)] at h
      exact (tolerable_unsupported hrid).mp h
    · intro h
      rcases reportable_of_validateValue hvalid with hr | ⟨name, rfl⟩
      · exact tolerable_of_reportable hrid hr
      · exact (tolerable_unsupported hrid).mpr (h.named name hvalid)
  | ok u =>
    cases hbytes : (successResponse rid body).canonicalBytes with
    | error e =>
      have hframe : encodeFrame maxFrameBytes (successResponse rid body) =
          .error (.exception e) := by
        rw [encodeFrame, hvalid, hbytes]
        rfl
      rw [hframe, settles_error hrid]
      refine ⟨fun _ ↦ ⟨fun name hname ↦ ?_, fun _ b hb ↦ ?_⟩, fun _ ↦ trivial⟩
      · rw [hvalid] at hname
        cases hname
      · rw [hbytes] at hb
        cases hb
    | ok b =>
      have hne : b ≠ [] := ne_nil_of_canonicalBytes hbytes
      by_cases hle : b.length ≤ maxFrameBytes
      · have hframe := encodeFrame_eq_ok.mpr ⟨hvalid, b, hbytes, hne, hle,
          Nat.lt_of_le_of_lt hle (by decide), rfl⟩
        rw [hframe]
        refine ⟨fun _ ↦ ⟨fun name hname ↦ ?_, fun _ b' hb' ↦ ?_⟩,
          fun _ ↦ settles_ok (.inr ⟨rid, body, hframe⟩)⟩
        · rw [hvalid] at hname
          cases hname
        · rw [← Except.ok.inj (hbytes.symm.trans hb')]
          exact hle
      · have hframe : encodeFrame maxFrameBytes (successResponse rid body) =
            .error (refusal "frame_limit" "frame byte limit exceeded") := by
          rw [encodeFrame, hvalid, hbytes]
          exact if_pos (.inr (not_le.mp hle))
        rw [hframe, settles_error hrid]
        constructor
        · rintro ⟨hcode, -⟩
          exact absurd (by decide : PyStr.ofString "frame_limit" ∈ closingCodes) hcode
        · exact fun h ↦ absurd (h.fits hvalid b hbytes) hle

theorem settles_answer {call : Call} (hrid : IsRequestId call.requestId) (finished : ℤ) (i : ℕ) :
    Settles (settle call.requestId (call.answer finished i)) ↔
      (∀ r, call.spec.handler i call.body = .error r → Tolerable call.requestId r) ∧
      ∀ body, call.spec.handler i call.body = .ok (.dict body) → finished ≤ call.deadline →
        Deliverable call.requestId body := by
  rw [Call.answer]
  cases hresult : call.spec.handler i call.body with
  | error r =>
    refine (settles_error hrid).trans ⟨fun h ↦ ⟨?_, fun body hbody ↦ by cases hbody⟩,
      fun h ↦ h.1 r rfl⟩
    rintro _ ⟨⟩
    exact h
  | ok result =>
    change Settles (settle _ (raiseIf (call.deadline < finished) _ >>= fun _ ↦ _)) ↔ _
    by_cases hlate : call.deadline < finished
    · rw [raiseIf, if_pos hlate]
      refine (settles_error hrid).trans ⟨fun _ ↦ ⟨fun r hr ↦ (by cases hr), fun body _ htime ↦ ?_⟩,
        fun _ ↦ tolerable_of_reportable hrid (reportable_of_isAscii (by decide +kernel))⟩
      exact absurd htime (not_le.mpr hlate)
    · rw [raiseIf, if_neg hlate]
      cases result with
      | dict body =>
        refine (settles_successResponse hrid).trans ⟨fun h ↦ ⟨fun r hr ↦ (by cases hr), ?_⟩,
          fun h ↦ h.2 body rfl (not_lt.mp hlate)⟩
        rintro _ ⟨⟩ -
        exact h
      | none | bool b | int n | float f | str s | list xs | tuple xs | other name =>
        exact (settles_error hrid).trans ⟨fun _ ↦ ⟨fun r hr ↦ (by cases hr), fun body hbody ↦
          (by cases hbody)⟩, fun _ ↦ tolerable_of_reportable hrid
            (reportable_of_isAscii (by decide +kernel))⟩

end Answers

section Turns

variable [Platform] [FloatReader] [NormalForm] (server : StrictRpcServer) (clock : Clock)

theorem settles_respond {i : ℕ} {payload : List ℕ} {message : List (PyKey × PyValue)}
    (hdecode : decodePayload payload = .ok (.dict message)) :
    Settles (respond server clock i message).2 ↔ Clean server clock i payload := by
  have hvalid := (decodePayload_eq_ok hdecode).2.1
  have hsame : ∀ {m}, decodePayload payload = .ok (.dict m) → m = message := by
    intro m hm
    rw [hdecode] at hm
    cases hm
    rfl
  have hrepeated : ∀ key, decodePayload payload = .error (duplicateField key) →
      Plain (key.take 495) := by
    intro key hkey
    rw [hdecode] at hkey
    cases hkey
  rw [respond]
  -- the request fails a check, or its authorizer raises, or its handler is called
  cases hcheck : checkRequest server.specs (clock.validated i) message with
  | error r =>
    have hrequest : validateRequest server.specs (clock.validated i) i message = .error r := by
      rw [validateRequest, hcheck]
      rfl
    have htolerable := tolerable_of_reportable (isRequestId_candidateId hvalid)
      (raisesOnly_checkRequest hvalid server.specs (clock.validated i) r hcheck)
    rw [hrequest]
    refine ⟨fun _ ↦ ⟨hrepeated, fun m call r' hm hcall ↦ ?_, fun m call r' hm hcall ↦ ?_,
      fun m call body hm hcall ↦ ?_⟩, fun _ ↦ (settles_error (isRequestId_candidateId hvalid)).mpr
        htolerable⟩
    · rw [hsame hm, hcheck] at hcall
      cases hcall
    · rw [hsame hm, hrequest] at hcall
      cases hcall
    · rw [hsame hm, hrequest] at hcall
      cases hcall
  | ok call =>
    have hrid := isRequestId_of_checkRequest hvalid hcheck
    cases hauthorize : call.authorize i with
    | error r =>
      have hrequest : validateRequest server.specs (clock.validated i) i message = .error r := by
        rw [validateRequest, hcheck]
        change (call.authorize i >>= fun _ ↦ _) = _
        rw [hauthorize]
        rfl
      rw [hrequest]
      simp only
      rw [candidateId_of_checkRequest hcheck, settles_error hrid]
      constructor
      · intro h
        refine ⟨hrepeated, fun m call' r' hm hcall hr ↦ ?_, fun m call' r' hm hcall ↦ ?_,
          fun m call' body hm hcall ↦ ?_⟩
        · rw [hsame hm, hcheck] at hcall
          cases hcall
          rw [hauthorize] at hr
          cases hr
          exact h
        · rw [hsame hm, hrequest] at hcall
          cases hcall
        · rw [hsame hm, hrequest] at hcall
          cases hcall
      · exact fun h ↦ h.authorizer message call r hdecode hcheck hauthorize
    | ok u =>
      have hrequest : validateRequest server.specs (clock.validated i) i message = .ok call := by
        rw [validateRequest, hcheck]
        change (call.authorize i >>= fun _ ↦ _) = _
        rw [hauthorize]
        rfl
      rw [hrequest]
      simp only
      rw [settles_answer hrid]
      constructor
      · rintro ⟨hhandler, hresult⟩
        refine ⟨hrepeated, fun m call' r' hm hcall hr ↦ ?_, fun m call' r' hm hcall hr ↦ ?_,
          fun m call' body hm hcall hbody htime ↦ ?_⟩
        · rw [hsame hm, hcheck] at hcall
          cases hcall
          rw [hauthorize] at hr
          cases hr
        · rw [hsame hm, hrequest] at hcall
          cases hcall
          exact hhandler r' hr
        · rw [hsame hm, hrequest] at hcall
          cases hcall
          exact hresult body hbody htime
      · exact fun h ↦ ⟨fun r hr ↦ h.handler message call r hdecode hrequest hr,
          fun body hbody htime ↦ h.result message call body hdecode hrequest hbody htime⟩

/-- A turn that reads a frame answers it and goes on exactly when the frame is clean. -/
theorem turn_frame {i : ℕ} {src : Source} {payload : List ℕ}
    (hdata : inbound src.data = .frame payload) :
    (turn server clock i src).source.data = afterFrame src.data payload ∧
    (turn server clock i src).counted = counts server clock i payload ∧
    (Settles ((turn server clock i src).written, (turn server clock i src).next) ↔
      Clean server clock i payload) := by
  have hread := readFrame_inbound src
  rw [hdata] at hread
  obtain ⟨hmessage, hrest⟩ := hread
  rw [turn, counts]
  generalize readFrame maxFrameBytes src = read at hmessage hrest
  obtain ⟨result, src'⟩ := read
  simp only at hmessage hrest
  subst hmessage
  cases hdecode : decodePayload payload with
  | error r =>
    refine ⟨hrest, rfl, (settles_error isRequestId_unavailable).trans ⟨fun h ↦ ?_, fun h ↦ ?_⟩⟩
    · refine ⟨fun key hkey ↦ ?_, fun m call r' hm ↦ ?_, fun m call r' hm ↦ ?_,
        fun m call body hm ↦ ?_⟩
      · rw [Except.error.inj (hdecode.symm.trans hkey)] at h
        exact (tolerable_duplicateField isRequestId_unavailable).mp h
      all_goals
        rw [hdecode] at hm
        cases hm
    · rcases raisesOnly_decodePayload payload r hdecode with hr | ⟨key, rfl⟩
      · exact tolerable_of_reportable isRequestId_unavailable hr
      · exact (tolerable_duplicateField isRequestId_unavailable).mpr (h.repeated key hdecode)
  | ok v =>
    have hdict := (decodePayload_eq_ok hdecode).1
    cases v with
    | dict message =>
      refine ⟨hrest, ?_, settles_respond server clock hdecode⟩
      simp only [respond]
      cases validateRequest server.specs (clock.validated i) i message <;> rfl
    | none | bool b | int n | float f | str s | list xs | tuple xs | other name => cases hdict

end Turns

/-! ## Runs -/

section Runs

variable [Platform] [FloatReader] {server : StrictRpcServer} {clock : Clock}

omit [Platform] [FloatReader] in
theorem length_afterFrame_lt {data payload : List ℕ} (h : inbound data = .frame payload) :
    (afterFrame data payload).length < data.length := by
  have hne : data ≠ [] := by
    rintro rfl
    cases h
  have hpos := List.length_pos_iff.mpr hne
  rw [afterFrame, List.length_drop]
  omega

theorem Serves.not_silent {i handled : ℕ} {data : List ℕ} {outcome : Outcome} :
    ¬Serves server clock i handled data ⟨[], [], outcome⟩ := by
  rintro ⟨⟩

theorem Serves.of_frame {i handled : ℕ} {data payload : List ℕ} {written : List (List ℕ)}
    {turns : List (List (List ℕ))} {closing : List (List ℕ)} {outcome : Outcome}
    (hdata : inbound data = .frame payload)
    (h : Serves server clock i handled data ⟨written :: turns, closing, outcome⟩) :
    (∃ b, written = [b] ∧ IsResponseFrame b) ∧
      Serves server clock (i + 1) (handled + (counts server clock i payload).toNat)
        (afterFrame data payload) ⟨turns, closing, outcome⟩ := by
  cases h with
  | ended _ hended =>
    rw [hdata] at hended
    cases hended
  | refused _ hrefused _ =>
    rw [hdata] at hrefused
    rcases hrefused with h | h <;> cases h
  | answered _ hframe hb hrun =>
    rw [hdata] at hframe
    cases hframe
    exact ⟨⟨_, rfl, hb⟩, hrun⟩

theorem allClean_of_no_frame {i handled : ℕ} {data : List ℕ}
    (h : ∀ payload, handled < server.maxRequests → inbound data ≠ .frame payload) :
    AllClean server clock i handled data := by
  intro i' handled' data' payload hreach hlimit hframe
  rcases hreach.cases_head with heq | ⟨c, hstep, -⟩
  · cases heq
    exact absurd hframe (h payload hlimit)
  · cases hstep with
    | frame hlimit hdata => exact absurd hdata (h _ hlimit)

theorem allClean_frame {i handled : ℕ} {data payload : List ℕ}
    (hlimit : handled < server.maxRequests) (hdata : inbound data = .frame payload) :
    AllClean server clock i handled data ↔ Clean server clock i payload ∧
      AllClean server clock (i + 1) (handled + (counts server clock i payload).toNat)
        (afterFrame data payload) := by
  constructor
  · intro h
    refine ⟨h i handled data payload .refl hlimit hdata, fun i' handled' data' p hreach ↦ ?_⟩
    exact h i' handled' data' p (hreach.head (.frame hlimit hdata))
  · rintro ⟨hclean, h⟩ i' handled' data' p hreach hlimit' hframe
    rcases hreach.cases_head with heq | ⟨c, hstep, hrest⟩
    · cases heq
      rw [hdata] at hframe
      cases hframe
      exact hclean
    · cases hstep with
      | frame _ hdata' =>
        rw [hdata] at hdata'
        cases hdata'
        exact h i' handled' data' p hrest hlimit' hframe

variable [NormalForm]

theorem turn_no_frame (server : StrictRpcServer) (clock : Clock) (i : ℕ) {src : Source}
    (h : ∀ payload, inbound src.data ≠ .frame payload) :
    (turn server clock i src).next = .stop ∧ ∀ handled < server.maxRequests,
      Serves server clock i handled src.data
        ⟨[(turn server clock i src).written], [], .returned⟩ := by
  have hclosing : ∀ p ∈ [("frame_limit", "frame byte limit exceeded"),
      ("truncated_frame", "incomplete frame header")], isAscii p.1 = true ∧
      p.1.toList.length ≤ 64 ∧ PyStr.ofString p.1 ∈ closingCodes ∧ isAscii p.2 = true := by
    decide +kernel
  have hsettle : ∀ code message, (code, message) ∈ [("frame_limit", "frame byte limit exceeded"),
      ("truncated_frame", "incomplete frame header")] → ∃ b, IsErrorFrame b ∧
      settle unavailable (.error (refusal code message)) = ([b], .stop) := by
    intro code message hp
    obtain ⟨hcode, hshort, hmem, hmessage⟩ := hclosing _ hp
    obtain ⟨b, hb⟩ := exists_encodeFrame_of_plain (e := ⟨.ofString code, .ofString message⟩)
      isRequestId_unavailable.1 isRequestId_unavailable.2 (Plain.of_isAscii hcode)
      ((List.length_map _).trans_le hshort) ((Plain.of_isAscii hmessage).take 512)
    refine ⟨b, ⟨_, _, hb⟩, ?_⟩
    rw [refusal, settle, hb]
    exact congrArg (Prod.mk [b]) (if_pos hmem)
  have hread := readFrame_inbound src
  rw [turn]
  generalize readFrame maxFrameBytes src = read at hread
  obtain ⟨result, src'⟩ := read
  cases hdata : inbound src.data with
  | frame payload => exact absurd hdata (h payload)
  | ended =>
    rw [hdata] at hread
    simp only at hread
    subst hread
    exact ⟨rfl, fun handled hlimit ↦ .ended hlimit hdata⟩
  | badSize =>
    rw [hdata] at hread
    simp only at hread
    subst hread
    obtain ⟨b, hb, hwritten⟩ := hsettle "frame_limit" "frame byte limit exceeded" (by simp)
    simp only [hwritten]
    exact ⟨trivial, fun handled hlimit ↦ .refused hlimit (.inl hdata) hb⟩
  | truncatedHeader =>
    rw [hdata] at hread
    simp only at hread
    subst hread
    obtain ⟨b, hb, hwritten⟩ := hsettle "truncated_frame" "incomplete frame header" (by simp)
    simp only [hwritten]
    exact ⟨trivial, fun handled hlimit ↦ .refused hlimit (.inr hdata) hb⟩

/-- The loop from any turn on, by induction on the bound on its turns. -/
theorem loop_serves_iff {fuel : ℕ} : ∀ {i handled : ℕ} {src : Source}, src.data.length < fuel →
    handled ≤ server.maxRequests →
    (Serves server clock i handled src.data (loop server clock fuel i handled src) ↔
      AllClean server clock i handled src.data) := by
  -- every frame takes some of the stream, so the fuel does not run out
  induction fuel with
  | zero => exact fun h ↦ absurd h (Nat.not_lt_zero _)
  | succ fuel ih =>
    intro i handled src hfuel hhandled
    rw [loop]
    by_cases hlimit : handled < server.maxRequests
    swap
    · rw [if_neg hlimit]
      obtain ⟨b, hb⟩ := exists_encodeFrame_own isRequestId_unavailable (e := requestLimit) (by simp)
      rw [hb]
      refine ⟨fun _ ↦ allClean_of_no_frame fun _ h ↦ absurd h hlimit, fun _ ↦ ?_⟩
      exact .limit (le_antisymm hhandled (not_lt.mp hlimit)) ⟨_, _, hb⟩
    rw [if_pos hlimit]
    by_cases hframe : ∀ payload, inbound src.data ≠ .frame payload
    · obtain ⟨hnext, hserves⟩ := turn_no_frame server clock i hframe
      simp only [hnext]
      exact ⟨fun _ ↦ allClean_of_no_frame fun payload _ ↦ hframe payload,
        fun _ ↦ hserves handled hlimit⟩
    obtain ⟨payload, hdata⟩ := not_forall.mp hframe
    rw [not_not] at hdata
    obtain ⟨hrest, hcounted, hsettles⟩ := turn_frame server clock (i := i) hdata
    have hlt := length_afterFrame_lt hdata
    have hcount : handled + (counts server clock i payload).toNat ≤ server.maxRequests := by
      have := Bool.toNat_le (counts server clock i payload)
      omega
    have hmore := @ih (i + 1) _ (turn server clock i src).source (by rw [hrest]; omega) hcount
    rw [hrest] at hmore
    rw [allClean_frame hlimit hdata, ← hsettles, ← hmore]
    cases hnext : (turn server clock i src).next with
    | again =>
      simp only [hnext, hcounted]
      constructor
      · intro h
        obtain ⟨⟨b, hb, hresponse⟩, hrun⟩ := h.of_frame hdata
        exact ⟨⟨b, by rw [hb], hresponse⟩, hrun⟩
      · rintro ⟨⟨b, hb, hresponse⟩, hrun⟩
        have hwritten : (turn server clock i src).written = [b] := (Prod.ext_iff.mp hb).1
        rw [hwritten]
        exact .answered hlimit hdata hresponse hrun
    | stop =>
      simp only [hnext]
      refine ⟨fun h ↦ absurd (h.of_frame hdata).2 Serves.not_silent, ?_⟩
      rintro ⟨⟨b, hb, -⟩, -⟩
      cases (Prod.ext_iff.mp hb).2
    | raised r =>
      simp only [hnext]
      refine ⟨fun h ↦ absurd (h.of_frame hdata).2 Serves.not_silent, ?_⟩
      rintro ⟨⟨b, hb, -⟩, -⟩
      cases (Prod.ext_iff.mp hb).2

/-- A server returns, answers every frame once and stops for one of the four reasons, exactly when
every frame it gets to is clean. -/
theorem serve_serves_iff (server : StrictRpcServer) (clock : Clock) (src : Source) :
    Serves server clock 0 0 src.data (server.serve clock src) ↔
      AllClean server clock 0 0 src.data :=
  loop_serves_iff (Nat.lt_succ_self _) (Nat.zero_le _)

end Runs

/-! ## Two streams -/

section Returns

variable [Platform] [FloatReader] {server : StrictRpcServer} {clock : Clock}

theorem Serves.returned {i handled : ℕ} {data : List ℕ} {run : Run}
    (h : Serves server clock i handled data run) : run.outcome = .returned := by
  induction h with
  | ended | refused | limit => rfl
  | answered _ _ _ _ ih => exact ih

end Returns

namespace Sample

attribute [local instance] pythonPlatform

/-- The streams below have no number with a fraction or an exponent. -/
@[reducible] def floatReader : FloatReader := ⟨fun _ ↦ ⟨true, false, none, "0.5", "0.5"⟩⟩

attribute [local instance] floatReader

/-- A server with one type of message, whose handler returns the empty object. -/
def server : StrictRpcServer where
  specs := [(.ofString "ping", ⟨[], fun _ _ ↦ .ok (.dict []), none⟩)]
  maxRequests := 1
  specs_ne_nil := by simp
  maxRequests_pos := by decide
  maxRequests_le := by decide

def clock : Clock := ⟨fun _ ↦ 0, fun _ ↦ 0⟩

/-- A stream of one frame. -/
def stream (payload : List ℕ) (h : ∀ b ∈ payload, b < 256) : Source where
  data := packLength payload.length ++ payload
  sizes _ := 0
  octets b hb := by
    rcases List.mem_append.mp hb with hb | hb
    · simp only [packLength, List.mem_cons, List.not_mem_nil, or_false] at hb
      omega
    · exact h b hb

/-- A frame with an array. -/
def array : Source := stream (encodeUtf8 "[]".toList) (by decide +kernel)

/-- The letter e with an acute accent, as two code points. -/
def decomposed : List Char := ['e', Char.ofNat 0x301]

/-- A frame with an object that has the same key twice. -/
def repeatedKey : Source :=
  stream (encodeUtf8 ("\x7b\"".toList ++ decomposed ++ "\":0,\"".toList ++ decomposed ++
    "\":0\x7d".toList)) (by decide +kernel)

end Sample

/-- A frame that holds no object is answered, and the server goes on to the end of the stream. -/
theorem serve_serves_iff_sample :
    let _ := pythonPlatform
    let _ := Sample.floatReader
    Serves Sample.server Sample.clock 0 0 Sample.array.data
      (Sample.server.serve Sample.clock Sample.array) := by
  intro _ _
  have _ := normalForm_pythonPlatform
  refine (serve_serves_iff Sample.server Sample.clock Sample.array).mpr ?_
  have hframe : inbound Sample.array.data = .frame (encodeUtf8 "[]".toList) := by decide +kernel
  have hdecode : decodePayload (encodeUtf8 "[]".toList) =
      .error (refusal "invalid_envelope" "frame must contain an object") := by rfl
  refine (allClean_frame (by decide) hframe).mpr ⟨⟨fun key hkey ↦ ?_, fun m call r hm ↦ ?_,
    fun m call r hm ↦ ?_, fun m call body hm ↦ ?_⟩, allClean_of_no_frame fun payload _ ↦ ?_⟩
  · have hcode : refusal "invalid_envelope" "frame must contain an object" = duplicateField key :=
      Except.error.inj (hdecode.symm.trans hkey)
    rw [refusal, duplicateField, Raised.protocol.injEq, ProtocolError.mk.injEq] at hcode
    exact absurd hcode.1 (by decide)
  · rw [hdecode] at hm
    cases hm
  · rw [hdecode] at hm
    cases hm
  · rw [hdecode] at hm
    cases hm
  · have hended : inbound (afterFrame Sample.array.data (encodeUtf8 "[]".toList)) = .ended := by
      decide +kernel
    rw [hended]
    exact Inbound.noConfusion

/-- A key that is repeated and not in normal form C cannot be named in the answer: the server raises
instead of returning. -/
theorem not_serves_repeatedKey :
    let _ := pythonPlatform
    let _ := Sample.floatReader
    (Sample.server.serve Sample.clock Sample.repeatedKey).outcome = .raised
        (refusal "unicode_normalization" "strings must already be Unicode NFC") ∧
      ¬Serves Sample.server Sample.clock 0 0 Sample.repeatedKey.data
        (Sample.server.serve Sample.clock Sample.repeatedKey) := by
  intro _ _
  have hraised : (Sample.server.serve Sample.clock Sample.repeatedKey).outcome = .raised
      (refusal "unicode_normalization" "strings must already be Unicode NFC") := by decide +kernel
  refine ⟨hraised, fun h ↦ ?_⟩
  have hreturned := h.returned
  rw [hraised] at hreturned
  cases hreturned

end EventHorizon.Protocol
