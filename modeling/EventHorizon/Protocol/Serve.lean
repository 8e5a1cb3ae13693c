import EventHorizon.Protocol.Responses
import Mathlib.Logic.Relation

/-!
# Serving a stream of frames

`StrictRpcServer.serve` reads frames until the stream ends, a frame has a size that is not allowed,
a header is cut off, or enough requests have been handled. It answers each frame with a response:
the result of the handler, or what was raised on the way to it.

What handlers and authorizers do may depend on all that happened before, so they are given the
number of the turn; so is the clock.
-/

namespace EventHorizon.Protocol

/-! ## Requests -/

/-- `MessageSpec`. -/
structure MessageSpec where
  bodyFields : List PyStr
  handler : ℕ → List (PyKey × PyValue) → Except Raised PyValue
  authorizer : Option (ℕ → PyValue → PyValue → Except Raised Unit)

/-- A request that passed the checks of `validate_request`, up to its authorizer. -/
structure Call where
  messageType : PyStr
  requestId : PyStr
  deadline : ℤ
  body : List (PyKey × PyValue)
  spec : MessageSpec
  /-- The request without its authorization, as the authorizer sees it. -/
  unsigned : PyValue
  authorization : PyValue

def maxDeadlineWindow : ℤ := 30000

/-- `message[key]`, with the refusal of an envelope that lacks it. -/
def envelopeField (message : List (PyKey × PyValue)) (key : String) : Except Raised PyValue :=
  match message.lookup (.str (.ofString key)) with
  | none => .error (refusal "unknown_field" "request envelope fields are invalid")
  | some value => .ok value

def messageTypeOf : PyValue → Except Raised PyStr
  | .str s =>
    if s = [] then .error (refusal "invalid_type" "message type must be a non-empty string")
    else .ok s
  | _ => .error (refusal "invalid_type" "message type must be a non-empty string")

def requestIdOf : PyValue → Except Raised PyStr
  | .str s =>
    if s = [] ∨ 128 < s.length then
      .error (refusal "invalid_request_id" "request_id is invalid")
    else .ok s
  | _ => .error (refusal "invalid_request_id" "request_id is invalid")

def deadlineOf : PyValue → Except Raised ℤ
  | .int n => .ok n
  | _ => .error (refusal "invalid_deadline" "deadline_ms must be an integer")

def bodyOf : PyValue → Except Raised (List (PyKey × PyValue))
  | .dict items => .ok items
  | _ => .error (refusal "invalid_body" "request body must be an object")

/-- `set(items) == fields`. -/
def hasExactKeys (items : List (PyKey × PyValue)) (fields : List PyStr) : Bool :=
  (items.all fun f ↦ f.1 ∈ fields.map PyKey.str) &&
    fields.all fun k ↦ PyKey.str k ∈ items.map Prod.fst

/-- `set(message) == expected_envelope`. -/
def envelopeFields (authorized : Bool) : List PyStr :=
  ["type", "request_id", "deadline_ms", "body"].map .ofString ++
    if authorized then [.ofString "authorization"] else []

/-- The `authorization` of a request whose type has an authorizer. -/
def authorizationOf (spec : MessageSpec) (message : List (PyKey × PyValue)) :
    Except Raised PyValue :=
  match spec.authorizer with
  | none => .ok .none
  | some _ =>
    match message.lookup (.str (.ofString "authorization")) with
    | some (.dict items) => .ok (.dict items)
    | _ => .error (refusal "authorization_invalid" "authorization must be an object")

/-- `validate_request` before the authorizer is called. -/
def checkRequest (specs : List (PyStr × MessageSpec)) (now : ℤ)
    (message : List (PyKey × PyValue)) : Except Raised Call := do
  let typeField ← envelopeField message "type"
  let idField ← envelopeField message "request_id"
  let deadlineField ← envelopeField message "deadline_ms"
  let bodyField ← envelopeField message "body"
  let messageType ← messageTypeOf typeField
  let requestId ← requestIdOf idField
  let deadline ← deadlineOf deadlineField
  let body ← bodyOf bodyField
  match specs.lookup messageType with
  | none =>
    .error (.protocol ⟨.ofString "unknown_message_type",
      .ofString "unknown message type: " ++ messageType⟩)
  | some spec => do
    raiseIf (hasExactKeys message (envelopeFields spec.authorizer.isSome) = false)
      (refusal (if spec.authorizer.isSome then "authorization_required" else "unknown_field")
        "request envelope fields are invalid")
    raiseIf (hasExactKeys body spec.bodyFields = false)
      (.protocol ⟨.ofString "unknown_field", messageType ++ .ofString " body fields are invalid"⟩)
    raiseIf (deadline < now) (refusal "deadline_exceeded" "request deadline has expired")
    raiseIf (now + maxDeadlineWindow < deadline)
      (refusal "deadline_limit" "request deadline is too far in the future")
    let authorization ← authorizationOf spec message
    return {
      messageType, requestId, deadline, body, spec, authorization
      unsigned := .dict [(.str (.ofString "type"), typeField),
        (.str (.ofString "request_id"), idField), (.str (.ofString "deadline_ms"), deadlineField),
        (.str (.ofString "body"), bodyField)] }

/-- The call of the authorizer in turn `i`. -/
def Call.authorize (call : Call) (i : ℕ) : Except Raised Unit :=
  match call.spec.authorizer with
  | none => .ok ()
  | some authorizer => authorizer i call.unsigned call.authorization

/-- `validate_request`. -/
def validateRequest (specs : List (PyStr × MessageSpec)) (now : ℤ) (i : ℕ)
    (message : List (PyKey × PyValue)) : Except Raised Call := do
  let call ← checkRequest specs now message
  call.authorize i
  return call

/-! ## Turns -/

/-- `StrictRpcServer`. -/
structure StrictRpcServer where
  specs : List (PyStr × MessageSpec)
  maxRequests : ℕ
  specs_ne_nil : specs ≠ []
  maxRequests_pos : 0 < maxRequests
  maxRequests_le : maxRequests ≤ 256

/-- The time in milliseconds at the two places of a turn that ask for it. -/
structure Clock where
  validated : ℕ → ℤ
  finished : ℕ → ℤ

/-- What happens after a turn of the loop. -/
inductive Next
  | again
  | stop
  | raised (r : Raised)
  deriving DecidableEq, Repr

/-- A turn: what is left of the stream, the frames that were written, and whether the request was
counted. -/
structure Turn where
  source : Source
  written : List (List ℕ)
  counted : Bool
  next : Next

section Serve

variable [Platform] [FloatReader]

/-- The request id for the response to a message that is not a valid request. -/
def candidateId (message : List (PyKey × PyValue)) : PyStr :=
  match message.lookup (.str (.ofString "request_id")) with
  | some (.str s) => if s = [] then unavailable else s.take 128
  | _ => unavailable

/-- From the call of the handler to the response with its result. -/
def Call.answer (call : Call) (finished : ℤ) (i : ℕ) : Except Raised (List ℕ) := do
  let result ← call.spec.handler i call.body
  raiseIf (call.deadline < finished)
    (refusal "deadline_exceeded" "handler exceeded request deadline")
  match result with
  | .dict items => encodeFrame maxFrameBytes (successResponse call.requestId items)
  | _ => .error (refusal "invalid_handler_result" "handler returned a non-object")

def serviceFailure : ProtocolError :=
  ⟨.ofString "service_failure", .ofString "service failed closed"⟩

/-- The `except` clauses of `serve`, with the frame that is written and what happens next. -/
def settle (requestId : PyStr) : Except Raised (List ℕ) → List (List ℕ) × Next
  | .ok b => ([b], .again)
  | .error .eof => ([], .stop)
  | .error (.protocol e) =>
    match encodeFrame maxFrameBytes (errorResponse requestId e) with
    | .ok b => ([b], if e.code ∈ closingCodes then .stop else .again)
    | .error r => ([], .raised r)
  | .error (.exception _) =>
    match encodeFrame maxFrameBytes (errorResponse requestId serviceFailure) with
    | .ok b => ([b], .again)
    | .error r => ([], .raised r)
  | .error .base => ([], .raised .base)

/-- The rest of a turn after a frame has been read. -/
def respond (server : StrictRpcServer) (clock : Clock) (i : ℕ)
    (message : List (PyKey × PyValue)) : Bool × List (List ℕ) × Next :=
  match validateRequest server.specs (clock.validated i) i message with
  | .error r => (false, settle (candidateId message) (.error r))
  | .ok call => (true, settle call.requestId (call.answer (clock.finished i) i))

/-- A turn of the loop. -/
def turn (server : StrictRpcServer) (clock : Clock) (i : ℕ) (src : Source) : Turn :=
  match readFrame maxFrameBytes src with
  | (.ok (.dict message), src) =>
    let answer := respond server clock i message
    ⟨src, answer.2.1, answer.1, answer.2.2⟩
  -- a frame holds an object, so the message is a dictionary
  | (.ok _, src) => ⟨src, [], false, .stop⟩
  | (.error r, src) =>
    let answer := settle unavailable (.error r)
    ⟨src, answer.1, false, answer.2⟩

/-- How `serve` ends. -/
inductive Outcome
  | returned
  | raised (r : Raised)
  /-- The bound on the turns was too small. -/
  | unfinished
  deriving DecidableEq, Repr

/-- The frames written in each turn of the loop, those written after it, and the outcome. -/
structure Run where
  turns : List (List (List ℕ))
  closing : List (List ℕ)
  outcome : Outcome
  deriving DecidableEq, Repr

def requestLimit : ProtocolError :=
  ⟨.ofString "request_limit", .ofString "service request limit reached"⟩

/-- The loop of `serve`, with a bound on its turns. -/
def loop (server : StrictRpcServer) (clock : Clock) : ℕ → ℕ → ℕ → Source → Run
  | 0, _, _, _ => ⟨[], [], .unfinished⟩
  | fuel + 1, i, handled, src =>
    if handled < server.maxRequests then
      let t := turn server clock i src
      match t.next with
      | .again =>
        let more := loop server clock fuel (i + 1) (handled + t.counted.toNat) t.source
        { more with turns := t.written :: more.turns }
      | .stop => ⟨[t.written], [], .returned⟩
      | .raised r => ⟨[t.written], [], .raised r⟩
    else
      match encodeFrame maxFrameBytes (errorResponse unavailable requestLimit) with
      | .ok b => ⟨[], [b], .returned⟩
      | .error r => ⟨[], [], .raised r⟩

/-- `StrictRpcServer.serve`. A turn that does not end the loop has read a frame, so there are no
more turns than bytes. -/
def StrictRpcServer.serve (server : StrictRpcServer) (clock : Clock) (src : Source) : Run :=
  loop server clock (src.data.length + 1) 0 0 src

end Serve

end EventHorizon.Protocol
