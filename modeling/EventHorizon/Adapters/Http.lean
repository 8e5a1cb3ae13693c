import EventHorizon.Adapters.Base
import EventHorizon.Canonical.Loads
import EventHorizon.Canonical.Objects
import EventHorizon.Library.Phases
import EventHorizon.Library.Table
import Mathlib.Data.List.DropRight

/-!
# The HTTP adapter

`HTTPAdapter` checks an operation with a request that is to have no effect, and writes with another
one. Its two tables are guarded by a lock, which is released around every request. A call is
therefore a thread with up to three steps: the section that takes a place in the tables, the
request, and the section that records what came of it. The threads of any number of calls, also
about one transaction, take their steps in any order, and the transport answers each request as it
likes or raises.

A request is one call of `session.request`. How often the session then transmits it is not said: its
`Retry` is mounted for every method, and an error that is neither one of the connection nor one of
the reading has even a `POST` sent again. The entry of a prepared operation refers to the caller's
data; here it holds them, so the results are about data that nobody changes before the commit.

Each transaction goes through phases: it is unused, then prepared, then aborted or taken up by a
commit, which hands the write to the session and may find it confirmed. The tables, the threads and
the writes that were handed over are read off the phases, and so is what the calls have answered.
-/

namespace EventHorizon.Adapters.Http

/-! ## Requests -/

/-- `str.upper`. -/
class TextCase where
  upper : PyStr → PyStr

/-- A request of the session. -/
structure Request where
  method : PyStr
  url : PyStr
  json : Option PyValue
  headers : Table PyStr PyStr

/-- A response; the request id is that of the header. -/
structure Response where
  statusCode : ℕ
  text : PyStr
  requestId : Option PyStr

/-- The status is that of an error or of a redirect. -/
def Response.Refuses (r : Response) : Prop :=
  400 ≤ r.statusCode ∨ r.statusCode ∈ [301, 302, 303, 307, 308]

instance (r : Response) : Decidable r.Refuses := inferInstanceAs (Decidable (_ ∨ _))

/-- `HTTPConfig`, with the fields that the phases read. -/
structure HttpConfig where
  baseUrl : PyStr
  defaultHeaders : Table PyStr PyStr := []
  dryRunParam : PyStr := []
  prepareMethod : PyStr := .ofString "HEAD"

/-- An entry of `_pending`. The data are those that the operation has when it is prepared. -/
structure Pending where
  url : PyStr
  method : PyStr
  data : PyValue
  idempotencyKey : PyStr
  headers : Table PyStr PyStr
  prepareStatus : ℕ

/-- The write. -/
def Pending.request (p : Pending) : Request where
  method := p.method
  url := p.url
  json := some p.data
  headers := p.headers.put (.ofString "Idempotency-Key") p.idempotencyKey

/-- An operation that has passed the checks: the request that probes it, and the entry that is kept
when the request is answered. -/
structure Plan where
  probe : Request
  pending : ℕ → Pending

section Plan

def slash : CodePoint := .scalar '/'

/-- `_generate_idempotency_key`. -/
def idempotencyKey [Platform] (transactionId : PyStr) : Except Exn PyStr :=
  match transactionId.text? with
  | some t => .ok (.ofString ("eh-" ++ Platform.sha256 (encodeUtf8 t.toList)))
  | none => .error transactionId.encodeError

variable [Platform] [TextCase]

/-- The checks of an operation, with what is made of it. -/
def plan (cfg : HttpConfig) (transactionId : PyStr) (operation : List (PyKey × PyValue)) :
    Except Exn Plan := do
  let opType := (PyValue.at? operation "type").getD (.str (.ofString "POST"))
  let opData := (PyValue.at? operation "data").getD (.dict [])
  let endpoint := (PyValue.at? operation "endpoint").getD (.str [])
  match opType with
  | .str opType =>
    let method := TextCase.upper opType
    raiseIf (method ∉ [.ofString "POST", .ofString "PUT", .ofString "PATCH"])
      ⟨.valueError, "only POST, PUT, and PATCH commits are supported"⟩
    match endpoint with
    | .str endpoint =>
      raiseIf (endpoint.head? = some slash ∨ PyStr.ofString ".." ∈ endpoint.splitOn slash)
        ⟨.valueError, "endpoint must be a relative path without traversal"⟩
      let key ← idempotencyKey transactionId
      let headers := (cfg.defaultHeaders.put (.ofString "Idempotency-Key") key).put
        (.ofString "Content-Type") (.ofString "application/json")
      let url := cfg.baseUrl.rdropWhile (· = slash) ++ slash :: endpoint.dropWhile (· = slash)
      let separator : CodePoint := if .scalar '?' ∈ url then .scalar '&' else .scalar '?'
      return {
        probe :=
          if cfg.dryRunParam = [] then ⟨cfg.prepareMethod, url, none, headers⟩
          else ⟨method, url ++ separator :: cfg.dryRunParam, some opData, headers⟩
        pending := fun status ↦ ⟨url, method, opData, key, headers, status⟩ }
    | _ => throw ⟨.valueError, "endpoint must be a relative path without traversal"⟩
  | _ => throw ⟨.valueError, "HTTP method must be text"⟩

end Plan

/-! ## The tables -/

/-- `HTTPAdapter`: `_states` and `_pending`. -/
structure HttpAdapter where
  states : Table PyStr TransactionState
  pending : Table PyStr Pending

namespace HttpAdapter

/-- `get_status`. -/
def getStatus (a : HttpAdapter) (transactionId : PyStr) : TransactionState :=
  (a.states.get? transactionId).getD .failed

/-- `prepare`, before its request. -/
def begin [Platform] [TextCase] (a : HttpAdapter) (cfg : HttpConfig) (transactionId : PyStr)
    (operation : List (PyKey × PyValue)) : Except Exn Plan := do
  raiseIf (transactionId = []) ⟨.valueError, "transaction ID is required"⟩
  raiseIf ((a.states.get? transactionId).isSome = true)
    ⟨.valueError, "transaction ID has already been used"⟩
  plan cfg transactionId operation

/-- `prepare`, after its request: the entry is kept, unless the transaction is used by now. -/
def store (a : HttpAdapter) (transactionId : PyStr) (p : Pending) : Except Exn HttpAdapter :=
  if (a.states.get? transactionId).isSome = true then
    .error ⟨.valueError, "transaction ID has already been used"⟩
  else .ok ⟨a.states.put transactionId .prepared, a.pending.put transactionId p⟩

/-- `self._pending.pop(transaction_id, None)`, and the state of the transaction if it had an
entry. -/
def pop (a : HttpAdapter) (transactionId : PyStr) (state : TransactionState) :
    Option (Pending × HttpAdapter) :=
  (a.pending.get? transactionId).map fun p ↦
    (p, ⟨a.states.put transactionId state, a.pending.filter fun r ↦ r.1 ≠ transactionId⟩)

/-- `commit`, when its request has succeeded. -/
def confirm (a : HttpAdapter) (transactionId : PyStr) : HttpAdapter :=
  { a with states := a.states.put transactionId .committed }

end HttpAdapter

/-! ## Threads -/

/-- Where a call is. -/
inductive Thread
  | idle
  | probing (transactionId : PyStr) (operation : List (PyKey × PyValue)) (p : Plan)
  | storing (transactionId : PyStr) (operation : List (PyKey × PyValue)) (p : Pending)
  | dispatching (transactionId : PyStr) (p : Pending)
  | awaiting (transactionId : PyStr) (p : Pending)
  | confirming (transactionId : PyStr) (p : Pending) (r : Response)

/-- A call that has returned. A commit comes with what its request came to, if it sent one. -/
inductive Returned
  | prepare (transactionId : PyStr) (operation : List (PyKey × PyValue)) (r : PrepareResult)
  | commit (transactionId : PyStr) (outcome : Option (Except Exn Response)) (r : CommitResult)
  | abort (transactionId : PyStr) (r : AbortResult)

/-- The adapter and its threads, with the transactions that commits took up, the writes that they
handed to `session.request`, and the calls that returned. -/
structure System where
  adapter : HttpAdapter
  threads : ℕ → Thread
  taken : List PyStr
  sent : List (PyStr × Request)
  returned : List Returned

inductive Event
  /-- The first section of `prepare`, and the checks. -/
  | prepare (k : ℕ) (transactionId : PyStr) (operation : List (PyKey × PyValue))
  /-- The request of `prepare`. -/
  | probe (k : ℕ) (outcome : Except Exn Response)
  /-- The second section of `prepare`. -/
  | store (k : ℕ)
  /-- The first section of `commit`. -/
  | commit (k : ℕ) (transactionId : PyStr)
  /-- `commit` calls `session.request`. -/
  | send (k : ℕ)
  /-- The call of `session.request` comes to an end. -/
  | answer (k : ℕ) (outcome : Except Exn Response)
  /-- The second section of `commit`. -/
  | confirm (k : ℕ)
  | abort (transactionId : PyStr)

/-- `f"HTTP {response.status_code}: {response.text}"`. -/
def Response.refusal (r : Response) : PyStr :=
  .ofString ("HTTP " ++ toString r.statusCode ++ ": ") ++ r.text

namespace System

/-- The call of a thread returns. -/
def finish (s : System) (k : ℕ) (result : Returned) : System :=
  { s with threads := Function.update s.threads k .idle, returned := result :: s.returned }

/-- A thread goes on. -/
def goOn (s : System) (k : ℕ) (t : Thread) : System :=
  { s with threads := Function.update s.threads k t }

@[simp] theorem goOn_self {s : System} {k : ℕ} {t : Thread} : (s.goOn k t).threads k = t :=
  Function.update_self ..

theorem goOn_ne {s : System} {k k' : ℕ} {t : Thread} (h : k' ≠ k) :
    (s.goOn k t).threads k' = s.threads k' := Function.update_of_ne h ..

/-- A call to `prepare` fails. -/
def refusePrepare (s : System) (k : ℕ) (transactionId : PyStr)
    (operation : List (PyKey × PyValue)) (error : PyStr) : System :=
  s.finish k (.prepare transactionId operation ⟨transactionId, false, some error, none⟩)

/-- A call to `commit` fails. -/
def refuseCommit (s : System) (k : ℕ) (transactionId : PyStr)
    (outcome : Option (Except Exn Response)) (error : PyStr) : System :=
  s.finish k (.commit transactionId outcome ⟨transactionId, false, some error, none⟩)

end System

section Machine

variable [Platform] [TextCase]

/-- The metadata of a prepared operation. -/
def prepareMetadata (status : ℕ) : PyValue :=
  .ofNamed [("prepare_status", .int status), ("validated", .bool true)]

/-- One step of the adapter. -/
def step (cfg : HttpConfig) (s : System) : Event → Option System
  | .prepare k id operation =>
    match s.threads k with
    | .idle =>
      match s.adapter.begin cfg id operation with
      | .error e => some (s.refusePrepare k id operation (.ofString e.message))
      | .ok p => some (s.goOn k (.probing id operation p))
    | _ => none
  | .probe k outcome =>
    match s.threads k with
    -- the answer of the server, or what `session.request` raised
    | .probing id operation p =>
      match outcome with
      | .error e => some (s.refusePrepare k id operation (.ofString e.message))
      | .ok r =>
        if r.Refuses then some (s.refusePrepare k id operation r.refusal)
        else some (s.goOn k (.storing id operation (p.pending r.statusCode)))
    | _ => none
  | .store k =>
    match s.threads k with
    | .storing id operation p =>
      match s.adapter.store id p with
      | .error e => some (s.refusePrepare k id operation (.ofString e.message))
      | .ok a => some { s.finish k (.prepare id operation
          ⟨id, true, none, some (prepareMetadata p.prepareStatus)⟩) with adapter := a }
    | _ => none
  | .commit k id =>
    match s.threads k with
    | .idle =>
      -- taken under the lock: a second call finds nothing to send
      match s.adapter.pop id .indeterminate with
      | none => some (s.refuseCommit k id none (.ofString "No pending transaction found"))
      | some (p, a) => some
          { s.goOn k (.dispatching id p) with adapter := a, taken := id :: s.taken }
    | _ => none
  | .send k =>
    match s.threads k with
    -- from here on the server may have acted, whatever the answer
    | .dispatching id p =>
      some { s.goOn k (.awaiting id p) with sent := (id, p.request) :: s.sent }
    | _ => none
  | .answer k outcome =>
    match s.threads k with
    | .awaiting id p =>
      match outcome with
      | .error e => some (s.refuseCommit k id (some outcome) (.ofString e.message))
      | .ok r =>
        if r.Refuses then some (s.refuseCommit k id (some outcome) r.refusal)
        else some (s.goOn k (.confirming id p r))
    | _ => none
  | .confirm k =>
    match s.threads k with
    | .confirming id _ r =>
      some { s.finish k (.commit id (some (.ok r)) ⟨id, true, none, r.requestId⟩) with
        adapter := s.adapter.confirm id }
    | _ => none
  | .abort id =>
    -- what a call of `commit` has taken cannot be aborted
    match s.adapter.pop id .aborted with
    | none =>
      let error := PyStr.ofString "not prepared; a remote effect may have occurred"
      some { s with returned := .abort id ⟨id, false, some error⟩ :: s.returned }
    | some (_, a) =>
      some { s with adapter := a, returned := .abort id ⟨id, true, none⟩ :: s.returned }

/-- The runs of an adapter, under any interleaving of its calls. -/
def machine (cfg : HttpConfig) : Machine System Event where
  init := ⟨⟨[], []⟩, fun _ ↦ .idle, [], [], []⟩
  step := step cfg

end Machine

/-! ### A run -/

namespace Sample

def upper : CodePoint → CodePoint
  | .scalar c => .scalar c.toUpper
  | c => c

@[reducible] def textCase : TextCase := ⟨List.map upper⟩

def config : HttpConfig where
  baseUrl := .ofString "https://api/"

def id : PyStr := .ofString "a"

/-- The operation `{"type": "put", "endpoint": "v1/a"}`. -/
def operation : List (PyKey × PyValue) :=
  [(.str (.ofString "type"), .str (.ofString "put")),
    (.str (.ofString "endpoint"), .str (.ofString "v1/a"))]

def answered (status : ℕ) : Except Exn Response := .ok ⟨status, [], none⟩

/-- Two threads prepare one transaction, and one of them keeps it. Both commit it, and one of them
takes it up. -/
def opening : List Event :=
  [.prepare 0 id operation, .prepare 1 id operation, .probe 1 (answered 200),
    .probe 0 (answered 200), .store 1, .store 0, .commit 0 id, .commit 1 id]

/-- The write is handed over and confirmed, and the transaction cannot be aborted. -/
def closing : List Event := [.send 0, .abort id, .answer 0 (answered 201), .confirm 0]

/-- The state after the first part and the state after both. -/
theorem path :
    let _ := pythonPlatform
    let _ := textCase
    ∃ s t, (machine config).Reach (fun _ _ ↦ True) s ∧ s.adapter.getStatus id = .indeterminate ∧
      (machine config).Path (fun _ _ ↦ True) s t ∧ t.adapter.getStatus id = .committed := by
  intro _ _
  have hrun : ((machine config).runIf (fun _ _ ↦ True) (machine config).init opening).any (fun s ↦
      s.adapter.getStatus id = .indeterminate ∧
        ((machine config).runIf (fun _ _ ↦ True) s closing).any (fun t ↦
          t.adapter.getStatus id = .committed) = true) = true := by decide +kernel
  obtain ⟨s, hs, hp⟩ := (Option.any_eq_true _ _).mp hrun
  obtain ⟨hstatus, hnext⟩ := of_decide_eq_true hp
  obtain ⟨t, ht, hp'⟩ := (Option.any_eq_true _ _).mp hnext
  exact ⟨s, t, Machine.path_of_runIf hs, hstatus, Machine.path_of_runIf ht, of_decide_eq_true hp'⟩

end Sample

/-! ## Phases -/

/-- How far a transaction has come. -/
inductive Phase
  | unused
  | prepared (p : Pending)
  | aborted (p : Pending)
  | taken (p : Pending)
  | sent (p : Pending)
  | committed (p : Pending)

namespace Phase

/-- The arrows between the phases. -/
inductive Moves : Phase → Phase → Prop
  | prepare (p : Pending) : Moves .unused (.prepared p)
  | abort (p : Pending) : Moves (.prepared p) (.aborted p)
  | take (p : Pending) : Moves (.prepared p) (.taken p)
  | send (p : Pending) : Moves (.taken p) (.sent p)
  | confirm (p : Pending) : Moves (.sent p) (.committed p)

/-- The entry of `_states`. -/
def state? : Phase → Option TransactionState
  | unused => none
  | prepared _ => some .prepared
  | aborted _ => some .aborted
  | taken _ | sent _ => some .indeterminate
  | committed _ => some .committed

/-- The entry of `_pending`. -/
def pending? : Phase → Option Pending
  | prepared p => some p
  | _ => none

/-- The operation that was prepared. -/
def operation? : Phase → Option Pending
  | unused => none
  | prepared p | aborted p | taken p | sent p | committed p => some p

/-- A commit has taken up the operation. -/
def IsTaken : Phase → Prop
  | taken _ | sent _ | committed _ => True
  | unused | prepared _ | aborted _ => False

/-- The writes that were handed to the session. -/
def writes : Phase → List Request
  | sent p | committed p => [p.request]
  | _ => []

end Phase

/-- The transaction of a call. -/
def Returned.transactionId : Returned → PyStr
  | prepare id _ _ | commit id _ _ | abort id _ => id

/-- The call reports success. -/
def Returned.success : Returned → Bool
  | prepare _ _ r => r.success
  | commit _ _ r => r.success
  | abort _ r => r.success

namespace System

/-- A call has returned and reported success. -/
def Succeeded (s : System) (r : Returned) : Prop := r ∈ s.returned ∧ r.success = true

theorem succeeded_cons {s : System} {r r' : Returned} :
    Succeeded { s with returned := r :: s.returned } r' ↔
      r' = r ∧ r.success = true ∨ s.Succeeded r' := by
  rw [Succeeded, Succeeded, List.mem_cons, or_and_right]
  refine or_congr_left (and_congr_right fun h ↦ ?_)
  rw [h]

theorem succeeded_cons_of_ne {s : System} {r r' : Returned} (h : r' ≠ r) :
    Succeeded { s with returned := r :: s.returned } r' ↔ s.Succeeded r' :=
  succeeded_cons.trans (or_iff_right fun hr ↦ h hr.1)

/-- The writes that were handed to the session for a transaction. -/
def writes (s : System) (id : PyStr) : List (PyStr × Request) := s.sent.filter fun w ↦ w.1 = id

end System

section Agreement

variable [Platform] [TextCase] {cfg : HttpConfig} {s s' : System} {id : PyStr} {x : Phase}

/-- What is seen of a transaction is what its phase says. -/
structure Shows (cfg : HttpConfig) (s : System) (id : PyStr) (x : Phase) : Prop where
  state : s.adapter.states.get? id = x.state?
  pending : s.adapter.pending.get? id = x.pending?
  taken : id ∈ s.taken ↔ x.IsTaken
  sent : s.writes id = x.writes.map (id, ·)
  prepared : x ≠ .unused → ∃ operation r, s.Succeeded (.prepare id operation r)
  prepares : ∀ operation r, s.Succeeded (.prepare id operation r) →
    ∃ pl status, plan cfg id operation = .ok pl ∧ x.operation? = some (pl.pending status)
  aborted : (∃ r, s.Succeeded (.abort id r)) ↔ ∃ p, x = .aborted p
  committed : (∃ outcome r, s.Succeeded (.commit id outcome r)) ↔ ∃ p, x = .committed p

/-- What does not touch a transaction leaves it in its phase. -/
theorem Shows.frame (h : Shows cfg s id x)
    (hstate : s'.adapter.states.get? id = s.adapter.states.get? id)
    (hpending : s'.adapter.pending.get? id = s.adapter.pending.get? id)
    (htaken : id ∈ s'.taken ↔ id ∈ s.taken) (hsent : s'.writes id = s.writes id)
    (hreturned : ∀ r : Returned, r.transactionId = id → (s'.Succeeded r ↔ s.Succeeded r)) :
    Shows cfg s' id x where
  state := hstate.trans h.state
  pending := hpending.trans h.pending
  taken := htaken.trans h.taken
  sent := hsent.trans h.sent
  prepared hx := by
    obtain ⟨operation, r, hr⟩ := h.prepared hx
    exact ⟨operation, r, (hreturned _ rfl).mpr hr⟩
  prepares operation r hr := h.prepares operation r ((hreturned _ rfl).mp hr)
  aborted := (exists_congr fun _ ↦ hreturned _ rfl).trans h.aborted
  committed := (exists₂_congr fun _ _ ↦ hreturned _ rfl).trans h.committed

/-- The thread is about to write, or it has written and not returned. -/
def Thread.commits? : Thread → Option PyStr
  | .dispatching id _ | .awaiting id _ | .confirming id _ _ => some id
  | .idle | .probing _ _ _ | .storing _ _ _ => none

/-- No two threads commit one transaction. -/
def Alone (threads : ℕ → Thread) : Prop :=
  ∀ k k' id, (threads k).commits? = some id → (threads k').commits? = some id → k = k'

omit [Platform] [TextCase] in
theorem Alone.update {threads : ℕ → Thread} {k : ℕ} {t : Thread} (h : Alone threads)
    (ht : ∀ id, t.commits? = some id → ∀ k' ≠ k, (threads k').commits? ≠ some id) :
    Alone (Function.update threads k t) := by
  intro k₁ k₂ id h₁ h₂
  by_cases hk₁ : k₁ = k
  · by_cases hk₂ : k₂ = k
    · rw [hk₁, hk₂]
    · rw [hk₁, Function.update_self] at h₁
      rw [Function.update_of_ne hk₂] at h₂
      exact absurd h₂ (ht id h₁ k₂ hk₂)
  · rw [Function.update_of_ne hk₁] at h₁
    by_cases hk₂ : k₂ = k
    · rw [hk₂, Function.update_self] at h₂
      exact absurd h₁ (ht id h₂ k₁ hk₁)
    · rw [Function.update_of_ne hk₂] at h₂
      exact h k₁ k₂ id h₁ h₂

/-- A thread fits the phases. -/
def Fits (cfg : HttpConfig) (f : PyStr → Phase) : Thread → Prop
  | .idle => True
  | .probing id operation pl => plan cfg id operation = .ok pl
  | .storing id operation p => ∃ pl status, plan cfg id operation = .ok pl ∧ p = pl.pending status
  | .dispatching id p => f id = .taken p
  | .awaiting id p => f id = .sent p
  | .confirming id p r => f id = .sent p ∧ ¬r.Refuses

/-- A commit reports success exactly when its request was answered, and not with an error or a
redirect. -/
def Returned.Honest : Returned → Prop
  | .commit _ outcome r => r.success = true ↔ ∃ resp, outcome = some (.ok resp) ∧ ¬resp.Refuses
  | .prepare _ _ _ | .abort _ _ => True

/-- The state of the system is what the phases of the transactions say. -/
structure Agrees (cfg : HttpConfig) (f : PyStr → Phase) (s : System) : Prop where
  shows : ∀ id, Shows cfg s id (f id)
  threads : ∀ k, Fits cfg f (s.threads k)
  alone : Alone s.threads
  honest : ∀ r ∈ s.returned, r.Honest

variable {f : PyStr → Phase} {k : ℕ} {t : Thread} {r : Returned}

theorem Fits.update (h : Fits cfg f t) (hid : t.commits? ≠ some id) :
    Fits cfg (Function.update f id x) t := by
  cases t with
  | idle | probing | storing => exact h
  | dispatching id' p | awaiting id' p =>
    have hne : id' ≠ id := fun heq ↦ hid (congrArg some heq)
    exact (Function.update_of_ne hne ..).trans h
  | confirming id' p r =>
    have hne : id' ≠ id := fun heq ↦ hid (congrArg some heq)
    exact ⟨(Function.update_of_ne hne ..).trans h.1, h.2⟩

/-- A transaction that no commit has taken up is not that of a thread that commits. -/
theorem Agrees.commits?_ne (h : Agrees cfg f s) (hid : ¬(f id).IsTaken) (k : ℕ) :
    (s.threads k).commits? ≠ some id := by
  have hfits := h.threads k
  intro hk
  cases hthread : s.threads k with
  | idle | probing | storing => rw [hthread] at hk; cases hk
  | dispatching id' p | awaiting id' p =>
    rw [hthread] at hk hfits
    cases hk
    rw [hfits] at hid
    exact hid trivial
  | confirming id' p r =>
    rw [hthread] at hk hfits
    cases hk
    rw [hfits.1] at hid
    exact hid trivial

/-- The thread that commits a transaction is the only one. -/
theorem Agrees.commits?_ne_of_ne (h : Agrees cfg f s) (hk : (s.threads k).commits? = some id)
    {k' : ℕ} (hne : k' ≠ k) : (s.threads k').commits? ≠ some id := fun hk' ↦
  hne (h.alone k' k id hk' hk)

/-- A thread goes on, without starting to commit. -/
theorem Agrees.goOn (h : Agrees cfg f s) (ht : Fits cfg f t)
    (hc : ∀ id, t.commits? = some id → (s.threads k).commits? = some id) :
    Agrees cfg f (s.goOn k t) where
  shows id := (h.shows id).frame rfl rfl .rfl rfl fun _ _ ↦ .rfl
  threads k' := by
    by_cases hk : k' = k
    · rw [hk, System.goOn_self]
      exact ht
    · rw [System.goOn_ne hk]
      exact h.threads k'
  alone := h.alone.update fun id hid k' hne ↦ h.commits?_ne_of_ne (hc id hid) hne
  honest := h.honest

/-- A call returns without success. -/
theorem Agrees.fails (h : Agrees cfg f s) (hr : r.success = false) (hhonest : r.Honest) :
    Agrees cfg f { s with returned := r :: s.returned } where
  shows id := by
    refine (h.shows id).frame rfl rfl .rfl rfl fun r' _ ↦ ?_
    rw [System.succeeded_cons, hr]
    simp
  threads := h.threads
  alone := h.alone
  honest := List.forall_mem_cons.mpr ⟨hhonest, h.honest⟩

theorem Agrees.idle (h : Agrees cfg f s) : Agrees cfg f (s.goOn k .idle) :=
  h.goOn trivial fun _ hid ↦ by cases hid

theorem Agrees.refusePrepare {operation : List (PyKey × PyValue)} {error : PyStr}
    (h : Agrees cfg f s) : Agrees cfg f (s.refusePrepare k id operation error) :=
  (h.idle (k := k)).fails rfl trivial

theorem Agrees.refuseCommit {outcome : Option (Except Exn Response)} {error : PyStr}
    (h : Agrees cfg f s) (ho : ∀ resp, outcome = some (.ok resp) → resp.Refuses) :
    Agrees cfg f (s.refuseCommit k id outcome error) := by
  refine (h.idle (k := k)).fails rfl (iff_of_false (by simp) ?_)
  rintro ⟨resp, hresp, hno⟩
  exact hno (ho resp hresp)

/-- One transaction moves to another phase, and the others are not touched. -/
theorem Agrees.move (h : Agrees cfg f s) (hshows : Shows cfg s' id x)
    (hframe : ∀ id' ≠ id, Shows cfg s id' (f id') → Shows cfg s' id' (f id'))
    (hthreads : ∀ k, Fits cfg (Function.update f id x) (s'.threads k)) (halone : Alone s'.threads)
    (hhonest : ∀ r ∈ s'.returned, r.Honest) : Agrees cfg (Function.update f id x) s' where
  shows id' := by
    by_cases hid : id' = id
    · subst hid
      rw [Function.update_self]
      exact hshows
    · rw [Function.update_of_ne hid]
      exact hframe id' hid (h.shows id')
  threads := hthreads
  alone := halone
  honest := hhonest

/-- One thread goes on while the transaction moves, and no other one commits it. -/
theorem Agrees.fits_update (h : Agrees cfg f s)
    (hne : ∀ k' ≠ k, (s.threads k').commits? ≠ some id) (ht : Fits cfg (Function.update f id x) t)
    (k' : ℕ) : Fits cfg (Function.update f id x) (Function.update s.threads k t k') := by
  by_cases hk : k' = k
  · rw [hk, Function.update_self]
    exact ht
  · rw [Function.update_of_ne hk]
    exact (h.threads k').update (hne k' hk)

theorem Agrees.alone_update (h : Agrees cfg f s)
    (hne : ∀ k' ≠ k, (s.threads k').commits? ≠ some id)
    (ht : ∀ id', t.commits? = some id' → id' = id) : Alone (Function.update s.threads k t) :=
  h.alone.update fun id' hid' k' hk ↦ ht id' hid' ▸ hne k' hk

omit [Platform] [TextCase] in
theorem Phase.eq_unused (h : x.state? = none) : x = .unused := by
  cases x with
  | unused => rfl
  | _ => cases h

omit [Platform] [TextCase] in
theorem Phase.eq_prepared {p : Pending} (h : x.pending? = some p) : x = .prepared p := by
  cases x with
  | prepared q => exact congrArg _ (Option.some.inj h)
  | _ => cases h

/-- A transaction is prepared. -/
theorem Agrees.store {operation : List (PyKey × PyValue)} {p : Pending} {a : HttpAdapter}
    (h : Agrees cfg f s) (hk : s.threads k = .storing id operation p)
    (ha : s.adapter.store id p = .ok a) : f id = .unused ∧ Agrees cfg
      (Function.update f id (.prepared p)) { s.finish k (.prepare id operation
        ⟨id, true, none, some (prepareMetadata p.prepareStatus)⟩) with adapter := a } := by
  obtain ⟨pl, status, hpl, hp⟩ : ∃ pl status, plan cfg id operation = .ok pl ∧
      p = pl.pending status := by
    have hfits := h.threads k
    rwa [hk] at hfits
  have hid := h.shows id
  rw [HttpAdapter.store] at ha
  split at ha
  case isTrue => cases ha
  case isFalse hfree =>
  cases ha
  rw [Bool.not_eq_true, Option.isSome_eq_false_iff, Option.isNone_iff_eq_none, hid.state] at hfree
  have hunused := Phase.eq_unused hfree
  rw [hunused] at hid
  have hfree : ¬(f id).IsTaken := by
    rw [hunused]
    exact not_false
  have hne : ∀ k' ≠ k, (s.threads k').commits? ≠ some id := fun k' _ ↦ h.commits?_ne hfree k'
  refine ⟨hunused, h.move ?_ ?_ (h.fits_update hne trivial)
    (h.alone_update hne fun _ hc ↦ by cases hc) (List.forall_mem_cons.mpr ⟨trivial, h.honest⟩)⟩
  · refine ⟨Table.get?_put_self, Table.get?_put_self, hid.taken, hid.sent, fun _ ↦
      ⟨operation, _, System.succeeded_cons.mpr (.inl ⟨rfl, rfl⟩)⟩, fun operation' r hr ↦ ?_, ?_, ?_⟩
    · rcases System.succeeded_cons.mp hr with ⟨heq, -⟩ | hold
      · cases heq
        exact ⟨pl, status, hpl, congrArg some hp⟩
      · obtain ⟨_, _, -, hnone⟩ := hid.prepares _ _ hold
        cases hnone
    · refine (exists_congr fun r ↦ System.succeeded_cons_of_ne (by simp)).trans ?_
      exact hid.aborted.trans (iff_of_false (by simp) (by simp))
    · refine (exists₂_congr fun o r ↦ System.succeeded_cons_of_ne (by simp)).trans ?_
      exact hid.committed.trans (iff_of_false (by simp) (by simp))
  · intro id' hne hshows
    refine hshows.frame (Table.get?_put_ne hne) (Table.get?_put_ne hne) .rfl rfl fun r hr ↦ ?_
    exact System.succeeded_cons_of_ne fun heq ↦ hne (hr.symm.trans (congrArg _ heq))

omit [Platform] [TextCase] in
theorem HttpAdapter.pop_eq_some {a a' : HttpAdapter} {state : TransactionState} {p : Pending}
    (h : a.pop id state = some (p, a')) : a.pending.get? id = some p ∧
      a' = ⟨a.states.put id state, a.pending.filter fun r ↦ r.1 ≠ id⟩ := by
  obtain ⟨q, hq, heq⟩ := Option.map_eq_some_iff.mp h
  cases heq
  exact ⟨hq, rfl⟩

/-- A prepared transaction is aborted. -/
theorem Agrees.abort {p : Pending} {a : HttpAdapter} (h : Agrees cfg f s)
    (ha : s.adapter.pop id .aborted = some (p, a)) : f id = .prepared p ∧ Agrees cfg
      (Function.update f id (.aborted p))
      { s with adapter := a, returned := .abort id ⟨id, true, none⟩ :: s.returned } := by
  obtain ⟨hp, rfl⟩ := HttpAdapter.pop_eq_some ha
  have hid := h.shows id
  have hprepared := Phase.eq_prepared (hid.pending.symm.trans hp)
  rw [hprepared] at hid
  have hfree : ¬(f id).IsTaken := by
    rw [hprepared]
    exact not_false
  have hne := h.commits?_ne hfree
  refine ⟨hprepared, h.move ?_ ?_ (fun k ↦ (h.threads k).update (hne k)) h.alone
    (List.forall_mem_cons.mpr ⟨trivial, h.honest⟩)⟩
  · refine ⟨Table.get?_put_self, Table.get?_filter_ne.trans (if_pos rfl), hid.taken, hid.sent,
      fun _ ↦ ?_, fun operation r hr ↦ ?_, ?_, ?_⟩
    · obtain ⟨operation, r, hr⟩ := hid.prepared (by simp)
      exact ⟨operation, r, (System.succeeded_cons_of_ne (by simp)).mpr hr⟩
    · exact hid.prepares operation r ((System.succeeded_cons_of_ne (by simp)).mp hr)
    · exact iff_of_true ⟨_, System.succeeded_cons.mpr (.inl ⟨rfl, rfl⟩)⟩ ⟨p, rfl⟩
    · refine (exists₂_congr fun o r ↦ System.succeeded_cons_of_ne (by simp)).trans ?_
      exact hid.committed.trans (iff_of_false (by simp) (by simp))
  · intro id' hne hshows
    refine hshows.frame (Table.get?_put_ne hne) (Table.get?_filter_ne.trans (if_neg hne)) .rfl rfl
      fun r hr ↦ ?_
    exact System.succeeded_cons_of_ne fun heq ↦ hne (hr.symm.trans (congrArg _ heq))

/-- A commit takes a prepared transaction up. -/
theorem Agrees.take {p : Pending} {a : HttpAdapter} (h : Agrees cfg f s)
    (ha : s.adapter.pop id .indeterminate = some (p, a)) : f id = .prepared p ∧ Agrees cfg
      (Function.update f id (.taken p))
      { s.goOn k (.dispatching id p) with adapter := a, taken := id :: s.taken } := by
  obtain ⟨hp, rfl⟩ := HttpAdapter.pop_eq_some ha
  have hid := h.shows id
  have hprepared := Phase.eq_prepared (hid.pending.symm.trans hp)
  rw [hprepared] at hid
  have hfree : ¬(f id).IsTaken := by
    rw [hprepared]
    exact not_false
  have hne : ∀ k' ≠ k, (s.threads k').commits? ≠ some id := fun k' _ ↦ h.commits?_ne hfree k'
  refine ⟨hprepared, h.move ?_ ?_ (h.fits_update hne (Function.update_self ..))
    (h.alone_update hne fun _ hc ↦ (Option.some.inj hc).symm) h.honest⟩
  · refine ⟨Table.get?_put_self, Table.get?_filter_ne.trans (if_pos rfl),
      iff_of_true List.mem_cons_self trivial, hid.sent, fun _ ↦ hid.prepared (by simp),
      hid.prepares, ?_, ?_⟩
    · exact hid.aborted.trans (iff_of_false (by simp) (by simp))
    · exact hid.committed.trans (iff_of_false (by simp) (by simp))
  · intro id' hne hshows
    exact hshows.frame (Table.get?_put_ne hne) (Table.get?_filter_ne.trans (if_neg hne))
      (List.mem_cons.trans (or_iff_right hne)) rfl fun _ _ ↦ .rfl

/-- The write of a transaction is handed to the session. -/
theorem Agrees.send {p : Pending} (h : Agrees cfg f s) (hk : s.threads k = .dispatching id p) :
    f id = .taken p ∧ Agrees cfg (Function.update f id (.sent p))
      { s.goOn k (.awaiting id p) with sent := (id, p.request) :: s.sent } := by
  have htaken : f id = .taken p := by
    have hfits := h.threads k
    rwa [hk] at hfits
  have hid := h.shows id
  rw [htaken] at hid
  have hne : ∀ k' ≠ k, (s.threads k').commits? ≠ some id := fun k' ↦
    h.commits?_ne_of_ne (by rw [hk]; rfl)
  refine ⟨htaken, h.move ?_ ?_ (h.fits_update hne (Function.update_self ..))
    (h.alone_update hne fun _ hc ↦ (Option.some.inj hc).symm) h.honest⟩
  · refine ⟨hid.state, hid.pending, hid.taken, ?_, fun _ ↦ hid.prepared (by simp), hid.prepares,
      ?_, ?_⟩
    · refine (List.filter_cons_of_pos (by simp)).trans ?_
      exact congrArg (List.cons (id, p.request)) hid.sent
    · exact hid.aborted.trans (iff_of_false (by simp) (by simp))
    · exact hid.committed.trans (iff_of_false (by simp) (by simp))
  · intro id' hne hshows
    refine hshows.frame rfl rfl .rfl ?_ fun _ _ ↦ .rfl
    exact List.filter_cons_of_neg (by simpa using hne.symm)

/-- The write of a transaction is confirmed. -/
theorem Agrees.confirm {p : Pending} {resp : Response} (h : Agrees cfg f s)
    (hk : s.threads k = .confirming id p resp) : f id = .sent p ∧ Agrees cfg
      (Function.update f id (.committed p))
      { s.finish k (.commit id (some (.ok resp)) ⟨id, true, none, resp.requestId⟩) with
        adapter := s.adapter.confirm id } := by
  obtain ⟨hsent, hok⟩ : f id = .sent p ∧ ¬resp.Refuses := by
    have hfits := h.threads k
    rwa [hk] at hfits
  have hid := h.shows id
  rw [hsent] at hid
  have hne : ∀ k' ≠ k, (s.threads k').commits? ≠ some id := fun k' ↦
    h.commits?_ne_of_ne (by rw [hk]; rfl)
  refine ⟨hsent, h.move ?_ ?_ (h.fits_update hne trivial)
    (h.alone_update hne fun _ hc ↦ by cases hc)
    (List.forall_mem_cons.mpr ⟨iff_of_true rfl ⟨resp, rfl, hok⟩, h.honest⟩)⟩
  · refine ⟨Table.get?_put_self, hid.pending, hid.taken, hid.sent, fun _ ↦ ?_,
      fun operation r hr ↦ ?_, ?_, ?_⟩
    · obtain ⟨operation, r, hr⟩ := hid.prepared (by simp)
      exact ⟨operation, r, (System.succeeded_cons_of_ne (by simp)).mpr hr⟩
    · exact hid.prepares operation r ((System.succeeded_cons_of_ne (by simp)).mp hr)
    · refine (exists_congr fun r ↦ System.succeeded_cons_of_ne (by simp)).trans ?_
      exact hid.aborted.trans (iff_of_false (by simp) (by simp))
    · exact iff_of_true ⟨_, _, System.succeeded_cons.mpr (.inl ⟨rfl, rfl⟩)⟩ ⟨p, rfl⟩
  · intro id' hne hshows
    refine hshows.frame (Table.get?_put_ne hne) rfl .rfl rfl fun r hr ↦ ?_
    exact System.succeeded_cons_of_ne fun heq ↦ hne (hr.symm.trans (congrArg _ heq))

omit [Platform] [TextCase] in
/-- A transaction moves to another phase, or none does. -/
theorem reflGen_of_move (h : Phase.Moves (f id) x) (id' : PyStr) :
    Relation.ReflGen Phase.Moves (f id') (Function.update f id x id') :=
  Machine.reflGen_update h id'

/-- Every step moves at most one transaction, along an arrow. -/
theorem machine_moves : (machine cfg).Moves (fun _ _ ↦ True) (Agrees cfg) Phase.Moves := by
  intro f s e s' h _ hstep
  change step cfg s e = some s' at hstep
  -- A step that moves no transaction.
  have stay : Agrees cfg f s' → ∃ f', Agrees cfg f' s' ∧
      ∀ id, Relation.ReflGen Phase.Moves (f id) (f' id) := fun h' ↦ ⟨f, h', fun _ ↦ .refl⟩
  cases e with
  | prepare k id operation =>
    rw [step] at hstep
    split at hstep
    case h_2 => cases hstep
    case h_1 hk =>
    split at hstep
    case h_1 => exact stay (Option.some.inj hstep ▸ h.refusePrepare)
    case h_2 p hp =>
    obtain ⟨-, hp⟩ := raiseIf_bind_eq_ok.mp hp
    obtain ⟨-, hp⟩ := raiseIf_bind_eq_ok.mp hp
    refine stay (Option.some.inj hstep ▸ h.goOn hp fun id hid ↦ ?_)
    cases hid
  | probe k outcome =>
    rw [step] at hstep
    split at hstep
    case h_2 => cases hstep
    case h_1 id operation pl hk =>
    split at hstep
    case h_1 => exact stay (Option.some.inj hstep ▸ h.refusePrepare)
    case h_2 resp =>
    split at hstep
    case isTrue => exact stay (Option.some.inj hstep ▸ h.refusePrepare)
    case isFalse =>
    have hpl : plan cfg id operation = .ok pl := by
      have hfits := h.threads k
      rwa [hk] at hfits
    refine stay (Option.some.inj hstep ▸ h.goOn ⟨pl, resp.statusCode, hpl, rfl⟩ fun id hid ↦ ?_)
    cases hid
  | store k =>
    rw [step] at hstep
    split at hstep
    case h_2 => cases hstep
    case h_1 id operation p hk =>
    split at hstep
    case h_1 => exact stay (Option.some.inj hstep ▸ h.refusePrepare)
    case h_2 a ha =>
    obtain ⟨hunused, h'⟩ := h.store hk ha
    exact ⟨_, Option.some.inj hstep ▸ h', reflGen_of_move (hunused ▸ .prepare p)⟩
  | commit k id =>
    rw [step] at hstep
    split at hstep
    case h_2 => cases hstep
    case h_1 hk =>
    split at hstep
    case h_1 =>
      refine stay (Option.some.inj hstep ▸ h.refuseCommit fun resp hresp ↦ ?_)
      cases hresp
    case h_2 p a ha =>
    obtain ⟨hprepared, h'⟩ := h.take ha
    exact ⟨_, Option.some.inj hstep ▸ h', reflGen_of_move (hprepared ▸ .take p)⟩
  | send k =>
    rw [step] at hstep
    split at hstep
    case h_2 => cases hstep
    case h_1 id p hk =>
    obtain ⟨htaken, h'⟩ := h.send hk
    exact ⟨_, Option.some.inj hstep ▸ h', reflGen_of_move (htaken ▸ .send p)⟩
  | answer k outcome =>
    rw [step] at hstep
    split at hstep
    case h_2 => cases hstep
    case h_1 id p hk =>
    have hsent : f id = .sent p := by
      have hfits := h.threads k
      rwa [hk] at hfits
    split at hstep
    case h_1 =>
      refine stay (Option.some.inj hstep ▸ h.refuseCommit fun resp hresp ↦ ?_)
      cases hresp
    case h_2 resp =>
    split at hstep
    case isTrue hno =>
      refine stay (Option.some.inj hstep ▸ h.refuseCommit fun resp' hresp ↦ ?_)
      cases hresp
      exact hno
    case isFalse hok =>
      refine stay (Option.some.inj hstep ▸ h.goOn ⟨hsent, hok⟩ fun id' hid ↦ ?_)
      rw [hk]
      exact hid
  | confirm k =>
    rw [step] at hstep
    split at hstep
    case h_2 => cases hstep
    case h_1 id p resp hk =>
    obtain ⟨hsent, h'⟩ := h.confirm hk
    exact ⟨_, Option.some.inj hstep ▸ h', reflGen_of_move (hsent ▸ .confirm p)⟩
  | abort id =>
    rw [step] at hstep
    split at hstep
    case h_1 => exact stay (Option.some.inj hstep ▸ h.fails rfl trivial)
    case h_2 p a ha =>
    obtain ⟨hprepared, h'⟩ := h.abort ha
    exact ⟨_, Option.some.inj hstep ▸ h', reflGen_of_move (hprepared ▸ .abort p)⟩

/-- At first no transaction is used. -/
theorem agrees_init : Agrees cfg (fun _ ↦ .unused) (machine cfg).init := by
  have hnone : ∀ r, ¬(machine cfg).init.Succeeded r := fun r hr ↦ List.not_mem_nil hr.1
  have hshows : ∀ id, Shows cfg (machine cfg).init id .unused := fun id ↦ {
    state := rfl
    pending := rfl
    taken := iff_of_false List.not_mem_nil not_false
    sent := rfl
    prepared := fun hx ↦ absurd rfl hx
    prepares := fun _ _ hr ↦ absurd hr (hnone _)
    aborted := iff_of_false (by simp [hnone]) (by simp)
    committed := iff_of_false (by simp [hnone]) (by simp) }
  refine ⟨hshows, fun _ ↦ trivial, fun _ _ _ hid ↦ ?_, fun r hr ↦ absurd hr List.not_mem_nil⟩
  cases hid

end Agreement

/-! ## What the adapter promises -/

section Contract

variable [Platform] [TextCase] {cfg : HttpConfig} {s t : System} {id : PyStr} {x : Phase}

/-- What the adapter promises about the writes. -/
structure Contract (cfg : HttpConfig) (s : System) : Prop where
  /-- No transaction is written by two calls of `session.request`. -/
  once : ∀ id, (s.writes id).length ≤ 1
  /-- A write is of an operation that was prepared, and of any that was prepared for its
  transaction. -/
  carries : ∀ id w, (id, w) ∈ s.sent → (∃ operation r, s.Succeeded (.prepare id operation r)) ∧
    ∀ operation r, s.Succeeded (.prepare id operation r) →
      ∃ pl status, plan cfg id operation = .ok pl ∧ w = (pl.pending status).request
  /-- What was aborted is not written. -/
  aborted : ∀ id r, s.Succeeded (.abort id r) → ∀ w, (id, w) ∉ s.sent
  /-- What a commit confirms is written. -/
  committed : ∀ id outcome r, s.Succeeded (.commit id outcome r) → ∃ w, (id, w) ∈ s.sent
  /-- A commit succeeds when its request is answered, and neither with an error nor a redirect. -/
  honest : ∀ r ∈ s.returned, r.Honest

theorem Shows.mem_sent (h : Shows cfg s id x) {w : Request} :
    (id, w) ∈ s.sent ↔ w ∈ x.writes := by
  have hmem : (id, w) ∈ s.writes id ↔ (id, w) ∈ s.sent := by
    rw [System.writes, List.mem_filter, decide_eq_true_iff]
    exact and_iff_left rfl
  rw [← hmem, h.sent, List.mem_map]
  constructor
  · rintro ⟨w', hw, heq⟩
    exact (Prod.mk.inj heq).2 ▸ hw
  · intro hw
    exact ⟨w, hw, rfl⟩

omit [Platform] [TextCase] in
/-- A write is that of the operation that was prepared. -/
theorem Phase.mem_writes {w : Request} (h : w ∈ x.writes) :
    x ≠ .unused ∧ ∀ p, x.operation? = some p → w = p.request := by
  cases x with
  | unused | prepared | aborted | taken => cases h
  | sent p | committed p =>
    refine ⟨by simp, fun q hq ↦ ?_⟩
    cases hq
    exact List.mem_singleton.mp h

theorem Agrees.contract {f : PyStr → Phase} (h : Agrees cfg f s) : Contract cfg s where
  once id := by
    rw [(h.shows id).sent, List.length_map]
    cases f id with
    | unused | prepared | aborted | taken => exact Nat.zero_le 1
    | sent | committed => exact Nat.le_refl 1
  carries id w hw := by
    obtain ⟨hused, hop⟩ := Phase.mem_writes ((h.shows id).mem_sent.mp hw)
    refine ⟨(h.shows id).prepared hused, fun operation r hr ↦ ?_⟩
    obtain ⟨pl, status, hpl, hx⟩ := (h.shows id).prepares operation r hr
    exact ⟨pl, status, hpl, hop _ hx⟩
  aborted id r hr w hw := by
    obtain ⟨p, hp⟩ := (h.shows id).aborted.mp ⟨r, hr⟩
    rw [(h.shows id).mem_sent, hp] at hw
    cases hw
  committed id outcome r hr := by
    obtain ⟨p, hp⟩ := (h.shows id).committed.mp ⟨outcome, r, hr⟩
    exact ⟨p.request, (h.shows id).mem_sent.mpr (hp ▸ List.mem_singleton_self _)⟩
  honest := h.honest

/-- Whatever the order in which the calls take their steps, and whatever the requests are answered
with: no two requests write one transaction, a write is what was prepared, nothing that was aborted
is written, and a commit that confirms has been answered. -/
theorem contract_of_reach (h : (machine cfg).Reach (fun _ _ ↦ True) s) : Contract cfg s := by
  obtain ⟨f, hf, -⟩ := machine_moves.reach h agrees_init
  exact hf.contract

omit [Platform] [TextCase] in
theorem contract_sample :
    let _ := pythonPlatform
    let _ := Sample.textCase
    ∃ t : System, t.adapter.getStatus Sample.id = .committed ∧ Contract Sample.config t := by
  intro _ _
  obtain ⟨s, t, hs, -, ht, hstatus⟩ := Sample.path
  exact ⟨t, hstatus, contract_of_reach (hs.trans ht)⟩

/-! ### The status -/

/-- What the status of a transaction says about the calls. -/
structure Tells (s : System) (id : PyStr) : Prop where
  failed : s.adapter.getStatus id = .failed ↔
    ¬∃ operation r, s.Succeeded (.prepare id operation r)
  prepared : s.adapter.getStatus id = .prepared ↔
    (∃ operation r, s.Succeeded (.prepare id operation r)) ∧ id ∉ s.taken ∧
      ¬∃ r, s.Succeeded (.abort id r)
  indeterminate : s.adapter.getStatus id = .indeterminate ↔
    id ∈ s.taken ∧ ¬∃ outcome r, s.Succeeded (.commit id outcome r)
  aborted : s.adapter.getStatus id = .aborted ↔ ∃ r, s.Succeeded (.abort id r)
  committed : s.adapter.getStatus id = .committed ↔
    ∃ outcome r, s.Succeeded (.commit id outcome r)

/-- The status of a transaction in a phase. -/
def Phase.status (x : Phase) : TransactionState := x.state?.getD .failed

theorem Shows.status (h : Shows cfg s id x) : s.adapter.getStatus id = x.status := by
  rw [HttpAdapter.getStatus, h.state, Phase.status]

theorem Shows.tells (h : Shows cfg s id x) : Tells s id := by
  have hprepared : (∃ operation r, s.Succeeded (.prepare id operation r)) ↔ x ≠ .unused := by
    refine ⟨?_, h.prepared⟩
    rintro ⟨operation, r, hr⟩ rfl
    obtain ⟨_, _, -, hnone⟩ := h.prepares operation r hr
    cases hnone
  constructor
  all_goals
    rw [h.status]
    simp only [hprepared, h.taken, h.aborted, h.committed]
    cases x <;> simp [Phase.status, Phase.state?, Phase.IsTaken]

/-- The status tells which calls have succeeded, and whether a commit took the transaction up. -/
theorem tells_of_reach (h : (machine cfg).Reach (fun _ _ ↦ True) s) (id : PyStr) : Tells s id := by
  obtain ⟨f, hf, -⟩ := machine_moves.reach h agrees_init
  exact (hf.shows id).tells

omit [Platform] [TextCase] in
theorem tells_sample :
    let _ := pythonPlatform
    let _ := Sample.textCase
    ∃ t : System, t.adapter.getStatus Sample.id = .committed ∧ Tells t Sample.id := by
  intro _ _
  obtain ⟨s, t, hs, -, ht, hstatus⟩ := Sample.path
  exact ⟨t, hstatus, tells_of_reach (hs.trans ht) Sample.id⟩

/-- The arrows between the states that `get_status` reports. -/
inductive Advances : TransactionState → TransactionState → Prop
  | prepare : Advances .failed .prepared
  | abort : Advances .prepared .aborted
  | take : Advances .prepared .indeterminate
  | confirm : Advances .indeterminate .committed

omit [Platform] [TextCase] in
theorem Phase.Moves.advances {y : Phase} (h : Phase.Moves x y) :
    Relation.ReflTransGen Advances x.status y.status := by
  cases h with
  | prepare => exact .single .prepare
  | abort => exact .single .abort
  | take => exact .single .take
  | send => exact .refl
  | confirm => exact .single .confirm

omit [Platform] [TextCase] in
theorem Phase.not_moves_of_final (h : x.status ∈ [.committed, .aborted]) (y : Phase) :
    ¬Phase.Moves x y := by
  intro hmove
  cases hmove <;> simp [Phase.status, Phase.state?] at h

/-- A status only advances, and what is committed or aborted stays so, with the writes it has. -/
theorem status_of_path (hs : (machine cfg).Reach (fun _ _ ↦ True) s)
    (ht : (machine cfg).Path (fun _ _ ↦ True) s t) (id : PyStr) :
    Relation.ReflTransGen Advances (s.adapter.getStatus id) (t.adapter.getStatus id) ∧
      (s.adapter.getStatus id ∈ [.committed, .aborted] →
        t.adapter.getStatus id = s.adapter.getStatus id ∧ t.writes id = s.writes id) := by
  obtain ⟨f, hf, -⟩ := machine_moves.reach hs agrees_init
  obtain ⟨g, hg, hfg⟩ := machine_moves.path ht hf
  rw [(hf.shows id).status, (hg.shows id).status, (hf.shows id).sent, (hg.shows id).sent]
  refine ⟨(hfg id).lift' Phase.status fun _ _ hmove ↦ hmove.advances, fun hfinal ↦ ?_⟩
  have heq : f id = g id := Machine.eq_of_final (hfg id) (Phase.not_moves_of_final hfinal)
  rw [heq]
  exact ⟨rfl, rfl⟩

omit [Platform] [TextCase] in
theorem status_sample :
    let _ := pythonPlatform
    let _ := Sample.textCase
    ∃ s t : System, s.adapter.getStatus Sample.id = .indeterminate ∧
      t.adapter.getStatus Sample.id = .committed ∧
      Relation.ReflTransGen Advances (s.adapter.getStatus Sample.id)
        (t.adapter.getStatus Sample.id) := by
  intro _ _
  obtain ⟨s, t, hs, hbefore, ht, hafter⟩ := Sample.path
  exact ⟨s, t, hbefore, hafter, (status_of_path hs ht Sample.id).1⟩

end Contract

end EventHorizon.Adapters.Http
