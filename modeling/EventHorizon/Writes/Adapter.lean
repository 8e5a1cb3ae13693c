import EventHorizon.Canonical.Loads
import EventHorizon.Keys.Manager
import EventHorizon.Library.FileTree

/-!
# The filesystem write adapter

`FilesystemWriteAdapter` of `external_write_adapter.py`. A write is prepared, which puts its content
into a temporary file and a record into the log, and is committed or aborted later. The log is an
SQLite database in the same directory, so the tree of files is the whole state. A file that is not
the database the adapter made may still be one: `image` says which log its octets are, if any.

A record is as `get_status` reads it, with its result decoded. Storage works: a file is opened
unless its path does not allow it, and what is written is there.
-/

namespace EventHorizon.Writes

open Keys (bindText)

/-! ## The state -/

inductive TransactionState
  | pending
  | prepared
  | committed
  | aborted
  deriving DecidableEq, Repr

/-- A row of `transactions` without its key. -/
structure TransactionRecord where
  state : TransactionState
  payloadJson : String
  preparedAt : Option String
  committedAt : Option String
  abortedAt : Option String
  result : Option PyValue
  createdAt : String
  updatedAt : String

/-- The rows of `transactions`. -/
abbrev TransactionLog := Table String TransactionRecord

/-- What is in a file: octets, or the database of the log. -/
inductive Content
  | octets (data : List ℕ)
  | database (log : TransactionLog)

abbrev Files := FileTree Content

/-- Why a path is refused before the file system looks it up. -/
inductive Refusal
  /-- A NUL in the path. -/
  | valueError
  /-- An `OSError`, such as for a name that is too long. -/
  | osError

/-- The adapter, and what it stands on. -/
structure FilesystemWriteAdapter where
  /-- The names of `base_path`, from the root. -/
  basePath : List String
  maxFileSize : ℤ
  /-- `json.dumps`. -/
  dumps : PyValue → Except Exn String
  /-- Whether the names of a path are refused. -/
  refuses : List String → Option Refusal
  /-- The text of the `OSError` for a path that cannot be opened. -/
  osText : List String → String
  /-- The log of a file with these octets, or what SQLite says when they are not a database with the
  table. -/
  image : List ℕ → Except String TransactionLog
  /-- A new database has no table. -/
  image_nil : image [] = .error "no such table: transactions"

/-- `ExternalWriteError`. -/
def refuse (message : String) : Exn := ⟨.externalWriteError, message⟩

/-- The payload of a write. `octets` is its content when that is `bytes`, which stands in the items
as `PyValue.other "bytes"`. -/
structure Payload where
  items : List (PyKey × PyValue)
  octets : List ℕ

namespace FilesystemWriteAdapter

variable (w : FilesystemWriteAdapter)

/-- `base_path / "transactions.sqlite3"`. -/
def logPath : List String := w.basePath ++ ["transactions.sqlite3"]

/-! ## The log -/

def cannotOpen : Exn := ⟨.databaseError, "unable to open database file"⟩

/-- `sqlite3.connect`, which creates the file. -/
def connect (s : Files) : Except Exn Unit × Files :=
  match s.get? w.logPath with
  | some .dir => (.error cannotOpen, s)
  | some (.file _) => (.ok (), s)
  | none =>
    if s.isDir w.basePath = true then (.ok (), s.put w.logPath (.file (.octets [])))
    else (.error cannotOpen, s)

/-- The rows that a statement finds. -/
def log (s : Files) : Except Exn TransactionLog :=
  match s.get? w.logPath with
  | some (.file (.database log)) => .ok log
  | some (.file (.octets data)) =>
    match w.image data with
    | .ok log => .ok log
    | .error message => .error ⟨.databaseError, message⟩
  | _ => .error cannotOpen

/-- The files with these rows in the log. -/
def withLog (s : Files) (log : TransactionLog) : Files := s.put w.logPath (.file (.database log))

/-- `get_status` of the log, with the operation as text. -/
def getStatus (s : Files) (operationId : PyStr) :
    Except Exn (String × Option TransactionRecord) × Files :=
  andThen (w.connect s) fun _ s ↦
  andThen (w.log s, s) fun log s ↦
  andThen (bindText operationId, s) fun operationId s ↦
    (.ok (operationId, log.get? operationId), s)

/-- `create_pending`. -/
def createPending (s : Files) (operationId : String) (payload : Payload) (now : String) :
    Except Exn Unit × Files :=
  andThen (w.connect s) fun _ s ↦
  andThen (w.dumps (.dict payload.items), s) fun payloadJson s ↦
  andThen (w.log s, s) fun log s ↦
    if (log.get? operationId).isSome = true then
      (.error ⟨.sqliteError, "UNIQUE constraint failed: transactions.operation_id"⟩, s)
    else
      (.ok (), w.withLog s (log.put operationId {
        state := .pending
        payloadJson := payloadJson
        preparedAt := none
        committedAt := none
        abortedAt := none
        result := none
        createdAt := now
        updatedAt := now }))

/-- `mark_prepared`. -/
def markPrepared (s : Files) (operationId : String) (result : PyValue) (now : String) :
    Except Exn Unit × Files :=
  andThen (w.connect s) fun _ s ↦
  andThen (w.log s, s) fun log s ↦
    match log.get? operationId with
    | some record =>
      if record.state = .pending then
        (.ok (), w.withLog s (log.put operationId { record with
          state := .prepared
          result := some result
          preparedAt := some now
          updatedAt := now }))
      else (.ok (), w.withLog s log)
    | none => (.ok (), w.withLog s log)

/-! ## Preparing a write -/

/-- `"key" in payload`. -/
def hasKey (items : List (PyKey × PyValue)) (key : String) : Bool :=
  items.any fun f ↦ f.1 = .str (.ofString key)

/-- `".." in path`. -/
def hasDots : PyStr → Bool
  | .scalar '.' :: .scalar '.' :: _ => true
  | _ :: rest => hasDots rest
  | [] => false

/-- The octets of the content, once the payload is validated. -/
def contentBytes (payload : Payload) : Except Exn (List ℕ) := do
  raiseIf (hasKey payload.items "path" = false) (refuse "missing path in payload")
  raiseIf (hasKey payload.items "content" = false) (refuse "missing content in payload")
  match PyValue.item payload.items "path" with
  | .str path => do
    raiseIf (path = []) (refuse "invalid path")
    raiseIf (hasDots path = true ∨ path.head? = some (.scalar '/'))
      (refuse "path traversal not allowed")
  | _ => throw (refuse "invalid path")
  let octets ← match PyValue.item payload.items "content" with
    | .str content =>
      match content.text? with
      | some text => pure (encodeUtf8 text.toList)
      | none => throw content.encodeError
    | .other "bytes" => pure payload.octets
    | _ => throw (refuse "content must be string or bytes")
  raiseIf (w.maxFileSize < octets.length)
    (refuse ("content exceeds max size: " ++ toString w.maxFileSize))
  return octets

/-- The names of the temporary file in the base directory. -/
def tempNames (operationId : String) : List String := pathNames (".tmp." ++ operationId).toList

/-- `str(temp_path)`. -/
def tempText (operationId : String) : String :=
  "/" ++ String.intercalate "/" (w.basePath ++ tempNames operationId)

/-- The file that `open(temp_path, "wb")` opens. -/
def openTemp (s : Files) (operationId : String) : Except Exn (List String) :=
  let names := tempNames operationId
  let failed := refuse ("failed to write temp file: " ++ w.osText names)
  match w.refuses names with
  | some .valueError => .error ⟨.valueError, "embedded null byte"⟩
  | some .osError => .error failed
  | none =>
    match s.fileAt w.basePath names with
    | some path => .ok path
    | none => .error failed

/-- What `prepare` returns. -/
inductive Prepared
  | alreadyCommitted (result : Option PyValue)
  | alreadyPrepared (result : Option PyValue)
  | prepared (operationId : String)

/-- What `prepare` is about to do when it has looked at the log, the payload and the path: return,
or write a temporary file. -/
inductive Plan
  | done (answer : Prepared)
  | write (operationId : String) (path : List String) (octets : List ℕ)

/-- What `prepare` does before it writes the temporary file. -/
def plan (s : Files) (operationId : PyStr) (payload : Payload) : Except Exn Plan × Files :=
  andThen (w.getStatus s operationId) fun found s ↦
    let write := do
      let octets ← w.contentBytes payload
      let path ← w.openTemp s found.1
      return Plan.write found.1 path octets
    match found.2 with
    | some existing =>
      match existing.state with
      | .committed => (.ok (.done (.alreadyCommitted existing.result)), s)
      | .prepared => (.ok (.done (.alreadyPrepared existing.result)), s)
      | .aborted | .pending => (write, s)
    | none => (write, s)

/-- What `prepare` does from the temporary file on. -/
def carryOut (s : Files) (operationId : String) (path : List String) (octets : List ℕ)
    (payload : Payload) (createdAt preparedAt : String) : Except Exn Prepared × Files :=
  let s := s.put path (.file (.octets octets))
  andThen (w.createPending s operationId payload createdAt) fun _ s ↦
  andThen (w.markPrepared s operationId (.ofNamed [
      ("temp_path", .str (.ofString (w.tempText operationId))), ("size", .int octets.length)])
      preparedAt) fun _ s ↦
    (.ok (.prepared operationId), s)

/-- `prepare`; `createdAt` and `preparedAt` are what the clock says. -/
def prepare (s : Files) (operationId : PyStr) (payload : Payload) (createdAt preparedAt : String) :
    Except Exn Prepared × Files :=
  andThen (w.plan s operationId payload) fun plan s ↦
    match plan with
    | .done answer => (.ok answer, s)
    | .write operationId path octets =>
      w.carryOut s operationId path octets payload createdAt preparedAt

end FilesystemWriteAdapter

end EventHorizon.Writes
