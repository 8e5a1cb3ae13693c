import EventHorizon.Broker.Issue
import EventHorizon.Canonical.Lines

/-!
# The external recorder

`ExternalRecorder` of `recorder.py`: a file with an event on each line, padded to a fixed number of
octets. Each event has the number of the event, the number of the event among those of its source,
and the digest of the event before it. `scan` reads the file and follows the chain; `append` scans,
checks that the file is as the recorder left it, and writes the next event behind it.

The file is its octets, empty until there is one. A number of a source is the integer it is equal
to, for the code keeps whatever compares equal to it. The two readings of the clock are arguments.
Metrics are left out, and so are failures of the storage.
-/

namespace EventHorizon.Recorder

open Broker (Ed25519 capabilityKeyId spellSignature)
open Protocol (FloatReader)

/-! ## Following the chain -/

/-- What `_scan` and the recorder keep of the events. -/
structure Chain where
  tip : String
  count : ℕ
  sources : Table PyStr ℤ
  deriving DecidableEq

/-- `"0" * 64`. -/
def genesis : String := "0000000000000000000000000000000000000000000000000000000000000000"

/-- Before the first event. -/
def Chain.start : Chain := ⟨genesis, 0, []⟩

/-- The number that the next event of a source has to have. -/
def Chain.next (c : Chain) (source : PyStr) : ℤ := (c.sources.get? source).getD 0 + 1

/-- Why a scan ends before the end of the file. -/
inductive Stop
  /-- An exception passes through `_scan`. -/
  | raised (e : Exn)
  /-- `_scan` returns that the log is not valid. -/
  | invalid (reason : String)
  deriving DecidableEq

/-- `expected_fields`. -/
def eventFieldNames : List String := ["sequence", "timestamp", "event_type", "payload", "source_id",
  "source_sequence", "previous_hash", "event_hash"]

/-- `isinstance(value, int)`, with the integer the value is equal to. -/
def intOf? : PyValue → Option ℤ
  | .int n => some n
  | .bool b => some (if b = true then 1 else 0)
  | _ => none

/-- `event.pop(key)`: the items that are left. -/
def without (items : List (PyKey × PyValue)) (key : String) : List (PyKey × PyValue) :=
  items.filter fun f ↦ f.1 ≠ .str (.ofString key)

/-- `str.isspace` on a character. -/
def isPySpace (c : Char) : Bool :=
  c.toNat ∈ [0x20, 0x85, 0xa0, 0x1680, 0x2028, 0x2029, 0x202f, 0x205f, 0x3000] ||
  (9 ≤ c.toNat && c.toNat ≤ 13) || (0x1c ≤ c.toNat && c.toNat ≤ 0x1f) ||
  (0x2000 ≤ c.toNat && c.toNat ≤ 0x200a)

/-- A report about the line with this number. -/
def atLine {α : Type} (report : String) (n : ℕ) : Except Stop α :=
  .error (.invalid (report ++ " at line " ++ toString n))

section Log

variable [Platform] [FloatReader]

/-- The checks of `_scan` on the items of an event. -/
def scanEvent (c : Chain) (items : List (PyKey × PyValue)) : Except Stop Chain :=
  let n := c.count + 1
  if PyValue.hasExactKeys items eventFieldNames = false then atLine "invalid event fields" n
  else if (PyValue.item items "sequence").isInt n = false then atLine "sequence gap" n
  else
    match PyValue.item items "source_id", intOf? (PyValue.item items "source_sequence") with
    | .str source, some sequence =>
      if source = [] then atLine "invalid source sequence" n
      else if sequence ≠ c.next source then atLine "source loss or reordering" n
      else if (PyValue.item items "previous_hash").isText (.ofString c.tip) = false then
        atLine "chain linkage failure" n
      else
        match (PyValue.dict (without items "event_hash")).digest with
        | .error e => .error (.raised e)
        | .ok digest =>
          if (PyValue.item items "event_hash").isText (.ofString digest) = false then
            atLine "event digest failure" n
          else .ok ⟨digest, n, c.sources.put source sequence⟩
    | _, _ => atLine "invalid source sequence" n

/-- One turn of the loop of `_scan`. -/
def scanLine (maxEventBytes : ℕ) (c : Chain) (line : List Char) : Except Stop Chain :=
  let n := c.count + 1
  if (encodeUtf8 line).length ≠ maxEventBytes then
    atLine "event digest or envelope size failure" n
  else if line.all isPySpace = true then atLine "blank record" n
  else
    match loads defaultHooks line with
    | .error .malformed => atLine "invalid JSON" n
    | .error .digits =>
      .error
        (.raised ⟨.valueError, "Exceeds the limit (4300 digits) for integer string conversion"⟩)
    | .error (.raised e) => .error (.raised e)
    | .ok (.dict items) => scanEvent c items
    | .ok _ => atLine "invalid event fields" n

/-- `_scan`. -/
def scan (maxEventBytes : ℕ) (file : List ℕ) : Except Stop Chain :=
  match linesOf file with
  | none => .error (.raised ⟨.valueError, "invalid start byte"⟩)
  | some lines => lines.foldlM (scanLine maxEventBytes) .start

/-- `events`: what is on the lines that are not blank. -/
def events (file : List ℕ) : Except (LoadError Exn) (List PyValue) :=
  match linesOf file with
  | none => .error (.raised ⟨.valueError, "invalid start byte"⟩)
  | some lines => (lines.filter fun line ↦ line.all isPySpace = false).mapM (loads defaultHooks)

/-! ## The recorder -/

/-- A reading of `time.time()`: finite, not the negative zero, and read back as it is. -/
structure Reading where
  value : FloatValue
  isFinite : value.isFinite = true
  notNegativeZero : value.isNegativeZero = false
  genuine : value.Genuine

variable [Ed25519]

/-- What the constructor fixes. -/
structure Config where
  maxEventBytes : ℕ
  privateKey : Ed25519.PrivateKey
  le_max : 512 ≤ maxEventBytes
  max_le : maxEventBytes ≤ 65536

/-- The key that receipts are verified with. -/
def Config.keyId (cfg : Config) : String := capabilityKeyId (Ed25519.publicKey cfg.privateKey)

/-- `ExternalRecorder`: its file, and what it remembers of it. -/
structure ExternalRecorder where
  file : List ℕ
  chain : Chain

/-- A recorder on a file that is not there yet. -/
def ExternalRecorder.fresh : ExternalRecorder := ⟨[], .start⟩

/-- The arguments of `append`; `sourceSequence` is `None` when it is not given. -/
structure Submission where
  eventType : PyValue
  payload : PyValue
  sourceId : PyValue := .str (.ofString "local")
  sourceSequence : PyValue := .none

/-- `RecorderIntegrityError`. -/
def integrityError (message : String) : Exn := ⟨.recorderIntegrityError, message⟩

/-- A submission that has passed the checks before the event is made. -/
structure Admitted where
  eventType : PyStr
  payload : List (PyKey × PyValue)
  sourceId : PyStr
  sourceSequence : PyValue
  /-- `expected_source_sequence`. -/
  expected : ℤ

/-- The checks of `append` on its arguments. -/
def checkEvent (c : Chain) (x : Submission) : Except Exn Admitted :=
  match x.eventType with
  | .str eventType =>
    if eventType = [] ∨ 128 < eventType.length then
      .error ⟨.valueError, "invalid recorder event type"⟩
    else
      match x.payload, x.sourceId with
      | .dict payload, .str sourceId =>
        if sourceId = [] then .error ⟨.valueError, "invalid recorder event envelope"⟩
        else
          let expected := c.next sourceId
          let sourceSequence := if x.sourceSequence.isNone = true then .int expected
            else x.sourceSequence
          if sourceSequence.isInt expected = false then
            .error (integrityError "source event loss or reordering detected")
          else .ok ⟨eventType, payload, sourceId, sourceSequence, expected⟩
      | _, _ => .error ⟨.valueError, "invalid recorder event envelope"⟩
  | _ => .error ⟨.valueError, "invalid recorder event type"⟩

/-- The event without its digest. -/
def unsignedEvent (c : Chain) (a : Admitted) (timestamp : Reading) : List (String × PyValue) := [
  ("sequence", .int (c.count + 1)), ("timestamp", .float timestamp.value),
  ("event_type", .str a.eventType), ("payload", .dict a.payload), ("source_id", .str a.sourceId),
  ("source_sequence", a.sourceSequence), ("previous_hash", .str (.ofString c.tip))]

/-- The event. -/
def signedEvent (c : Chain) (a : Admitted) (timestamp : Reading) (digest : String) : PyValue :=
  .ofNamed (unsignedEvent c a timestamp ++ [("event_hash", .str (.ofString digest))])

/-- An event that is ready to be written. -/
structure Entry where
  admitted : Admitted
  event : PyValue
  digest : String
  octets : List ℕ

/-- What `append` does before it writes. -/
def prepare (cfg : Config) (r : ExternalRecorder) (x : Submission) (timestamp : Reading) :
    Except Exn Entry :=
  match scan cfg.maxEventBytes r.file with
  | .error (.raised e) => .error e
  | .error (.invalid reason) =>
    .error (integrityError ("recorder changed outside authority: " ++ reason))
  | .ok c => do
    raiseIf (c.tip ≠ r.chain.tip ∨ c.count ≠ r.chain.count)
      (integrityError "recorder changed outside authority: ok")
    let a ← checkEvent c x
    let digest ← (PyValue.ofNamed (unsignedEvent r.chain a timestamp)).digest
    let event := signedEvent r.chain a timestamp digest
    let octets ← event.canonicalBytes
    raiseIf (cfg.maxEventBytes < octets.length + 1)
      ⟨.valueError, "recorder event exceeds fixed envelope"⟩
    return ⟨a, event, digest, octets⟩

/-- What `append` returns: the event, and its receipt. -/
structure Receipt where
  event : PyValue
  payload : PyValue
  signature : String

/-- The recorder after the event was written. -/
def ExternalRecorder.written (cfg : Config) (r : ExternalRecorder) (e : Entry) :
    ExternalRecorder where
  file := r.file ++ (e.octets ++ (List.replicate (cfg.maxEventBytes - e.octets.length - 1) 0x20 ++
    [0x0a]))
  chain :=
    ⟨e.digest, r.chain.count + 1, r.chain.sources.put e.admitted.sourceId e.admitted.expected⟩

/-- The payload of a receipt. -/
def receiptPayload (cfg : Config) (r : ExternalRecorder) (e : Entry)
    (issuedAt : Reading) : PyValue :=
  .ofNamed [
    ("sequence", .int (r.chain.count + 1)), ("event_hash", .str (.ofString e.digest)),
    ("source_id", .str e.admitted.sourceId), ("source_sequence", e.admitted.sourceSequence),
    ("issued_at", .float issuedAt.value), ("key_id", .str (.ofString cfg.keyId))]

/-- `append`. -/
def append (cfg : Config) (r : ExternalRecorder) (x : Submission) (timestamp issuedAt : Reading) :
    Except Exn Receipt × ExternalRecorder :=
  match prepare cfg r x timestamp with
  | .error e => (.error e, r)
  | .ok e =>
    let payload := receiptPayload cfg r e issuedAt
    ((payload.canonicalBytes).map fun data ↦
        ⟨e.event, payload, spellSignature (Ed25519.sign cfg.privateKey data)⟩,
      r.written cfg e)

/-- The constructor: `_recover` on what is in the file. -/
def recover (cfg : Config) (file : List ℕ) : Except Exn ExternalRecorder :=
  match scan cfg.maxEventBytes file with
  | .error (.raised e) => .error e
  | .error (.invalid reason) => .error (integrityError ("recorder recovery failed: " ++ reason))
  | .ok c => .ok ⟨file, c⟩

end Log

end EventHorizon.Recorder
