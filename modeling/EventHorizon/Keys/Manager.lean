import EventHorizon.Broker.Issue
import EventHorizon.Canonical.Objects
import EventHorizon.Library.Effects
import EventHorizon.Library.Linked
import EventHorizon.Library.Transducer

/-!
# The key manager

`KeyManager` of `key_management.py` without a hardware module: the table of keys, the list of
revocations, each entry signed and linked to the one before it, and the record of where keys come
from. Its database is SQLite through Python's `sqlite3`, which opens a transaction before the first
statement that writes and leaves it open when that statement fails.

What the clock says and which keys are generated are arguments of the calls; so is whether a
signature fails. Storage works.
-/

namespace EventHorizon.Keys

open Broker (Ed25519 capabilityKeyId spellSignature)

/-- `KeyManagementError`. -/
def refuse (message : String) : Exn := ⟨.keyManagementError, message⟩

/-! ## The database -/

/-- The values of the `status` column. -/
inductive KeyStatus
  | active
  | rotated
  | revoked
  deriving DecidableEq, Repr

/-- A row of `keys` without its key. -/
structure KeyColumns where
  publicKeyPem : String
  createdAt : String
  expiresAt : Option String
  purpose : String
  status : KeyStatus
  rotatedFrom : Option String
  rotatedAt : Option String
  metadataJson : String

/-- A row of `key_provenance`. -/
structure Provenance where
  keyId : String
  action : String
  actor : String
  timestamp : String
  detailsJson : String
  signature : String

/-- A row of `revocations`, and a `KeyRevocation`. -/
structure Revocation where
  keyId : String
  revokedAt : String
  reason : String
  revokedBy : String
  signature : String
  previousRevocationDigest : Option String

/-- The tables. The rows of `revocations` are in the order of their `rowid`. -/
structure Tables where
  keys : Table String KeyColumns
  keyProvenance : List Provenance
  revocations : List Revocation

/-- The tables as the connection sees them, and as they were when the open transaction began. -/
structure Database where
  tables : Tables
  transaction : Option Tables

namespace Database

/-- A database that has just been created. -/
def empty : Database := ⟨⟨[], [], []⟩, none⟩

/-- Opens a transaction unless one is open. -/
def opened (db : Database) : Database :=
    { db with transaction := some (db.transaction.getD db.tables) }

def commit (db : Database) : Database := { db with transaction := none }

def rollback (db : Database) : Database := ⟨db.transaction.getD db.tables, none⟩

/-- `SELECT * FROM keys WHERE key_id = ?`. -/
def key? (db : Database) (keyId : String) : Option KeyColumns := db.tables.keys.get? keyId

/-- `is_revoked`. -/
def isRevoked (db : Database) (keyId : String) : Bool :=
  match db.key? keyId with
  | some row => row.status = .revoked
  | none => false

/-- A failed constraint. -/
def integrityError (message : String) : Exn := ⟨.sqliteError, message⟩

/-- `INSERT INTO keys`, with the values that are bound. -/
def insertKey (db : Database) (keyId : String) (columns : Except Exn KeyColumns) :
    Except Exn Unit × Database :=
  match columns with
  | .error e => (.error e, db.opened)
  | .ok columns =>
    if (db.key? keyId).isSome = true then
      (.error (integrityError "UNIQUE constraint failed: keys.key_id"), db.opened)
    else
      (.ok (), { db.opened with tables.keys := db.tables.keys.put keyId columns })

/-- `UPDATE keys SET status = ?, rotated_at = ? WHERE key_id = ?`. -/
def updateStatus (db : Database) (keyId : String) (status : KeyStatus) (rotatedAt : String) :
    Database :=
  match db.key? keyId with
  | none => db.opened
  | some row =>
    { db.opened with
      tables.keys :=
        db.tables.keys.put keyId { row with status := status, rotatedAt := some rotatedAt } }

/-- `INSERT INTO key_provenance`. -/
def insertProvenance (db : Database) (row : Except Exn Provenance) : Except Exn Unit × Database :=
  match row with
  | .error e => (.error e, db.opened)
  | .ok row =>
    if db.tables.keyProvenance.any (fun r ↦
        r.keyId = row.keyId && r.action = row.action && r.timestamp = row.timestamp) = true then
      (.error (integrityError "UNIQUE constraint failed: key_provenance.key_id"), db.opened)
    else
      (.ok (), { db.opened with tables.keyProvenance := db.tables.keyProvenance ++ [row] })

/-- `INSERT INTO revocations`. -/
def insertRevocation (db : Database) (row : Except Exn Revocation) :
    Except Exn Revocation × Database :=
  match row with
  | .error e => (.error e, db.opened)
  | .ok row =>
    if db.tables.revocations.any (fun r ↦ r.keyId = row.keyId && r.revokedAt = row.revokedAt) = true
    then (.error (integrityError "UNIQUE constraint failed: revocations.key_id"), db.opened)
    else (.ok row, { db.opened with tables.revocations := db.tables.revocations ++ [row] })

end Database

/-- A string as a parameter of a statement. -/
def bindText (s : PyStr) : Except Exn String :=
  match s.text? with
  | some t => .ok t
  | none => .error s.encodeError

theorem bindText_eq_ok {s : PyStr} {t : String} : bindText s = .ok t ↔ s = .ofString t := by
  rw [bindText]
  constructor
  · intro h
    split at h
    case h_1 t' ht =>
      cases h
      exact PyStr.eq_ofString_of_text? ht
    case h_2 => cases h
  · rintro rfl
    rw [PyStr.text?_ofString]

/-- `json.dumps`, whose text the manager only stores. -/
class JsonText where
  dumps : PyValue → Except Exn String

/-- A public key in the PEM encoding. -/
class PemText [Ed25519] where
  spell : Ed25519.PublicKey → String

/-! ## The manager -/

section Manager

variable [Platform] [Ed25519] [JsonText] [PemText]

/-- The attributes of the manager that its calls read. -/
structure KeyManager where
  privateKey : Ed25519.PrivateKey
  maxAgeSeconds : ℤ

/-- `KeyMetadata`. -/
structure KeyMetadata where
  keyId : String
  columns : KeyColumns

/-- What a call of `_record_provenance` meets: the time, and whether the signature fails. -/
structure Moment where
  timestamp : String
  signingFails : Option Exn

variable (m : KeyManager)

/-- `_sign`. -/
def sign (payload : PyValue) (signingFails : Option Exn) : Except Exn String := do
  let data ← payload.canonicalBytes
  match signingFails with
  | some e => throw e
  | none => return spellSignature (Ed25519.sign m.privateKey data)

/-- `_record_provenance`. -/
def recordProvenance (db : Database) (keyId action : String) (actor : PyStr)
    (details : List (String × PyValue)) (moment : Moment) : Except Exn Unit × Database :=
  let payload := .ofNamed [
    ("key_id", .str (.ofString keyId)), ("action", .str (.ofString action)), ("actor", .str actor),
    ("timestamp", .str (.ofString moment.timestamp)), ("details", .ofNamed details)]
  andThen (sign m payload moment.signingFails, db) fun signature db ↦
    andThen (JsonText.dumps (.ofNamed details), db) fun detailsJson db ↦
      andThen (db.insertProvenance do
        let actor ← bindText actor
        return ⟨keyId, action, actor, moment.timestamp, detailsJson, signature⟩) fun _ db ↦
          (.ok (), db.commit)

def operator : PyStr := .ofString "operator"

/-- A value that may be missing. -/
def optional : Option String → PyValue
  | some s => .str (.ofString s)
  | none => .none

/-- `generate_key`; `expiresAt` is the text of the time `max_age_seconds` from now. -/
def generateKey (db : Database) (purpose : PyStr) (metadata : Option (List (PyKey × PyValue)))
    (newKey : Ed25519.PublicKey) (createdAt : String) (expiresAt : Except Exn String)
    (createdAgain : String) (moment : Moment) : Except Exn KeyMetadata × Database :=
  let keyId := capabilityKeyId newKey
  let metadata := PyValue.dict (metadata.getD [])
  andThen (if 0 < m.maxAgeSeconds then expiresAt.map some else .ok none, db) fun expiresAt db ↦
    andThen (JsonText.dumps metadata, db) fun metadataJson db ↦
      let columns purpose : KeyColumns :=
        ⟨PemText.spell newKey, createdAt, expiresAt, purpose, .active, none, none, metadataJson⟩
      andThen (db.insertKey keyId ((bindText purpose).map columns)) fun _ db ↦
        andThen (recordProvenance m db.commit keyId "generate" operator [
            ("purpose", .str purpose), ("expires_at", optional expiresAt), ("metadata", metadata)]
            moment) fun _ db ↦
          (.ok ⟨keyId, { columns purpose.shown with createdAt := createdAgain }⟩, db)

/-- `rotate_key`; `newKey` is the explicit key, or the one that was generated. -/
def rotateKey (db : Database) (keyId reason : PyStr) (newKey : Ed25519.PublicKey)
    (rotatedAt : String)
    (moment moment' : Moment) : Except Exn KeyMetadata × Database :=
  andThen (bindText keyId, db) fun keyId db ↦
    match db.key? keyId with
    | none => (.error (refuse ("key " ++ keyId ++ " not found")), db)
    | some row =>
      if row.status ≠ .active then (.error (refuse ("key " ++ keyId ++ " is not active")), db)
      else
        let newKeyId := capabilityKeyId newKey
        let columns : KeyColumns := ⟨PemText.spell newKey, rotatedAt, row.expiresAt, row.purpose,
          .active, some keyId, some rotatedAt, row.metadataJson⟩
        andThen (db.insertKey newKeyId (.ok columns)) fun _ db ↦
          andThen (recordProvenance m (db.updateStatus keyId .rotated rotatedAt).commit keyId
              "rotate" operator [("rotated_to", .str (.ofString newKeyId)),
                ("reason", .str reason)] moment)
            fun _ db ↦
              andThen (recordProvenance m db newKeyId "rotate" operator
                  [("rotated_from", .str (.ofString keyId)), ("reason", .str reason)] moment')
                fun _ db ↦ (.ok ⟨newKeyId, columns⟩, db)

/-- `revoke_key`. -/
def revokeKey (db : Database) (keyId reason : PyStr) (revokedAt : String) (moment : Moment) :
    Except Exn Unit × Database :=
  andThen (bindText keyId, db) fun keyId db ↦
    match db.key? keyId with
    | none => (.error (refuse ("key " ++ keyId ++ " not found")), db)
    | some row =>
      if row.status = .revoked then (.error (refuse ("key " ++ keyId ++ " already revoked")), db)
      else
        recordProvenance m (db.updateStatus keyId .revoked revokedAt).commit keyId "revoke" operator
          [("reason", .str reason)] moment

/-! ## The list of revocations -/

/-- `_revocation_link`. -/
def revocationLink (signature : String) : String :=
  String.ofList ((Platform.sha256 (signature.toList.map Char.toNat)).toList.take 32)

/-- What the signature of a revocation is over. -/
def revocationPayload (keyId revokedAt : String) (reason revokedBy : PyStr)
    (previousRevocationDigest : Option String) : PyValue :=
  .ofNamed [
    ("key_id", .str (.ofString keyId)), ("revoked_at", .str (.ofString revokedAt)),
    ("reason", .str reason), ("revoked_by", .str revokedBy),
    ("previous_revocation_digest", optional previousRevocationDigest)]

/-- `verify_revocation`, with the manager's own key in place of its PEM text. -/
def verifyRevocation (r : Revocation) : Bool :=
  match Base64.decode base64UrlAlphabet r.signature.toList,
    (revocationPayload r.keyId r.revokedAt (.ofString r.reason) (.ofString r.revokedBy)
      r.previousRevocationDigest).canonicalBytes with
  | some raw, .ok data =>
    r.signature ≠ "" && spellSignature raw = r.signature &&
      Ed25519.verify (Ed25519.publicKey m.privateKey) raw data
  | _, _ => false

/-- `check_revocation_chain`. -/
def checkRevocationChain (db : Database) : Bool :=
  Linked.checks Revocation.previousRevocationDigest (fun r ↦ some (revocationLink r.signature))
    (verifyRevocation m) none db.tables.revocations

/-- `get_revocation_list`, of all times. -/
def getRevocationList (db : Database) : List Revocation := db.tables.revocations

/-- What `revoke_key_with_crl` does between `BEGIN IMMEDIATE` and the handler of its exceptions. -/
def appendRevocation (db : Database) (keyId actor reason : PyStr) (revokedAt : String)
    (signingFails : Option Exn) : Except Exn Revocation × Database :=
  andThen (bindText keyId, db) fun keyId db ↦
    match db.key? keyId with
    | none => (.error (refuse ("key " ++ keyId ++ " not found")), db)
    | some row =>
      if row.status ≠ .active then (.error (refuse ("key " ++ keyId ++ " is not active")), db)
      else if checkRevocationChain m db = false then
        (.error (refuse "revocation chain is invalid; refusing append"), db)
      else
        let prevDigest := db.tables.revocations.getLast?.map fun r ↦ revocationLink r.signature
        andThen
          (sign m (revocationPayload keyId revokedAt reason actor prevDigest) signingFails, db)
          fun signature db ↦
            andThen (db.insertRevocation do
              let reason ← bindText reason
              let actor ← bindText actor
              return ⟨keyId, revokedAt, reason, actor, signature, prevDigest⟩) fun r db ↦
                (.ok r, (db.updateStatus keyId .revoked revokedAt).commit)

/-- `revoke_key_with_crl`. -/
def revokeKeyWithCrl (db : Database) (keyId actor reason : PyStr) (revokedAt : String)
    (signingFails : Option Exn) (moment : Moment) : Except Exn Revocation × Database :=
  let r := if db.transaction.isSome = true then
      (.error ⟨.sqliteError, "cannot start a transaction within a transaction"⟩, db)
    else appendRevocation m db.opened keyId actor reason revokedAt signingFails
  match r.1 with
  | .error e => (.error e, r.2.rollback)
  | .ok revocation =>
    andThen
      (recordProvenance m r.2 revocation.keyId "revoke" actor [("reason", .str reason)] moment)
      fun _ db ↦ (.ok revocation, db)

/-! ## Calls -/

/-- A call on the manager. -/
inductive Call
  | generateKey (purpose : PyStr) (metadata : Option (List (PyKey × PyValue)))
    (newKey : Ed25519.PublicKey) (createdAt : String) (expiresAt : Except Exn String)
    (createdAgain : String) (moment : Moment)
  | rotateKey (keyId reason : PyStr) (newKey : Ed25519.PublicKey) (rotatedAt : String)
    (moment moment' : Moment)
  | revokeKey (keyId reason : PyStr) (revokedAt : String) (moment : Moment)
  | revokeKeyWithCrl (keyId actor reason : PyStr) (revokedAt : String) (signingFails : Option Exn)
    (moment : Moment)

/-- What a call returns or raises. -/
inductive Answer
  | metadata (r : Except Exn KeyMetadata)
  | done (r : Except Exn Unit)
  | revocation (r : Except Exn Revocation)

/-- One call. -/
def step (db : Database) : Call → Answer × Database
  | .generateKey purpose metadata newKey createdAt expiresAt createdAgain moment =>
    let r := generateKey m db purpose metadata newKey createdAt expiresAt createdAgain moment
    (.metadata r.1, r.2)
  | .rotateKey keyId reason newKey rotatedAt moment moment' =>
    let r := rotateKey m db keyId reason newKey rotatedAt moment moment'
    (.metadata r.1, r.2)
  | .revokeKey keyId reason revokedAt moment =>
    let r := revokeKey m db keyId reason revokedAt moment
    (.done r.1, r.2)
  | .revokeKeyWithCrl keyId actor reason revokedAt signingFails moment =>
    let r := revokeKeyWithCrl m db keyId actor reason revokedAt signingFails moment
    (.revocation r.1, r.2)

/-- The database after a list of calls. -/
def after (db : Database) (calls : List Call) : Database := Transducer.after (step m) db calls

theorem after_concat (db : Database) (calls : List Call) (c : Call) :
    after m db (calls ++ [c]) = (step m (after m db calls) c).2 := Transducer.after_concat

end Manager

end EventHorizon.Keys
