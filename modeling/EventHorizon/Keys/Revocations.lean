import EventHorizon.Keys.Manager
import EventHorizon.Broker.OneUse

/-!
# The list of revocations

`revoke_key_with_crl` puts a key's status and its entry in the list into one transaction;
`revoke_key` changes the status and leaves the list as it is. `complete_iff` says of every sequence
of calls when the list is complete: exactly when `revoke_key` is never called on a key that it could
revoke.
-/

namespace EventHorizon.Keys

open Broker (Ed25519 capabilityKeyId spellSignature)

/-! ## What a statement changes -/

namespace Database

/-- No change is waiting to be committed. -/
def Settled (db : Database) : Prop := ∀ tables, db.transaction = some tables → tables = db.tables

/-- The same revocations, and the same keys revoked. -/
structure Alike (db db' : Database) : Prop where
  revocations : db'.tables.revocations = db.tables.revocations
  isRevoked : ∀ keyId, db'.isRevoked keyId = db.isRevoked keyId

variable {db db' db'' : Database} {keyId : String}

theorem Alike.refl (db : Database) : Alike db db := ⟨rfl, fun _ ↦ rfl⟩

theorem Alike.trans (h : Alike db db') (h' : Alike db' db'') : Alike db db'' :=
  ⟨h'.revocations.trans h.revocations, fun keyId ↦ (h'.isRevoked keyId).trans (h.isRevoked keyId)⟩

theorem alike_opened (db : Database) : Alike db db.opened := ⟨rfl, fun _ ↦ rfl⟩

theorem alike_rollback (h : db.rollback.tables = db'.tables) : Alike db' db.rollback :=
  ⟨congrArg Tables.revocations h, fun keyId ↦ by rw [isRevoked, isRevoked, key?, key?, h]⟩

theorem settled_commit (db : Database) : db.commit.Settled := fun _ h ↦ nomatch h

theorem Settled.opened (h : db.Settled) : db.opened.Settled := by
  rintro _ ⟨⟩
  cases htransaction : db.transaction with
  | none => rfl
  | some tables => exact h tables htransaction

theorem Settled.rollback (h : db.Settled) : db.rollback.tables = db.tables := by
  rw [Database.rollback]
  cases htransaction : db.transaction with
  | none => rfl
  | some tables => exact h tables htransaction

theorem isRevoked_iff : db.isRevoked keyId = true ↔
    ∃ row, db.key? keyId = some row ∧ row.status = .revoked := by
  rw [isRevoked]
  cases db.key? keyId with
  | none => simp
  | some row => simp

/-- A row that replaces one of the same kind, or that is new and not revoked. -/
theorem alike_put {row : KeyColumns} (hrevocations : db'.tables.revocations = db.tables.revocations)
    (hkeys : db'.tables.keys = db.tables.keys.put keyId row)
    (hrow : decide (row.status = .revoked) = db.isRevoked keyId) : Alike db db' := by
  refine ⟨hrevocations, fun k ↦ ?_⟩
  by_cases hk : k = keyId
  · rw [hk, ← hrow, isRevoked, key?, hkeys, Table.get?_put_self]
  · rw [isRevoked, isRevoked, key?, key?, hkeys, Table.get?_put_ne hk]

/-- A new key is not a revoked one. If the statement fails the transaction it opened is empty. -/
theorem insertKey_snd (keyId : String) {columns : Except Exn KeyColumns}
    (hcolumns : ∀ row, columns = .ok row → row.status = .active) (h : db.Settled) :
    Alike db (db.insertKey keyId columns).2 ∧
      ∀ e, (db.insertKey keyId columns).1 = .error e → (db.insertKey keyId columns).2.Settled := by
  cases columns with
  | error e => exact ⟨alike_opened db, fun _ _ ↦ h.opened⟩
  | ok row =>
    rw [insertKey]
    split
    case isTrue => exact ⟨alike_opened db, fun _ _ ↦ h.opened⟩
    case isFalse hnew =>
      refine ⟨alike_put rfl rfl ?_, fun _ h ↦ nomatch h⟩
      rw [Bool.not_eq_true, Option.isSome_eq_false_iff, Option.isNone_iff_eq_none] at hnew
      rw [hcolumns row rfl, isRevoked, hnew]
      rfl

theorem insertKey_of_free {columns : KeyColumns} (h : db.key? keyId = none) :
    db.insertKey keyId (.ok columns) =
      (.ok (), { db.opened with tables.keys := db.tables.keys.put keyId columns }) := by
  rw [insertKey.eq_2, h]
  rfl

/-- The rows that were there before. -/
theorem key?_of_insertKey {k : String} {columns : Except Exn KeyColumns} {row : KeyColumns}
    (h : (db.insertKey k columns).1 = .ok ()) (hrow : db.key? keyId = some row) :
    (db.insertKey k columns).2.key? keyId = some row := by
  cases columns with
  | error e => cases h
  | ok columns =>
    rw [insertKey] at h ⊢
    split at h
    · cases h
    case isFalse hnew =>
      have hne : keyId ≠ k := by
        rintro rfl
        rw [hrow] at hnew
        exact hnew rfl
      rw [if_neg hnew, key?]
      exact (Table.get?_put_ne hne).trans hrow

theorem insertProvenance_snd {row : Except Exn Provenance} (h : db.Settled) :
    Alike db (db.insertProvenance row).2 ∧
      ∀ e, (db.insertProvenance row).1 = .error e → (db.insertProvenance row).2.Settled := by
  cases row with
  | error e => exact ⟨alike_opened db, fun _ _ ↦ h.opened⟩
  | ok row =>
    rw [insertProvenance]
    split
    · exact ⟨alike_opened db, fun _ _ ↦ h.opened⟩
    · exact ⟨⟨rfl, fun _ ↦ rfl⟩, fun _ h ↦ nomatch h⟩

/-- The same keys and revocations, and nothing is pending. -/
def Undisturbed (db db' : Database) : Prop := Alike db db' ∧ db'.Settled

theorem Undisturbed.commit (h : Alike db db') : Undisturbed db db'.commit :=
  ⟨⟨h.revocations, h.isRevoked⟩, settled_commit _⟩

theorem updateStatus_tables {row : KeyColumns} (status : KeyStatus) (rotatedAt : String)
    (hrow : db.key? keyId = some row) : (db.updateStatus keyId status rotatedAt).tables =
      { db.tables with
        keys := db.tables.keys.put keyId
          { row with status := status, rotatedAt := some rotatedAt } } := by
  rw [updateStatus, hrow]
  rfl

/-- A key that is not revoked, put under a status that is not `revoked`. -/
theorem updateStatus_alike (rotatedAt : String) {row : KeyColumns} {status : KeyStatus}
    (hrow : db.key? keyId = some row) (hstatus : row.status ≠ .revoked) (hnew : status ≠ .revoked) :
    Alike db (db.updateStatus keyId status rotatedAt) := by
  have hfree : db.isRevoked keyId = false := by
    rw [isRevoked, hrow]
    exact decide_eq_false hstatus
  rw [updateStatus, hrow]
  exact alike_put rfl rfl (by rw [hfree]; exact decide_eq_false hnew)

end Database

open Database

section Manager

variable [Platform] [Ed25519] [JsonText] [PemText]

variable {m : KeyManager} {db db' : Database} {keyId : String}

/-! ## What a call changes -/

omit [PemText] in
/-- The origin of a key is recorded without a change to keys and revocations. -/
theorem recordProvenance_snd {action : String} {actor : PyStr} {details : List (String × PyValue)}
    {moment : Moment} (h : Undisturbed db db') :
    Undisturbed db (recordProvenance m db' keyId action actor details moment).2 := by
  rw [recordProvenance]
  refine andThen_snd (P := Undisturbed db) (fun _ _ ↦ h) fun signature _ ↦ ?_
  refine andThen_snd (P := Undisturbed db) (fun _ _ ↦ h) fun text _ ↦ ?_
  refine andThen_snd (P := Undisturbed db) (fun e he ↦ ?_) fun _ _ ↦ ?_
  · exact ⟨h.1.trans (insertProvenance_snd h.2).1, (insertProvenance_snd h.2).2 e he⟩
  · exact Undisturbed.commit (h.1.trans (insertProvenance_snd h.2).1)

omit [PemText] in
theorem recordProvenance_keys {action : String} {actor : PyStr} {details : List (String × PyValue)}
    {moment : Moment} :
    (recordProvenance m db keyId action actor details moment).2.tables.keys = db.tables.keys := by
  rw [recordProvenance]
  refine andThen_snd (P := fun db' : Database ↦ db'.tables.keys = db.tables.keys) (fun _ _ ↦ rfl)
    fun _ _ ↦ ?_
  refine andThen_snd (P := fun db' : Database ↦ db'.tables.keys = db.tables.keys) (fun _ _ ↦ rfl)
    fun _ _ ↦ ?_
  have hinsert : ∀ row, (db.insertProvenance row).2.tables.keys = db.tables.keys := by
    intro row
    cases row with
    | error e => rfl
    | ok row =>
      rw [insertProvenance]
      split <;> rfl
  exact andThen_snd (P := fun db' : Database ↦ db'.tables.keys = db.tables.keys)
    (fun _ _ ↦ hinsert _)
    fun _ _ ↦ hinsert _

/-- The row of a key that has been generated. -/
theorem generateKey_keys {purpose : PyStr} {metadata : Option (List (PyKey × PyValue))}
    {newKey : Ed25519.PublicKey} {createdAt createdAgain text metadataJson : String}
    {expiresAt : Except Exn String} {moment : Moment} (hage : ¬0 < m.maxAgeSeconds)
    (hmetadata : JsonText.dumps (.dict (metadata.getD [])) = .ok metadataJson)
    (hpurpose : bindText purpose = .ok text) (hfree : db.key? (capabilityKeyId newKey) = none) :
    (generateKey m db purpose metadata newKey createdAt expiresAt createdAgain
        moment).2.tables.keys = db.tables.keys.put (capabilityKeyId newKey)
        ⟨PemText.spell newKey, createdAt, none, text, .active, none, none, metadataJson⟩ := by
  rw [generateKey, if_neg hage]
  dsimp only
  rw [andThen_ok, hmetadata, andThen_ok, hpurpose, Except.map, insertKey_of_free hfree, andThen_ok]
  have hrecorded : ∀ (db : Database) (details : List (String × PyValue)),
      (recordProvenance m db.commit (capabilityKeyId newKey) "generate" operator details
        moment).2.tables.keys = db.tables.keys := fun _ _ ↦ recordProvenance_keys
  exact andThen_snd (P := fun db' : Database ↦ db'.tables.keys = _) (fun _ _ ↦ hrecorded _ _)
    fun _ _ ↦ hrecorded _ _

theorem generateKey_snd {purpose : PyStr} {metadata : Option (List (PyKey × PyValue))}
    {newKey : Ed25519.PublicKey} {createdAt : String} {expiresAt : Except Exn String}
    {createdAgain : String} {moment : Moment} (h : db.Settled) : Undisturbed db
      (generateKey m db purpose metadata newKey createdAt expiresAt createdAgain moment).2 := by
  have hdone : Undisturbed db db := ⟨Alike.refl db, h⟩
  rw [generateKey]
  refine andThen_snd (P := Undisturbed db) (fun _ _ ↦ hdone) fun expires _ ↦ ?_
  refine andThen_snd (P := Undisturbed db) (fun _ _ ↦ hdone) fun text _ ↦ ?_
  have hcolumns : ∀ row, (bindText purpose).map (fun purpose ↦ (⟨PemText.spell newKey, createdAt,
      expires, purpose, .active, none, none, text⟩ : KeyColumns)) = .ok row →
      row.status = .active := by
    intro row hrow
    obtain ⟨_, -, rfl⟩ := map_eq_ok.mp hrow
    rfl
  obtain ⟨halike, hsettled⟩ := insertKey_snd (capabilityKeyId newKey) hcolumns h
  refine andThen_snd (P := Undisturbed db) (fun e he ↦ ⟨halike, hsettled e he⟩) fun _ _ ↦ ?_
  exact andThen_snd (P := Undisturbed db)
    (fun _ _ ↦ recordProvenance_snd (Undisturbed.commit halike))
    fun _ _ ↦ recordProvenance_snd (Undisturbed.commit halike)

theorem rotateKey_snd {keyId reason : PyStr} {newKey : Ed25519.PublicKey} {rotatedAt : String}
    {moment moment' : Moment} (h : db.Settled) :
    Undisturbed db (rotateKey m db keyId reason newKey rotatedAt moment moment').2 := by
  have hdone : Undisturbed db db := ⟨Alike.refl db, h⟩
  rw [rotateKey]
  refine andThen_snd (P := Undisturbed db) (fun _ _ ↦ hdone) fun keyId _ ↦ ?_
  dsimp only
  cases hrow : db.key? keyId with
  | none => exact hdone
  | some row =>
    dsimp only
    split
    · exact hdone
    case isFalse hactive =>
    have hstatus : row.status ≠ .revoked := fun hrevoked ↦ hactive (by rw [hrevoked]; decide)
    have hcolumns :
        ∀ row', (.ok ⟨PemText.spell newKey, rotatedAt, row.expiresAt, row.purpose, .active,
        some keyId, some rotatedAt, row.metadataJson⟩ : Except Exn KeyColumns) = .ok row' →
          row'.status = .active := by
      rintro _ ⟨⟩
      rfl
    obtain ⟨halike, hsettled⟩ := insertKey_snd (capabilityKeyId newKey) hcolumns h
    refine andThen_snd (P := Undisturbed db) (fun e he ↦ ⟨halike, hsettled e he⟩) fun _ hok ↦ ?_
    have hrow' := key?_of_insertKey hok hrow
    have hrotated : Undisturbed db _ := Undisturbed.commit
      (halike.trans (updateStatus_alike rotatedAt hrow' hstatus
        (by decide : KeyStatus.rotated ≠ .revoked)))
    refine andThen_snd (P := Undisturbed db) (fun _ _ ↦ recordProvenance_snd hrotated) fun _ _ ↦ ?_
    exact andThen_snd (P := Undisturbed db)
      (fun _ _ ↦ recordProvenance_snd (recordProvenance_snd hrotated))
      fun _ _ ↦ recordProvenance_snd (recordProvenance_snd hrotated)

/-! ## An entry of the list -/

omit [JsonText] [PemText] in
theorem sign_eq_ok {payload : PyValue} {signingFails : Option Exn} {signature : String} :
    sign m payload signingFails = .ok signature ↔ ∃ data, payload.canonicalBytes = .ok data ∧
      signingFails = none ∧ signature = spellSignature (Ed25519.sign m.privateKey data) := by
  rw [sign, bind_eq_ok]
  refine exists_congr fun data ↦ and_congr_right fun _ ↦ ?_
  cases signingFails with
  | none =>
    rw [eq_self_iff_true, true_and]
    exact ⟨fun h ↦ (Except.ok.inj h).symm, fun h ↦ congrArg _ h.symm⟩
  | some e => exact iff_of_false (fun h ↦ nomatch h) fun h ↦ nomatch h.1

omit [JsonText] [PemText] in
/-- The manager verifies what it has signed. -/
theorem verifyRevocation_of_sign {r : Revocation} {signingFails : Option Exn}
    (h : sign m (revocationPayload r.keyId r.revokedAt (.ofString r.reason) (.ofString r.revokedBy)
      r.previousRevocationDigest) signingFails = .ok r.signature) :
    verifyRevocation m r = true := by
  obtain ⟨data, hdata, -, hsignature⟩ := sign_eq_ok.mp h
  have hdecode : Base64.decode base64UrlAlphabet r.signature.toList =
      some (Ed25519.sign m.privateKey data) := by
    rw [hsignature]
    exact Broker.decode_spellSignature (Ed25519.sign_lt m.privateKey data)
  have hne : r.signature ≠ "" := by
    intro hempty
    have hlen : (Ed25519.sign m.privateKey data).length = 64 := Ed25519.length_sign _ _
    have hvalid := Broker.isSignature_spellSignature hlen (Ed25519.sign_lt m.privateKey data)
    rw [← hsignature, hempty] at hvalid
    exact absurd hvalid (by decide)
  rw [verifyRevocation, hdecode, hdata]
  dsimp only
  rw [← hsignature, decide_eq_true hne, decide_eq_true rfl,
    Ed25519.verify_sign m.privateKey data]
  rfl

/-- The database with one more key revoked and one more entry in the list. -/
structure Appends (m : KeyManager) (db : Database) (keyId : String) (r : Revocation)
    (db' : Database) :
    Prop where
  row : ∃ row, db.key? keyId = some row ∧ row.status = .active
  keys : ∃ row : KeyColumns, row.status = .revoked ∧ db'.tables.keys = db.tables.keys.put keyId row
  keyId : r.keyId = keyId
  revocations : db'.tables.revocations = db.tables.revocations ++ [r]
  previous : r.previousRevocationDigest =
    Linked.tip (fun r ↦ some (revocationLink r.signature)) none db.tables.revocations
  verified : verifyRevocation m r = true
  settled : db'.Settled

omit [JsonText] [PemText] in
/-- The entry that was signed is inserted, or nothing has been committed. -/
theorem appendSigned {k revokedAt signature : String} {actor reason : PyStr} {row : KeyColumns}
    {tables : Tables} {signingFails : Option Exn} {prevDigest : Option String}
    (hprev : prevDigest = db.tables.revocations.getLast?.map fun r ↦ revocationLink r.signature)
    (hrow : db.key? k = some row) (hactive : row.status = .active)
    (htransaction : db.transaction = some tables)
    (hsign : sign m (revocationPayload k revokedAt reason actor prevDigest) signingFails =
      .ok signature) :
    let r := andThen (db.insertRevocation do
      let reason ← bindText reason
      let actor ← bindText actor
      return ⟨k, revokedAt, reason, actor, signature, prevDigest⟩) fun r db ↦
        (.ok r, (db.updateStatus k .revoked revokedAt).commit)
    (∃ e, r.1 = .error e ∧ r.2.transaction = some tables) ∨
      ∃ k revocation, r.1 = .ok revocation ∧ Appends m db k revocation r.2 := by
  have hopened : db.opened.transaction = some tables := by
    rw [opened, htransaction]
    rfl
  dsimp only
  cases hbind : (do
      let reason ← bindText reason
      let actor ← bindText actor
      return ⟨k, revokedAt, reason, actor, signature, prevDigest⟩ : Except Exn Revocation) with
  | error e => exact .inl ⟨e, rfl, hopened⟩
  | ok revocation =>
    obtain ⟨reason', hreason, hbind⟩ := bind_eq_ok.mp hbind
    obtain ⟨actor', hactor, hbind⟩ := bind_eq_ok.mp hbind
    cases hbind
    rw [bindText_eq_ok.mp hreason, bindText_eq_ok.mp hactor] at hsign
    rw [insertRevocation]
    split
    · exact .inl ⟨_, rfl, hopened⟩
    · let inserted : Database := { db.opened with
        tables.revocations := db.tables.revocations ++
          [⟨k, revokedAt, reason', actor', signature, prevDigest⟩] }
      have hinserted : inserted.key? k = some row := hrow
      have htables := updateStatus_tables .revoked revokedAt hinserted
      refine .inr ⟨k, _, rfl, ⟨row, hrow, hactive⟩, ⟨_, rfl, congrArg Tables.keys htables⟩, rfl,
        congrArg Tables.revocations htables, ?_, verifyRevocation_of_sign hsign, settled_commit _⟩
      rw [hprev, Linked.tip]
      cases db.tables.revocations.getLast? <;> rfl

omit [JsonText] [PemText] in
/-- Within a transaction the entry is appended, or nothing has been committed. -/
theorem appendRevocation_cases {keyId actor reason : PyStr} {revokedAt : String}
    {signingFails : Option Exn} {tables : Tables} (htransaction : db.transaction = some tables) :
    let r := appendRevocation m db keyId actor reason revokedAt signingFails
    (∃ e, r.1 = .error e ∧ r.2.transaction = some tables) ∨
      ∃ k revocation, r.1 = .ok revocation ∧ Appends m db k revocation r.2 := by
  have hraise : ∀ e : Exn, ∃ e', (Except.error e : Except Exn Revocation) = .error e' ∧
      db.transaction = some tables := fun e ↦ ⟨e, rfl, htransaction⟩
  dsimp only
  rw [appendRevocation]
  cases hkeyId : bindText keyId with
  | error e => exact .inl (hraise e)
  | ok k =>
    rw [andThen_ok]
    cases hrow : db.key? k with
    | none => exact .inl (hraise _)
    | some row =>
      dsimp only
      split
      · exact .inl (hraise _)
      case isFalse hactive =>
      split
      · exact .inl (hraise _)
      cases hsign : sign m (revocationPayload k revokedAt reason actor
          (db.tables.revocations.getLast?.map fun r ↦ revocationLink r.signature)) signingFails with
      | error e => exact .inl (hraise _)
      | ok signature =>
        rw [andThen_ok]
        exact appendSigned rfl hrow (Decidable.not_not.mp hactive) htransaction hsign

omit [PemText] in
/-- A revocation with an entry is undone as a whole, or done as a whole. -/
theorem revokeKeyWithCrl_cases {keyId actor reason : PyStr} {revokedAt : String}
    {signingFails : Option Exn} {moment : Moment} (h : db.Settled) :
    let db' := (revokeKeyWithCrl m db keyId actor reason revokedAt signingFails moment).2
    Undisturbed db db' ∨ ∃ db₁ k r, Appends m db k r db₁ ∧ Undisturbed db₁ db' := by
  dsimp only
  rw [revokeKeyWithCrl]
  cases htransaction : db.transaction with
  | some tables =>
    rw [Option.isSome_some, if_pos rfl]
    exact .inl ⟨alike_rollback h.rollback, fun _ h ↦ nomatch h⟩
  | none =>
    rw [Option.isSome_none, if_neg Bool.false_ne_true]
    have hopened : db.opened.transaction = some db.tables := by
      rw [opened, htransaction]
      rfl
    rcases appendRevocation_cases (m := m) hopened with ⟨e, he, hundone⟩ | ⟨k, r, hr, happends⟩
    · rw [he]
      refine .inl ⟨alike_rollback ?_, fun _ h ↦ nomatch h⟩
      rw [Database.rollback, hundone]
      rfl
    · rw [hr]
      have hdone : Undisturbed _ (recordProvenance m _ r.keyId "revoke" actor
        [("reason", .str reason)] moment).2 := recordProvenance_snd ⟨Alike.refl _, happends.settled⟩
      refine .inr ⟨_, k, r, ⟨happends.row, happends.keys, happends.keyId, happends.revocations,
        happends.previous, happends.verified, happends.settled⟩, ?_⟩
      exact andThen_snd (fun _ _ ↦ hdone) fun _ _ ↦ hdone

/-- The call is not one of `revoke_key` on a key that it could revoke. -/
def Lists (db : Database) : Call → Prop
  | .revokeKey keyId _ _ _ => ∀ k row, bindText keyId = .ok k → db.key? k = some row →
      row.status = .revoked
  | _ => True

/-! ## Every run -/

/-- The list is a chain, and has one entry for each revoked key and none for others. -/
structure Intact (m : KeyManager) (db : Database) : Prop where
  settled : db.Settled
  chained : checkRevocationChain m db = true
  listed : ∀ keyId, (getRevocationList db).countP (fun r ↦ r.keyId = keyId) =
    if db.isRevoked keyId = true then 1 else 0

omit [JsonText] [PemText] in
theorem Intact.undisturbed (h : Intact m db) (hdb' : Undisturbed db db') : Intact m db' := by
  obtain ⟨⟨hrevocations, hrevoked⟩, hsettled⟩ := hdb'
  refine ⟨hsettled, ?_, fun keyId ↦ ?_⟩
  · rw [checkRevocationChain, hrevocations]
    exact h.chained
  · rw [getRevocationList, hrevocations, hrevoked]
    exact h.listed keyId

omit [JsonText] [PemText] in
theorem Appends.isRevoked {k : String} {r : Revocation} (h : Appends m db k r db') :
    db.isRevoked k = false ∧ ∀ keyId, db'.isRevoked keyId =
    (decide (keyId = k) || db.isRevoked keyId) := by
  obtain ⟨row, hrow, hactive⟩ := h.row
  obtain ⟨row', hrow', hkeys⟩ := h.keys
  refine ⟨?_, fun keyId ↦ ?_⟩
  · rw [Database.isRevoked, hrow]
    dsimp only
    rw [hactive]
    rfl
  · rw [Database.isRevoked, Database.isRevoked, key?, key?, hkeys]
    by_cases hk : keyId = k
    · rw [hk, Table.get?_put_self, decide_eq_true rfl, Bool.true_or]
      exact decide_eq_true hrow'
    · rw [Table.get?_put_ne hk, decide_eq_false hk, Bool.false_or]

omit [JsonText] [PemText] in
theorem Intact.appends {k : String} {r : Revocation} (h : Intact m db)
    (hdb' : Appends m db k r db') :
    Intact m db' := by
  obtain ⟨hfree, hrevoked⟩ := hdb'.isRevoked
  refine ⟨hdb'.settled, ?_, fun keyId ↦ ?_⟩
  · rw [checkRevocationChain, hdb'.revocations, Linked.checks_concat]
    exact ⟨h.chained, hdb'.previous, hdb'.verified⟩
  · have hlisted := h.listed keyId
    rw [getRevocationList] at hlisted ⊢
    rw [hdb'.revocations, List.countP_append, List.countP_singleton, hlisted, hrevoked, hdb'.keyId]
    by_cases hk : keyId = k
    · rw [hk, hfree]
      simp
    · simp [hk, Ne.symm hk]

omit [PemText] in
theorem revokeKey_refused {keyId reason : PyStr} {revokedAt : String} {moment : Moment}
    (h : Lists db (.revokeKey keyId reason revokedAt moment)) :
    (revokeKey m db keyId reason revokedAt moment).2 = db := by
  rw [revokeKey]
  cases hkeyId : bindText keyId with
  | error e => rfl
  | ok k =>
    rw [andThen_ok]
    cases hrow : db.key? k with
    | none => rfl
    | some row =>
      dsimp only
      rw [if_pos (h k row hkeyId hrow)]

/-- A call that does not revoke without an entry keeps the list complete, and a revoked key
revoked. -/
theorem intact_step {c : Call} (h : Intact m db) (hc : Lists db c) :
    Intact m (step m db c).2 ∧ ∀ keyId, db.isRevoked keyId = true →
    (step m db c).2.isRevoked keyId = true := by
  have hundisturbed : ∀ {db' : Database}, Undisturbed db db' →
      Intact m db' ∧ ∀ keyId, db.isRevoked keyId = true → db'.isRevoked keyId = true :=
    fun hdb' ↦ ⟨h.undisturbed hdb', fun keyId hk ↦ (hdb'.1.isRevoked keyId).trans hk⟩
  cases c with
  | generateKey purpose metadata newKey createdAt expiresAt createdAgain moment =>
    exact hundisturbed (generateKey_snd h.settled)
  | rotateKey keyId reason newKey rotatedAt moment moment' =>
    exact hundisturbed (rotateKey_snd h.settled)
  | revokeKey keyId reason revokedAt moment =>
    rw [step]
    dsimp only
    rw [revokeKey_refused hc]
    exact ⟨h, fun _ hk ↦ hk⟩
  | revokeKeyWithCrl keyId actor reason revokedAt signingFails moment =>
    rw [step]
    rcases revokeKeyWithCrl_cases (m := m) h.settled with hdb' | ⟨db₁, k, r, happends, hdb'⟩
    · exact hundisturbed hdb'
    · refine ⟨(h.appends happends).undisturbed hdb', fun keyId hk ↦ ?_⟩
      rw [hdb'.1.isRevoked, happends.isRevoked.2, hk, Bool.or_true]

omit [PemText] in
/-- A key that `revoke_key` revokes has no entry, unless it had one before. -/
theorem revokeKey_snd {keyId : PyStr} (reason : PyStr) (revokedAt : String) (moment : Moment)
    {k : String} {row : KeyColumns} (hkeyId : bindText keyId = .ok k) (hrow : db.key? k = some row)
    (hstatus : row.status ≠ .revoked) :
    let db' := (revokeKey m db keyId reason revokedAt moment).2
    db'.isRevoked k = true ∧ getRevocationList db' = getRevocationList db := by
  dsimp only
  rw [revokeKey, hkeyId, andThen_ok, hrow]
  dsimp only
  rw [if_neg hstatus]
  have htables := updateStatus_tables .revoked revokedAt hrow
  have hrecorded : Undisturbed _ (recordProvenance m (db.updateStatus k .revoked revokedAt).commit k
    "revoke" operator [("reason", .str reason)] moment).2 :=
      recordProvenance_snd ⟨Alike.refl _, settled_commit _⟩
  obtain ⟨⟨hrevocations, hrevoked⟩, -⟩ := hrecorded
  refine ⟨?_, ?_⟩
  · rw [hrevoked, isRevoked_iff]
    refine ⟨{ row with status := .revoked, rotatedAt := some revokedAt }, ?_, rfl⟩
    rw [key?, commit, htables]
    exact Table.get?_put_self
  · have hlist := congrArg Tables.revocations htables
    exact hrevocations.trans hlist

/-- What is meant to hold of every run: the list of revocations is a chain, it has exactly one entry
for each revoked key and none for any other, and a revoked key stays revoked. -/
structure Complete (m : KeyManager) (calls : List Call) : Prop where
  chained : ∀ pre, pre <+: calls → checkRevocationChain m (after m .empty pre) = true
  listed : ∀ pre, pre <+: calls → ∀ keyId,
    (getRevocationList (after m .empty pre)).countP (fun r ↦ r.keyId = keyId) =
      if (after m .empty pre).isRevoked keyId = true then 1 else 0
  final : ∀ pre post, pre ++ post <+: calls → ∀ keyId row,
    (after m .empty pre).key? keyId = some row → row.status = .revoked →
    ∃ row', (after m .empty (pre ++ post)).key? keyId = some row' ∧ row'.status = .revoked

omit [JsonText] [PemText] in
theorem intact_empty (m : KeyManager) : Intact m .empty := ⟨fun _ h ↦ (nomatch h), rfl, fun _ ↦ rfl⟩

theorem intact_after {calls : List Call} (h : Transducer.Throughout (step m) Lists db calls)
    (hdb : Intact m db) : Intact m (after m db calls) :=
  Transducer.after_of_throughout (fun _ _ hI hc ↦ (intact_step hI hc).1) hdb h

/-- A call that revokes without an entry leaves the list incomplete. -/
theorem lists_of_listed {c : Call}
    (h : ∀ keyId, (getRevocationList db).countP (fun r ↦ r.keyId = keyId) =
      if db.isRevoked keyId = true then 1 else 0)
    (h' : ∀ keyId, (getRevocationList (step m db c).2).countP (fun r ↦ r.keyId = keyId) =
      if (step m db c).2.isRevoked keyId = true then 1 else 0) : Lists db c := by
  cases c with
  | revokeKey keyId reason revokedAt moment =>
    intro k row hkeyId hrow
    by_contra hstatus
    obtain ⟨hrevoked, hlist⟩ := revokeKey_snd (m := m) reason revokedAt moment hkeyId hrow hstatus
    have hfree : db.isRevoked k = false := by
      rw [isRevoked, hrow]
      exact decide_eq_false hstatus
    have hafter := h' k
    rw [step] at hafter
    dsimp only at hafter
    rw [hlist, h k, hfree, hrevoked] at hafter
    simp at hafter
  | _ => trivial

theorem Complete.lists {calls : List Call} (h : Complete m calls) :
    Transducer.Throughout (step m) Lists .empty calls := by
  refine Transducer.throughout_iff.mpr fun pre c post hsplit ↦ lists_of_listed (m := m) ?_ ?_
  · exact h.listed pre (hsplit ▸ List.prefix_append _ _)
  · have hconcat := h.listed (pre ++ [c]) (by
      rw [hsplit, List.append_cons pre c post]
      exact List.prefix_append _ _)
    rw [after_concat] at hconcat
    exact hconcat

/-- **When the list of revocations is complete.** What is meant to hold of a run holds exactly when
no call of `revoke_key` names a key of the table that is not revoked yet. -/
theorem complete_iff (m : KeyManager) (calls : List Call) :
    Complete m calls ↔ Transducer.Throughout (step m) Lists .empty calls := by
  constructor
  · exact Complete.lists
  · intro h
    have hintact : ∀ pre, pre <+: calls → Intact m (after m .empty pre) := by
      rintro pre ⟨post, rfl⟩
      exact intact_after (Transducer.throughout_append.mp h).1 (intact_empty m)
    refine ⟨fun pre hpre ↦ (hintact pre hpre).chained, fun pre hpre ↦ (hintact pre hpre).listed, ?_⟩
    rintro pre post ⟨rest, rfl⟩ keyId row hrow hstatus
    have hpost := (Transducer.throughout_append.mp (Transducer.throughout_append.mp h).1)
    refine isRevoked_iff.mp ?_
    rw [after, Transducer.after_append]
    exact (Transducer.after_of_throughout (Q := fun db ↦ Intact m db ∧ db.isRevoked keyId = true)
      (fun _ _ hI hc ↦ ⟨(intact_step hI.1 hc).1, (intact_step hI.1 hc).2 keyId hI.2⟩)
      ⟨intact_after hpost.1 (intact_empty m), isRevoked_iff.mpr ⟨row, hrow, hstatus⟩⟩ hpost.2).2

end Manager

/-! ## A revocation without an entry -/

namespace Sample

attribute [local instance] pythonPlatform Broker.Sample.keyedHash

/-- Every value has the same text in the sample, and so has every key. -/
@[reducible] def jsonText : JsonText := ⟨fun _ ↦ .ok "text"⟩

@[reducible] def pemText : PemText := ⟨fun _ ↦ "key"⟩

attribute [local instance] jsonText pemText

/-- A manager whose keys do not expire. -/
def manager : KeyManager := ⟨([0] : List ℕ), 0⟩

def newKey : List ℕ := [1]

def moment : Moment := ⟨"2026-01-01T00:00:00.000Z", none⟩

def generating : Call :=
  .generateKey (.ofString "signing") none newKey "2026-01-01T00:00:00Z" (.ok "")
    "2026-01-01T00:00:00Z" moment

theorem key?_after_generating : (after manager .empty [generating]).key? (capabilityKeyId newKey) =
    some ⟨"key", "2026-01-01T00:00:00Z", none, "signing", .active, none, none, "text"⟩ := by
  have hstep : after manager .empty [generating] =
      (generateKey manager .empty (.ofString "signing") none newKey "2026-01-01T00:00:00Z" (.ok "")
        "2026-01-01T00:00:00Z" moment).2 := by
    rw [after, Transducer.after_cons, Transducer.after_nil, generating, step]
  have hage : ¬0 < manager.maxAgeSeconds := by decide
  have hpurpose : bindText (.ofString "signing") = .ok "signing" := bindText_eq_ok.mpr rfl
  have hfree : Database.empty.key? (capabilityKeyId newKey) = none :=
    Table.get?_nil
  have hmetadata : JsonText.dumps (.dict ((none : Option (List (PyKey × PyValue))).getD [])) =
    .ok "text" := rfl
  rw [hstep, key?, generateKey_keys hage hmetadata hpurpose hfree]
  exact Table.get?_put_self

end Sample

/-- A key that was generated and then revoked by `revoke_key` has no entry in the list. -/
theorem not_complete_revoked :
    let _ := pythonPlatform
    let _ := Broker.Sample.keyedHash
    let _ := Sample.jsonText
    let _ := Sample.pemText
    ¬Complete Sample.manager [Sample.generating,
      .revokeKey (.ofString (capabilityKeyId Sample.newKey))
      (.ofString "revoked") "2026-01-01T00:00:01Z"
        Sample.moment] := by
  intro _ _ _ _ h
  have hlists := Transducer.throughout_iff.mp h.lists [Sample.generating] _ [] rfl
  cases hlists _ _ (bindText_eq_ok.mpr rfl) Sample.key?_after_generating

end EventHorizon.Keys
