import EventHorizon.Keys.Revocations

/-!
# The rows of the keys

What a call on the key manager can do to the table of keys is said once, by `Changes`: one row is
added, one row is revoked, or one row is rotated and its successor added. A row is never removed,
its purpose and its predecessor never change, and a key that has stopped being active stays so. The
predecessor of a key is always one that is no longer active.
-/

namespace EventHorizon.Keys

open Broker (Ed25519 capabilityKeyId)

/-- What one call can do to the table of keys. -/
inductive Changes (t : Table String KeyColumns) : Table String KeyColumns → Prop
  | nothing : Changes t t
  | generated {k : String} {row : KeyColumns} (hfree : t.get? k = none)
      (hstatus : row.status = .active) (hfrom : row.rotatedFrom = none) : Changes t (t.put k row)
  | rotated {k k' : String} {row row' : KeyColumns} (rotatedAt : Option String)
      (hrow : t.get? k = some row) (hactive : row.status = .active) (hfree : t.get? k' = none)
      (hstatus : row'.status = .active) (hfrom : row'.rotatedFrom = some k)
      (hpurpose : row'.purpose = row.purpose) (hexpires : row'.expiresAt = row.expiresAt) :
      Changes t ((t.put k' row').put k { row with status := .rotated, rotatedAt := rotatedAt })
  | revoked {k : String} {row : KeyColumns} (revokedAt : Option String)
      (hrow : t.get? k = some row) :
      Changes t (t.put k { row with status := .revoked, rotatedAt := revokedAt })

/-! ## What the rows keep -/

/-- A row and what may have become of it. -/
structure Succeeds (row row' : KeyColumns) : Prop where
  purpose : row'.purpose = row.purpose
  rotatedFrom : row'.rotatedFrom = row.rotatedFrom
  active : row'.status = .active → row.status = .active

theorem Succeeds.refl (row : KeyColumns) : Succeeds row row := ⟨rfl, rfl, id⟩

theorem Succeeds.trans {row₁ row₂ row₃ : KeyColumns} (h : Succeeds row₁ row₂)
    (h' : Succeeds row₂ row₃) : Succeeds row₁ row₃ :=
  ⟨h'.purpose.trans h.purpose, h'.rotatedFrom.trans h.rotatedFrom, h.active ∘ h'.active⟩

theorem succeeds_status {row : KeyColumns} {status : KeyStatus} (rotatedAt : Option String)
    (h : status ≠ .active) : Succeeds row { row with status := status, rotatedAt := rotatedAt } :=
  ⟨rfl, rfl, fun hactive ↦ absurd hactive h⟩

section Rows

variable {t t' : Table String KeyColumns} {k : String} {row : KeyColumns}

/-- The key of a free row is not one that is taken. -/
theorem ne_of_free {k' : String} (hfree : t.get? k' = none) (hrow : t.get? k = some row) :
    k ≠ k' := by
  rintro rfl
  rw [hfree] at hrow
  cases hrow

/-- Every row is still there. -/
theorem Changes.succeeds (h : Changes t t') (hrow : t.get? k = some row) :
    ∃ row', t'.get? k = some row' ∧ Succeeds row row' := by
  cases h with
  | nothing => exact ⟨row, hrow, .refl row⟩
  | generated hfree hstatus hfrom =>
    exact ⟨row, (Table.get?_put_ne (ne_of_free hfree hrow)).trans hrow, .refl row⟩
  | @rotated k₀ k' row₀ row' rotatedAt hrow₀ hactive hfree hstatus hfrom hpurpose hexpires =>
    by_cases hk : k = k₀
    · subst hk
      rw [hrow₀, Option.some.injEq] at hrow
      exact ⟨_, Table.get?_put_self, hrow ▸ succeeds_status rotatedAt (by decide)⟩
    · refine ⟨row, ?_, .refl row⟩
      rw [Table.get?_put_ne hk, Table.get?_put_ne (ne_of_free hfree hrow), hrow]
  | @revoked k₀ row₀ revokedAt hrow₀ =>
    by_cases hk : k = k₀
    · subst hk
      rw [hrow₀, Option.some.injEq] at hrow
      exact ⟨_, Table.get?_put_self, hrow ▸ succeeds_status revokedAt (by decide)⟩
    · exact ⟨row, (Table.get?_put_ne hk).trans hrow, .refl row⟩

/-- The predecessor of a key is there, serves the same purpose, and is no longer active. -/
def Retired (t : Table String KeyColumns) (row : KeyColumns) : Prop :=
  ∀ k, row.rotatedFrom = some k →
    ∃ row', t.get? k = some row' ∧ row'.purpose = row.purpose ∧ row'.status ≠ .active

/-- The keys are distinct, and every predecessor is retired. -/
structure Ordered (t : Table String KeyColumns) : Prop where
  nodup : (t.map Prod.fst).Nodup
  retired : ∀ k row, t.get? k = some row → Retired t row

theorem ordered_nil : Ordered [] := ⟨List.nodup_nil, fun _ _ h ↦ nomatch h⟩

theorem Changes.nodup (h : Changes t t') (ht : (t.map Prod.fst).Nodup) :
    (t'.map Prod.fst).Nodup := by
  cases h with
  | nothing => exact ht
  | generated _ _ _ => exact Table.nodup_keys_put ht
  | rotated _ _ _ _ _ _ _ _ => exact Table.nodup_keys_put (Table.nodup_keys_put ht)
  | revoked _ _ => exact Table.nodup_keys_put ht

/-- A row of the new table is what became of an old one, or a new row whose predecessor has been
retired by the same call. -/
theorem Changes.origin (h : Changes t t') (hrow : t'.get? k = some row) :
    (∃ row₀, t.get? k = some row₀ ∧ Succeeds row₀ row) ∨ Retired t' row := by
  cases h with
  | nothing => exact .inl ⟨row, hrow, .refl row⟩
  | @generated k₀ row₀ hfree hstatus hfrom =>
    rw [Table.get?_put] at hrow
    split at hrow
    · cases hrow
      exact .inr fun k' hk' ↦ absurd (hfrom.symm.trans hk') (by simp)
    · exact .inl ⟨row, hrow, .refl row⟩
  | @rotated k₀ k' row₀ row' rotatedAt hrow₀ hactive hfree hstatus hfrom hpurpose hexpires =>
    rw [Table.get?_put] at hrow
    split at hrow
    case isTrue hk =>
      cases hrow
      exact .inl ⟨row₀, hk ▸ hrow₀, succeeds_status rotatedAt (by decide)⟩
    · rw [Table.get?_put] at hrow
      split at hrow
      · cases hrow
        refine .inr fun k₁ hk₁ ↦ ?_
        rw [hfrom, Option.some.injEq] at hk₁
        subst hk₁
        exact ⟨_, Table.get?_put_self, hpurpose.symm, by simp⟩
      · exact .inl ⟨row, hrow, .refl row⟩
  | @revoked k₀ row₀ revokedAt hrow₀ =>
    rw [Table.get?_put] at hrow
    split at hrow
    case isTrue hk =>
      cases hrow
      exact .inl ⟨row₀, hk ▸ hrow₀, succeeds_status revokedAt (by decide)⟩
    · exact .inl ⟨row, hrow, .refl row⟩

theorem Ordered.changes (h : Ordered t) (ht' : Changes t t') : Ordered t' := by
  refine ⟨ht'.nodup h.nodup, fun k row hrow ↦ ?_⟩
  rcases ht'.origin hrow with ⟨row₀, hrow₀, hsucceeds⟩ | hretired
  · intro k' hk'
    obtain ⟨row₁, hrow₁, hpurpose, hstatus⟩ :=
      h.retired k row₀ hrow₀ k' (hsucceeds.rotatedFrom.symm.trans hk')
    obtain ⟨row₂, hrow₂, hsucceeds'⟩ := ht'.succeeds hrow₁
    refine ⟨row₂, hrow₂, ?_, fun hactive ↦ hstatus (hsucceeds'.active hactive)⟩
    rw [hsucceeds'.purpose, hpurpose, hsucceeds.purpose]
  · exact hretired

end Rows

/-! ## What the calls do -/

namespace Database

/-- The insertion fails and changes nothing, or the row is put under a key that was free. -/
theorem insertKey_cases (db : Database) (k : String) (columns : Except Exn KeyColumns) :
    (∃ e, db.insertKey k columns = (.error e, db.opened)) ∨
      ∃ row, columns = .ok row ∧ db.key? k = none ∧ db.insertKey k columns =
        (.ok (), { db.opened with tables.keys := db.tables.keys.put k row }) := by
  cases columns with
  | error e => exact .inl ⟨e, rfl⟩
  | ok row =>
    cases hrow : db.key? k with
    | none => exact .inr ⟨row, rfl, rfl, insertKey_of_free hrow⟩
    | some row' =>
      refine .inl ⟨integrityError "UNIQUE constraint failed: keys.key_id", ?_⟩
      rw [insertKey, hrow]
      rfl

theorem insertRevocation_cases (db : Database) (row : Except Exn Revocation) :
    (∃ e, db.insertRevocation row = (.error e, db.opened)) ∨ ∃ r, db.insertRevocation row =
      (.ok r, { db.opened with tables.revocations := db.tables.revocations ++ [r] }) := by
  cases row with
  | error e => exact .inl ⟨e, rfl⟩
  | ok r =>
    rw [insertRevocation]
    split
    · exact .inl ⟨_, rfl⟩
    · exact .inr ⟨r, rfl⟩

end Database

open Database

section Manager

variable [Platform] [Ed25519] [JsonText] [PemText]

variable {m : KeyManager} {db : Database}

omit [PemText] in
theorem recordProvenance_commit_keys {keyId action : String} {actor : PyStr}
    {details : List (String × PyValue)} {moment : Moment} :
    (recordProvenance m db.commit keyId action actor details moment).2.tables.keys =
      db.tables.keys := recordProvenance_keys

theorem generateKey_changes {purpose : PyStr} {metadata : Option (List (PyKey × PyValue))}
    {newKey : Ed25519.PublicKey} {createdAt : String} {expiresAt : Except Exn String}
    {createdAgain : String} {moment : Moment} : Changes db.tables.keys
      (generateKey m db purpose metadata newKey createdAt expiresAt createdAgain
        moment).2.tables.keys := by
  let P (db' : Database) : Prop := Changes db.tables.keys db'.tables.keys
  rw [generateKey]
  refine andThen_snd (P := P) (fun _ _ ↦ .nothing) fun expires _ ↦ ?_
  refine andThen_snd (P := P) (fun _ _ ↦ .nothing) fun text _ ↦ ?_
  dsimp only
  rcases insertKey_cases db (capabilityKeyId newKey) ((bindText purpose).map fun purpose ↦
      (⟨PemText.spell newKey, createdAt, expires, purpose, .active, none, none, text⟩ : KeyColumns))
    with ⟨e, he⟩ | ⟨row, hcolumns, hfree, hinsert⟩
  · rw [he]
    exact .nothing
  · rw [hinsert, andThen_ok, andThen_return_snd]
    show Changes _ _
    rw [recordProvenance_commit_keys]
    obtain ⟨_, -, rfl⟩ := map_eq_ok.mp hcolumns
    exact .generated hfree rfl rfl

/-- A rotation changes nothing, or retires the active key that it names and adds its successor,
which has its expiry. -/
theorem rotateKey_keys {keyId reason : PyStr} {newKey : Ed25519.PublicKey} {rotatedAt : String}
    {moment moment' : Moment} :
    let keys' := (rotateKey m db keyId reason newKey rotatedAt moment moment').2.tables.keys
    keys' = db.tables.keys ∨ ∃ k row, db.key? k = some row ∧ row.status = .active ∧
      db.key? (capabilityKeyId newKey) = none ∧
      keys' = (db.tables.keys.put (capabilityKeyId newKey) ⟨PemText.spell newKey, rotatedAt,
        row.expiresAt, row.purpose, .active, some k, some rotatedAt, row.metadataJson⟩).put k
          { row with status := .rotated, rotatedAt := some rotatedAt } := by
  dsimp only
  rw [rotateKey]
  cases hkeyId : bindText keyId with
  | error e => exact .inl rfl
  | ok k =>
    rw [andThen_ok]
    cases hrow : db.key? k with
    | none => exact .inl rfl
    | some row =>
      dsimp only
      split
      · exact .inl rfl
      case isFalse hactive =>
      rcases insertKey_cases db (capabilityKeyId newKey) (.ok ⟨PemText.spell newKey, rotatedAt,
        row.expiresAt, row.purpose, .active, some k, some rotatedAt, row.metadataJson⟩)
        with ⟨e, he⟩ | ⟨_, hcolumns, hfree, hinsert⟩
      · rw [he]
        exact .inl rfl
      · cases hcolumns
        refine .inr ⟨k, row, hrow, Decidable.not_not.mp hactive, hfree, ?_⟩
        have hrow' := key?_of_insertKey (congrArg Prod.fst hinsert) hrow
        rw [hinsert] at hrow' ⊢
        rw [andThen_ok]
        have htables := congrArg Tables.keys (updateStatus_tables .rotated rotatedAt hrow')
        refine andThen_snd (P := fun db' : Database ↦ db'.tables.keys = _)
          (fun _ _ ↦ recordProvenance_commit_keys.trans htables) fun _ _ ↦ ?_
        rw [andThen_return_snd, recordProvenance_keys, recordProvenance_commit_keys]
        exact htables

theorem rotateKey_changes {keyId reason : PyStr} {newKey : Ed25519.PublicKey} {rotatedAt : String}
    {moment moment' : Moment} : Changes db.tables.keys
      (rotateKey m db keyId reason newKey rotatedAt moment moment').2.tables.keys := by
  rcases rotateKey_keys with hkeys | ⟨k, row, hrow, hactive, hfree, hkeys⟩
  · rw [hkeys]
    exact .nothing
  · rw [hkeys]
    exact .rotated _ hrow hactive hfree rfl rfl rfl rfl

omit [PemText] in
theorem revokeKey_changes {keyId reason : PyStr} {revokedAt : String} {moment : Moment} :
    Changes db.tables.keys (revokeKey m db keyId reason revokedAt moment).2.tables.keys := by
  rw [revokeKey]
  cases hkeyId : bindText keyId with
  | error e => exact .nothing
  | ok k =>
    rw [andThen_ok]
    cases hrow : db.key? k with
    | none => exact .nothing
    | some row =>
      dsimp only
      split
      · exact .nothing
      · have htables := congrArg Tables.keys (updateStatus_tables .revoked revokedAt hrow)
        rw [recordProvenance_commit_keys, htables]
        exact .revoked _ hrow

omit [JsonText] [PemText] in
/-- A revocation that is appended revokes one row. -/
theorem appendRevocation_keys {keyId actor reason : PyStr} {revokedAt : String}
    {signingFails : Option Exn} {r : Revocation}
    (h : (appendRevocation m db keyId actor reason revokedAt signingFails).1 = .ok r) :
    Changes db.tables.keys
      (appendRevocation m db keyId actor reason revokedAt signingFails).2.tables.keys := by
  rw [appendRevocation] at h ⊢
  cases hkeyId : bindText keyId with
  | error e => exact .nothing
  | ok k =>
    rw [hkeyId, andThen_ok] at h
    rw [andThen_ok]
    cases hrow : db.key? k with
    | none => exact .nothing
    | some row =>
      rw [hrow] at h
      dsimp only at h ⊢
      split at h
      · cases h
      case isFalse hactive =>
      rw [if_neg hactive]
      split at h
      · cases h
      case isFalse hchained =>
      rw [if_neg hchained]
      obtain ⟨signature, hsign, h⟩ := andThen_fst_eq_ok.mp h
      dsimp only at hsign h
      rw [hsign, andThen_ok]
      rcases insertRevocation_cases db (do
          let reason ← bindText reason
          let actor ← bindText actor
          return ⟨k, revokedAt, reason, actor, signature,
            db.tables.revocations.getLast?.map fun r ↦ revocationLink r.signature⟩)
        with ⟨e, he⟩ | ⟨r', hinsert⟩
      · rw [he] at h
        cases h
      · rw [hinsert, andThen_ok]
        let inserted : Database :=
          { db.opened with tables.revocations := db.tables.revocations ++ [r'] }
        have hinserted : inserted.key? k = some row := hrow
        have htables := congrArg Tables.keys (updateStatus_tables .revoked revokedAt hinserted)
        show Changes _ _
        rw [Database.commit, htables]
        exact .revoked _ hrow

omit [PemText] in
theorem revokeKeyWithCrl_changes {keyId actor reason : PyStr} {revokedAt : String}
    {signingFails : Option Exn} {moment : Moment} (h : db.Settled) : Changes db.tables.keys
      (revokeKeyWithCrl m db keyId actor reason revokedAt signingFails moment).2.tables.keys := by
  rw [revokeKeyWithCrl]
  cases htransaction : db.transaction with
  | some tables =>
    rw [Option.isSome_some, if_pos rfl]
    show Changes _ db.rollback.tables.keys
    rw [h.rollback]
    exact .nothing
  | none =>
    rw [Option.isSome_none, if_neg Bool.false_ne_true]
    have hopened : db.opened.transaction = some db.tables := by
      rw [opened, htransaction]
      rfl
    cases happend : (appendRevocation m db.opened keyId actor reason revokedAt signingFails).1 with
    | error e =>
      dsimp only
      rcases appendRevocation_cases (m := m) hopened with ⟨e', -, hundone⟩ | ⟨k, r, hr, -⟩
      · rw [Database.rollback, hundone]
        exact .nothing
      · rw [happend] at hr
        cases hr
    | ok r =>
      dsimp only
      rw [andThen_return_snd, recordProvenance_keys]
      have hchanges := appendRevocation_keys happend
      exact hchanges

/-- What a call does to the table of keys. -/
theorem step_changes {c : Call} (h : db.Settled) :
    Changes db.tables.keys (step m db c).2.tables.keys := by
  cases c with
  | generateKey purpose metadata newKey createdAt expiresAt createdAgain moment =>
    exact generateKey_changes
  | rotateKey keyId reason newKey rotatedAt moment moment' => exact rotateKey_changes
  | revokeKey keyId reason revokedAt moment => exact revokeKey_changes
  | revokeKeyWithCrl keyId actor reason revokedAt signingFails moment =>
    exact revokeKeyWithCrl_changes h

/-- A call leaves nothing pending. -/
theorem step_settled {c : Call} (h : db.Settled) : (step m db c).2.Settled := by
  cases c with
  | generateKey purpose metadata newKey createdAt expiresAt createdAgain moment =>
    exact (generateKey_snd h).2
  | rotateKey keyId reason newKey rotatedAt moment moment' => exact (rotateKey_snd h).2
  | revokeKey keyId reason revokedAt moment =>
    rw [step, revokeKey]
    cases bindText keyId with
    | error e => exact h
    | ok k =>
      rw [andThen_ok]
      cases db.key? k with
      | none => exact h
      | some row =>
        dsimp only
        split
        · exact h
        · exact (recordProvenance_snd ⟨Alike.refl _, settled_commit _⟩).2
  | revokeKeyWithCrl keyId actor reason revokedAt signingFails moment =>
    rcases revokeKeyWithCrl_cases (m := m) h with hdb' | ⟨db₁, k, r, -, hdb'⟩
    · exact hdb'.2
    · exact hdb'.2

end Manager

end EventHorizon.Keys
