import EventHorizon.Keys.Statuses

/-!
# Automatic rotation

`auto_rotate_due` rotates the keys that `check_rotation_needed` finds, those whose `expires_at` has
passed. `rotate_key` gives the successor the `expires_at` of the key that it replaces, so the
successor is due as well: as long as some key is due, rotating any key leaves some key due
(`due_rotateKey`). What automatic rotation is meant to achieve it achieves when there is nothing to
do, and only then.
-/

namespace EventHorizon.Keys

open Broker (Ed25519 capabilityKeyId)

/-- `expires_at IS NOT NULL AND expires_at < ?`. -/
def KeyColumns.due (row : KeyColumns) (now : String) : Bool := row.expiresAt.any (· < now)

/-- `check_rotation_needed`, at the time whose text is given. -/
def Database.checkRotationNeeded (db : Database) (now : String) : List KeyMetadata :=
  (db.tables.keys.filter fun r ↦ r.2.status = .active && r.2.due now).map fun r ↦ ⟨r.1, r.2⟩

section Manager

variable [Platform] [Ed25519] [JsonText] [PemText]

/-- What one rotation meets: the key that is generated, and the times. -/
structure Rotation where
  newKey : Ed25519.PublicKey
  rotatedAt : String
  moment : Moment
  moment' : Moment

variable (m : KeyManager)

/-- The loop of `auto_rotate_due`. -/
def rotateEach (rotation : String → Rotation) (db : Database) :
    List KeyMetadata → Except Exn Unit × Database
  | [] => (.ok (), db)
  | key :: keys =>
    let r := rotation key.keyId
    let rotated := rotateKey m db (.ofString key.keyId) (.ofString "auto-rotation") r.newKey
      r.rotatedAt r.moment r.moment'
    match rotated.1 with
    | .error e =>
      if e.cls = .keyManagementError then rotateEach rotation rotated.2 keys
      else (.error e, rotated.2)
    | .ok _ => rotateEach rotation rotated.2 keys

/-- `auto_rotate_due`; `autoRotate` is the flag of the rotation policy. -/
def autoRotateDue (autoRotate : Bool) (db : Database) (now : String)
    (rotation : String → Rotation) :
    Except Exn Unit × Database :=
  if autoRotate = true then rotateEach m rotation db (db.checkRotationNeeded now) else (.ok (), db)

/-- What automatic rotation is meant to achieve, where `clock` is the text of a time: no active key
is due when it has run, a later run within the maximum age leaves the keys that this one produced,
and each key that it replaces has one active successor. -/
structure Settles (clock : ℤ → String) (t : ℤ) (rotation : String → Rotation) (db : Database) :
    Prop where
  settled : (autoRotateDue m true db (clock t) rotation).2.checkRotationNeeded (clock t) = []
  later : ∀ t', t ≤ t' → t' ≤ t + m.maxAgeSeconds → ∀ rotation' k row, db.key? k = none →
    (autoRotateDue m true db (clock t) rotation).2.key? k = some row →
    (autoRotateDue m true (autoRotateDue m true db (clock t) rotation).2 (clock t')
      rotation').2.key? k = some row
  replaced : ∀ k row row', db.key? k = some row → row.status = .active →
    (autoRotateDue m true db (clock t) rotation).2.key? k = some row' → row'.status ≠ .active →
    ∃! k', ∃ row'', (autoRotateDue m true db (clock t) rotation).2.key? k' = some row'' ∧
      row''.rotatedFrom = some k ∧ row''.status = .active

/-! ## A key that is due -/

/-- Some active key is due. -/
def Due (t : Table String KeyColumns) (now : String) : Prop :=
  ∃ r ∈ t, r.2.status = .active ∧ r.2.due now = true

omit [Platform] [Ed25519] [JsonText] [PemText] in
/-- A key that is replaced by one with its expiry. -/
theorem Due.rotated {t : Table String KeyColumns} {now k k' : String} {row row' : KeyColumns}
    (h : Due t now) (hrow : t.get? k = some row) (hfree : t.get? k' = none)
    (hstatus : row'.status = .active) (hexpires : row'.expiresAt = row.expiresAt)
    (rotated : KeyColumns) : Due ((t.put k' row').put k rotated) now := by
  have hne : k ≠ k' := ne_of_free hfree hrow
  by_cases hdue : row.due now = true
  · have hrow' : (k', row') ∈ (t.put k' row').put k rotated :=
      (Table.mem_put_or Table.mem_put_self).resolve_right fun h ↦ hne h.1.symm
    refine ⟨_, hrow', hstatus, ?_⟩
    rw [KeyColumns.due, hexpires]
    exact hdue
  · obtain ⟨r, hr, hactive, hrdue⟩ := h
    have hr' : r ∈ t.put k' row' :=
      (Table.mem_put_or hr).resolve_right fun h ↦ by simp [hfree] at h
    refine ⟨r, (Table.mem_put_or hr').resolve_right fun h ↦ hdue ?_, hactive, hrdue⟩
    have hsame := (Table.get?_put_ne hne).symm.trans h.2
    rw [hrow, Option.some.injEq] at hsame
    rw [hsame, hrdue]

omit [Platform] [Ed25519] [JsonText] [PemText] in
theorem checkRotationNeeded_eq_nil {db : Database} {now : String} :
    db.checkRotationNeeded now = [] ↔ ¬Due db.tables.keys now := by
  rw [Database.checkRotationNeeded, List.map_eq_nil_iff, List.filter_eq_nil_iff, Due]
  simp

variable {m} {db : Database} {now : String}

/-- A rotation leaves a key that is due: another one, or the successor of the one it replaces. -/
theorem due_rotateKey {keyId reason : PyStr} {newKey : Ed25519.PublicKey} {rotatedAt : String}
    {moment moment' : Moment} (h : Due db.tables.keys now) :
    Due (rotateKey m db keyId reason newKey rotatedAt moment moment').2.tables.keys now := by
  rcases rotateKey_keys with hkeys | ⟨k, row, hrow, -, hfree, hkeys⟩
  · rw [hkeys]
    exact h
  · rw [hkeys]
    refine h.rotated hrow hfree ?_ ?_ _
    · rfl
    · rfl

theorem due_rotateEach {rotation : String → Rotation} {keys : List KeyMetadata}
    (h : Due db.tables.keys now) : Due (rotateEach m rotation db keys).2.tables.keys now := by
  induction keys generalizing db with
  | nil => exact h
  | cons key keys ih =>
    rw [rotateEach]
    split
    · split
      · exact ih (due_rotateKey h)
      · exact due_rotateKey h
    · exact ih (due_rotateKey h)

/-- **When automatic rotation settles.** It does exactly when no active key is due at the time of
the call. -/
theorem settles_iff (m : KeyManager) (clock : ℤ → String) (t : ℤ) (rotation : String → Rotation)
    (db : Database) :
    Settles m clock t rotation db ↔
      ∀ r ∈ db.tables.keys, r.2.status = .active → r.2.due (clock t) = false := by
  have hnone : (∀ r ∈ db.tables.keys, r.2.status = .active → r.2.due (clock t) = false) ↔
      ¬Due db.tables.keys (clock t) := by simp [Due]
  rw [hnone]
  constructor
  · intro h hdue
    refine checkRotationNeeded_eq_nil.mp h.settled ?_
    rw [autoRotateDue, if_pos rfl]
    exact due_rotateEach hdue
  · intro h
    have hdone : autoRotateDue m true db (clock t) rotation = (.ok (), db) := by
      rw [autoRotateDue, if_pos rfl, checkRotationNeeded_eq_nil.mpr h, rotateEach]
    refine ⟨?_, fun t' _ _ rotation' k row hnew hrow ↦ ?_,
      fun k row row' hrow hactive hrow' hst ↦ ?_⟩
    · rw [hdone]
      exact checkRotationNeeded_eq_nil.mpr h
    · rw [hdone, hnew] at hrow
      cases hrow
    · rw [hdone, hrow, Option.some.injEq] at hrow'
      exact absurd (hrow' ▸ hactive) hst

end Manager

/-! ## A key that stays due -/

namespace Sample

attribute [local instance] pythonPlatform Broker.Sample.keyedHash jsonText pemText

/-- A manager whose keys expire after an hour. -/
def agingManager : KeyManager := ⟨([0] : List ℕ), 3600⟩

/-- One key, which has expired. -/
def expiredKeys : Database :=
  ⟨⟨[(capabilityKeyId newKey,
    ⟨"key", "2025-12-31T22:59:00Z", some "2025-12-31T23:59:00Z", "signing",
    .active, none, none, "{}"⟩)], [], []⟩, none⟩

def rotation : Rotation := ⟨([2] : List ℕ), "2026-01-01T00:00:00Z", moment, moment⟩

end Sample

/-- The successor of an expired key has expired. -/
theorem not_settles_expired :
    let _ := pythonPlatform
    let _ := Broker.Sample.keyedHash
    let _ := Sample.jsonText
    let _ := Sample.pemText
    ¬Settles Sample.agingManager (fun _ ↦ "2026-01-01T00:00:00Z") 0 (fun _ ↦ Sample.rotation)
      Sample.expiredKeys := by
  intro _ _ _ _ h
  refine checkRotationNeeded_eq_nil.mp h.settled ?_
  rw [autoRotateDue, if_pos rfl]
  exact due_rotateEach ⟨_, List.mem_singleton_self _, rfl, by decide⟩

end EventHorizon.Keys
