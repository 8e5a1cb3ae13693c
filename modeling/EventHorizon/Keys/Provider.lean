import EventHorizon.Keys.Statuses

/-!
# The provider of service keys

`ServiceKeyProvider.get_key` of `key_management.py` hands out the first active key of a purpose and
remembers it. When the key it remembers has been rotated it goes to the predecessor of that key,
which is an older key still, and a key that has been revoked it does not notice. A key that is
remembered is thus handed out correctly as long as it is active, and from then on never again:
`serves_iff` says so of one call, `serves_throughout_iff` of every run, and
`serves_throughout_iff_of_text` says it of the keys that have been handed out.
-/

namespace EventHorizon.Keys

open Broker (Ed25519 capabilityKeyId)

namespace Database

/-- `KeyManager.get_key`. -/
def getKey (db : Database) (keyId : String) : Option KeyMetadata :=
  (db.key? keyId).map fun row ↦ ⟨keyId, row⟩

/-- `list_keys`. -/
def listKeys (db : Database) (purpose : PyStr) (status : Option KeyStatus) :
    Except Exn (List KeyMetadata) := do
  let purpose ← if purpose = [] then pure none else (bindText purpose).map some
  let rows := db.tables.keys.filter fun r ↦
    purpose.all (r.2.purpose = ·) && status.all (r.2.status = ·)
  return rows.map fun r ↦ ⟨r.1, r.2⟩

end Database

/-- `key.rotated_from or key.key_id`. -/
def KeyMetadata.rotatedFromOrKeyId (key : KeyMetadata) : String :=
  match key.columns.rotatedFrom with
  | some k => if k = "" then key.keyId else k
  | none => key.keyId

/-- The database of the provider's manager, and the provider's `_current_keys`. -/
structure ServiceKeyProvider where
  db : Database
  currentKeys : Table PyStr (Option KeyMetadata)

namespace ServiceKeyProvider

/-- A provider for a database that has just been created. -/
def init : ServiceKeyProvider := ⟨.empty, []⟩

/-- `ServiceKeyProvider.get_key`. -/
def getKey (p : ServiceKeyProvider) (purpose : PyStr) :
    Except Exn (Option KeyMetadata) × ServiceKeyProvider :=
  match p.currentKeys.get? purpose with
  | none =>
    match p.db.listKeys purpose (some .active) with
    | .error e => (.error e, p)
    | .ok [] => (.error (refuse ("no active key for purpose " ++ purpose.shown)), p)
    | .ok (key :: _) =>
      (.ok (some key), { p with currentKeys := p.currentKeys.put purpose (some key) })
  | some none => (.error ⟨.attributeError, "'NoneType' object has no attribute 'key_id'"⟩, p)
  | some (some key) =>
    match p.db.getKey key.keyId with
    | none => (.ok (some key), p)
    | some newKey =>
      if newKey.columns.status = .rotated then
        let older := p.db.getKey key.rotatedFromOrKeyId
        (.ok older, { p with currentKeys := p.currentKeys.put purpose older })
      else (.ok (some key), p)

/-- What is meant to hold of a lookup: it returns a key of the purpose that is active now, or there
is none and it says so. -/
def Serves (p : ServiceKeyProvider) (purpose : PyStr) : Prop :=
  match (p.getKey purpose).1 with
  | .ok (some key) => ∃ row, p.db.key? key.keyId = some row ∧
      PyStr.ofString row.purpose = purpose ∧ row.status = .active
  | .ok none => False
  | .error e => e.cls = .keyManagementError ∧
      ∀ r ∈ p.db.tables.keys, PyStr.ofString r.2.purpose = purpose → r.2.status ≠ .active

/-- The key that is remembered for a purpose, if any, is active. A purpose that is looked up for the
first time can be encoded. The empty purpose stands for every purpose in `list_keys`: the key that
it finds or has found is one of the empty purpose. -/
def Current (p : ServiceKeyProvider) (purpose : PyStr) : Prop :=
  match p.currentKeys.get? purpose with
  | none => purpose.text?.isSome = true ∧ (purpose = [] → ∀ r ∈
      p.db.tables.keys.find? (fun r ↦ r.2.status = .active), r.2.purpose = "")
  | some none => False
  | some (some key) => (∃ row, p.db.key? key.keyId = some row ∧ row.status = .active) ∧
      (purpose = [] → key.columns.purpose = "")

/-! ## What a lookup finds -/

/-- Nothing is pending, predecessors are retired, and what is remembered is a row of the table as it
once was. -/
structure Sound (p : ServiceKeyProvider) : Prop where
  settled : p.db.Settled
  ordered : Ordered p.db.tables.keys
  cached : ∀ purpose key, p.currentKeys.get? purpose = some (some key) →
    ∃ row, p.db.key? key.keyId = some row ∧ Succeeds key.columns row ∧
      (purpose ≠ [] → PyStr.ofString row.purpose = purpose)

theorem sound_init : Sound init :=
  ⟨fun _ h ↦ (nomatch h), ordered_nil, fun _ _ h ↦ (nomatch h)⟩

variable {p : ServiceKeyProvider} {purpose : PyStr}

theorem ofString_eq_nil {s : String} : PyStr.ofString s = [] ↔ s = "" := by
  have hempty : PyStr.ofString "" = [] := rfl
  rw [← hempty]
  exact PyStr.ofString_injective.eq_iff

theorem listKeys_of_text {db : Database} {text : String} (hne : text ≠ "") :
    db.listKeys (.ofString text) (some .active) = .ok ((db.tables.keys.filter fun r ↦
      r.2.purpose = text && r.2.status = .active).map fun r ↦ ⟨r.1, r.2⟩) := by
  have hbind : bindText (.ofString text) = .ok text := bindText_eq_ok.mpr rfl
  have hne' : PyStr.ofString text ≠ [] := fun h ↦ hne (ofString_eq_nil.mp h)
  rw [Database.listKeys, if_neg hne', hbind]
  rfl

theorem listKeys_nil {db : Database} : db.listKeys [] (some .active) =
    .ok ((db.tables.keys.filter fun r ↦ r.2.status = .active).map fun r ↦ ⟨r.1, r.2⟩) := by
  rw [Database.listKeys, if_pos rfl, pure_bind]
  simp only [Option.all_none, Bool.true_and, Option.all_some]
  rfl

theorem listKeys_of_surrogate {db : Database} (h : purpose.text? = none) :
    db.listKeys purpose (some .active) = .error purpose.encodeError := by
  have hne : purpose ≠ [] := by
    rintro rfl
    cases h
  rw [Database.listKeys, if_neg hne, bindText, h]
  rfl

theorem mem_of_listKeys {db : Database} {keys : List KeyMetadata} {key : KeyMetadata}
    (h : db.listKeys purpose (some .active) = .ok keys) (hkey : key ∈ keys) :
    (key.keyId, key.columns) ∈ db.tables.keys ∧
      (purpose ≠ [] → PyStr.ofString key.columns.purpose = purpose) := by
  cases htext : purpose.text? with
  | none =>
    rw [listKeys_of_surrogate htext] at h
    cases h
  | some text =>
    obtain rfl := PyStr.eq_ofString_of_text? htext
    by_cases hne : text = ""
    · subst hne
      have hempty : PyStr.ofString "" = [] := rfl
      rw [hempty, listKeys_nil, Except.ok.injEq] at h
      rw [← h] at hkey
      obtain ⟨r, hr, rfl⟩ := List.mem_map.mp hkey
      exact ⟨(List.mem_filter.mp hr).1, fun hne ↦ absurd hempty hne⟩
    · rw [listKeys_of_text hne, Except.ok.injEq] at h
      rw [← h] at hkey
      obtain ⟨r, hr, rfl⟩ := List.mem_map.mp hkey
      obtain ⟨hmem, hr⟩ := List.mem_filter.mp hr
      rw [Bool.and_eq_true] at hr
      exact ⟨hmem, fun _ ↦ congrArg _ (of_decide_eq_true hr.1)⟩

theorem getKey_of_cons {key : KeyMetadata} {keys : List KeyMetadata}
    (hnew : p.currentKeys.get? purpose = none)
    (hkeys : p.db.listKeys purpose (some .active) = .ok (key :: keys)) : p.getKey purpose =
      (.ok (some key), { p with currentKeys := p.currentKeys.put purpose (some key) }) := by
  rw [getKey, hnew, hkeys]

theorem serves_iff_of_listed {rows : Table String KeyColumns} (h : Sound p)
    (hnew : p.currentKeys.get? purpose = none)
    (hkeys : p.db.listKeys purpose (some .active) = .ok (rows.map fun r ↦ ⟨r.1, r.2⟩))
    (hrows : ∀ r ∈ rows, r ∈ p.db.tables.keys ∧ r.2.status = .active)
    (hall : rows = [] → ∀ r ∈ p.db.tables.keys, PyStr.ofString r.2.purpose = purpose →
      r.2.status ≠ .active) :
    p.Serves purpose ↔ ∀ r ∈ rows.head?, PyStr.ofString r.2.purpose = purpose := by
  rw [Serves, getKey, hnew, hkeys]
  cases rows with
  | nil => exact iff_of_true ⟨rfl, hall rfl⟩ fun _ hr ↦ nomatch hr
  | cons r rows =>
    obtain ⟨hmem, hactive⟩ := hrows r List.mem_cons_self
    have hrow : p.db.key? r.1 = some r.2 := (Table.get?_eq_some_iff h.ordered.nodup).mpr hmem
    simp [hrow, hactive]

/-- The lookup of a purpose that is not remembered. -/
theorem serves_iff_of_new (h : Sound p) (hnew : p.currentKeys.get? purpose = none) :
    p.Serves purpose ↔ p.Current purpose := by
  rw [Current, hnew]
  dsimp only
  cases htext : purpose.text? with
  | none =>
    refine iff_of_false (fun hserves ↦ ?_) fun hcurrent ↦ by simp at hcurrent
    rw [Serves, getKey, hnew, listKeys_of_surrogate htext] at hserves
    cases hserves.1
  | some text =>
    obtain rfl := PyStr.eq_ofString_of_text? htext
    rw [ofString_eq_nil]
    by_cases hne : text = ""
    · subst hne
      rw [serves_iff_of_listed h hnew listKeys_nil, List.head?_filter]
      · simp [PyStr.ofString_injective.eq_iff]
      · simp
      · exact fun hnil r hr _ ↦ by simpa using List.filter_eq_nil_iff.mp hnil r hr
    · rw [serves_iff_of_listed h hnew (listKeys_of_text hne)]
      · refine iff_of_true (fun r hr ↦ ?_) ⟨rfl, fun hempty ↦ absurd hempty hne⟩
        have hr := (List.mem_filter.mp (List.mem_of_mem_head? hr)).2
        simp at hr
        rw [hr.1]
      · simp
        tauto
      · intro hnil r hr hpurpose hactive
        have hr := List.filter_eq_nil_iff.mp hnil r hr
        simp [hactive, PyStr.ofString_injective hpurpose] at hr

/-- The key that replaces a rotated one is not active: it is the predecessor, or the key itself. -/
theorem older_not_active {key : KeyMetadata} {row : KeyColumns} (h : Sound p)
    (hrow : p.db.key? key.keyId = some row) (hsucceeds : Succeeds key.columns row)
    (hrotated : row.status = .rotated) : ∃ row', p.db.key? key.rotatedFromOrKeyId = some row' ∧
      row'.purpose = row.purpose ∧ row'.status ≠ .active := by
  have hself : row.status ≠ .active := by simp [hrotated]
  rw [KeyMetadata.rotatedFromOrKeyId]
  cases hfrom : key.columns.rotatedFrom with
  | none => exact ⟨row, hrow, rfl, hself⟩
  | some k =>
    dsimp only
    split
    · exact ⟨row, hrow, rfl, hself⟩
    · exact h.ordered.retired _ _ hrow k (hsucceeds.rotatedFrom.trans hfrom)

theorem serves_iff_of_cached {key : KeyMetadata} (h : Sound p)
    (hcached : p.currentKeys.get? purpose = some (some key)) :
    p.Serves purpose ↔ p.Current purpose := by
  obtain ⟨row, hrow, hsucceeds, hpurpose⟩ := h.cached purpose key hcached
  have hnewKey : p.db.getKey key.keyId = some ⟨key.keyId, row⟩ := by
    rw [Database.getKey, hrow]
    rfl
  rw [Serves, Current, getKey, hcached]
  dsimp only
  rw [hnewKey, hrow]
  dsimp only
  by_cases hrotated : row.status = .rotated
  · obtain ⟨row', hrow', -, hinactive⟩ := older_not_active h hrow hsucceeds hrotated
    have holder : p.db.getKey key.rotatedFromOrKeyId = some ⟨key.rotatedFromOrKeyId, row'⟩ := by
      rw [Database.getKey, hrow']
      rfl
    rw [if_pos hrotated, holder]
    dsimp only
    rw [hrow']
    simp [hinactive, hrotated]
  · rw [if_neg hrotated]
    dsimp only
    rw [hrow, hsucceeds.purpose.symm]
    by_cases hempty : purpose = []
    · simp [hempty, ofString_eq_nil, and_comm]
    · simp [hempty, hpurpose hempty]

/-- **When a lookup is served.** -/
theorem serves_iff (h : Sound p) : p.Serves purpose ↔ p.Current purpose := by
  cases hcached : p.currentKeys.get? purpose with
  | none => exact serves_iff_of_new h hcached
  | some cached =>
    cases cached with
    | none =>
      rw [Serves, Current, getKey, hcached]
      simp
    | some key => exact serves_iff_of_cached h hcached

/-- A lookup leaves what is remembered, and what it returns is remembered. -/
theorem getKey_cases (h : Sound p) (purpose : PyStr) :
    ((p.getKey purpose).2 = p ∧ ∀ key, (p.getKey purpose).1 = .ok (some key) →
      p.currentKeys.get? purpose = some (some key)) ∨
    ∃ key, (p.getKey purpose).1 = .ok (some key) ∧
      (p.getKey purpose).2 = { p with currentKeys := p.currentKeys.put purpose (some key) } := by
  rw [ServiceKeyProvider.getKey]
  split
  · split
    · exact .inl ⟨rfl, fun _ h ↦ by cases h⟩
    · exact .inl ⟨rfl, fun _ h ↦ by cases h⟩
    · exact .inr ⟨_, rfl, rfl⟩
  · exact .inl ⟨rfl, fun _ h ↦ by cases h⟩
  case h_3 key hcached =>
    have hkept : ∀ key', (Except.ok (some key) : Except Exn _) = .ok (some key') →
        p.currentKeys.get? purpose = some (some key') := by
      intro key' h
      cases h
      exact hcached
    obtain ⟨row, hrow, hsucceeds, -⟩ := h.cached purpose key hcached
    split
    · exact .inl ⟨rfl, hkept⟩
    case h_2 newKey hnewKey =>
      split
      case isTrue hrotated =>
        rw [Database.getKey, hrow, Option.map_some, Option.some.injEq] at hnewKey
        subst hnewKey
        obtain ⟨row', hrow', -⟩ := older_not_active h hrow hsucceeds hrotated
        refine .inr ⟨⟨key.rotatedFromOrKeyId, row'⟩, ?_⟩
        rw [Database.getKey, hrow']
        exact ⟨rfl, rfl⟩
      case isFalse => exact .inl ⟨rfl, hkept⟩

theorem cached_of_getKey {key : KeyMetadata} (h : Sound p)
    (hanswer : (p.getKey purpose).1 = .ok (some key)) :
    (p.getKey purpose).2.currentKeys.get? purpose = some (some key) := by
  rcases getKey_cases h purpose with ⟨hsame, hkept⟩ | ⟨key', hanswer', hnew⟩
  · rw [hsame]
    exact hkept key hanswer
  · rw [hanswer, Except.ok.injEq] at hanswer'
    rw [hnew, hanswer']
    exact Table.get?_put_self

theorem get?_getKey_ne (h : Sound p) {purpose' : PyStr} (hne : purpose' ≠ purpose) :
    (p.getKey purpose).2.currentKeys.get? purpose' = p.currentKeys.get? purpose' := by
  rcases getKey_cases h purpose with ⟨hsame, -⟩ | ⟨key, -, hnew⟩
  · rw [hsame]
  · rw [hnew]
    exact Table.get?_put_ne hne

theorem getKey_of_active {key : KeyMetadata} {row : KeyColumns}
    (hcached : p.currentKeys.get? purpose = some (some key))
    (hrow : p.db.key? key.keyId = some row) (hactive : row.status = .active) :
    p.getKey purpose = (.ok (some key), p) := by
  have hnewKey : p.db.getKey key.keyId = some ⟨key.keyId, row⟩ := by
    rw [Database.getKey, hrow]
    rfl
  rw [getKey, hcached]
  dsimp only
  rw [hnewKey]
  exact if_neg (by simp [hactive])

/-! ## Lookups between calls -/

theorem Sound.remember {key : Option KeyMetadata} (h : Sound p)
    (hkey : ∀ key₀, key = some key₀ → ∃ row, p.db.key? key₀.keyId = some row ∧
      Succeeds key₀.columns row ∧ (purpose ≠ [] → PyStr.ofString row.purpose = purpose)) :
    Sound { p with currentKeys := p.currentKeys.put purpose key } := by
  refine ⟨h.settled, h.ordered, fun purpose' key' hkey' ↦ ?_⟩
  dsimp only at hkey' ⊢
  rw [Table.get?_put] at hkey'
  split at hkey'
  case isTrue heq =>
    rw [heq]
    exact hkey key' (Option.some.inj hkey')
  case isFalse => exact h.cached purpose' key' hkey'

theorem Sound.getKey (h : Sound p) : Sound (p.getKey purpose).2 := by
  rw [ServiceKeyProvider.getKey]
  split
  · split
    · exact h
    · exact h
    case h_3 key keys hkeys =>
      obtain ⟨hmem, hpurpose⟩ := mem_of_listKeys hkeys List.mem_cons_self
      refine h.remember fun key₀ hkey₀ ↦ ?_
      cases hkey₀
      exact ⟨_, (Table.get?_eq_some_iff h.ordered.nodup).mpr hmem, .refl _, hpurpose⟩
  · exact h
  case h_3 key hcached =>
    obtain ⟨row, hrow, hsucceeds, hpurpose⟩ := h.cached purpose key hcached
    split
    · exact h
    case h_2 newKey hnewKey =>
      split
      case isTrue hrotated =>
        rw [Database.getKey, hrow, Option.map_some, Option.some.injEq] at hnewKey
        subst hnewKey
        obtain ⟨row', hrow', hpurpose', -⟩ := older_not_active h hrow hsucceeds hrotated
        refine h.remember fun key₀ hkey₀ ↦ ?_
        rw [Database.getKey, hrow', Option.map_some, Option.some.injEq] at hkey₀
        subst hkey₀
        exact ⟨row', hrow', .refl row', fun hne ↦ hpurpose' ▸ hpurpose hne⟩
      · exact h

section Manager

variable [Platform] [Ed25519] [JsonText] [PemText]

/-- A call on the manager, or a lookup. -/
inductive ServiceCall
  | manage (c : Call)
  | getKey (purpose : PyStr)

/-- What a call or a lookup returns or raises. -/
inductive ServiceAnswer
  | managed (r : Answer)
  | key (r : Except Exn (Option KeyMetadata))

variable (m : KeyManager)

/-- One call or lookup. -/
def step (p : ServiceKeyProvider) : ServiceCall → ServiceAnswer × ServiceKeyProvider
  | .manage c =>
    let r := Keys.step m p.db c
    (.managed r.1, { p with db := r.2 })
  | .getKey purpose =>
    let r := p.getKey purpose
    (.key r.1, r.2)

/-- The provider after a list of calls and lookups. -/
def after (p : ServiceKeyProvider) (calls : List ServiceCall) : ServiceKeyProvider :=
  Transducer.after (step m) p calls

/-- The calls on the manager are not restricted. -/
def CurrentAt (p : ServiceKeyProvider) : ServiceCall → Prop
  | .manage _ => True
  | .getKey purpose => p.Current purpose

variable {m}

theorem after_concat (p : ServiceKeyProvider) (calls : List ServiceCall) (c : ServiceCall) :
    after m p (calls ++ [c]) = (step m (after m p calls) c).2 := Transducer.after_concat

theorem after_manage (db : Database) (currentKeys : Table PyStr (Option KeyMetadata)) (c : Call) :
    after m ⟨db, currentKeys⟩ [.manage c] = ⟨Keys.after m db [c], currentKeys⟩ := rfl

theorem Sound.step (h : Sound p) (c : ServiceCall) : Sound (step m p c).2 := by
  cases c with
  | manage c =>
    have hchanges := step_changes (m := m) (c := c) h.settled
    refine ⟨step_settled h.settled, h.ordered.changes hchanges, fun purpose key hkey ↦ ?_⟩
    obtain ⟨row, hrow, hsucceeds, hpurpose⟩ := h.cached purpose key hkey
    obtain ⟨row', hrow', hsucceeds'⟩ := hchanges.succeeds hrow
    exact ⟨row', hrow', hsucceeds.trans hsucceeds', fun hne ↦ hsucceeds'.purpose ▸ hpurpose hne⟩
  | getKey purpose => exact h.getKey

theorem not_serves_of_revoked {key : KeyMetadata} {row : KeyColumns} (h : Sound p)
    (hcached : p.currentKeys.get? purpose = some (some key))
    (hrow : p.db.key? key.keyId = some row) (hstatus : row.status ≠ .revoked) (reason : PyStr)
    (revokedAt : String) (moment : Moment) : ¬Serves (ServiceKeyProvider.step m p
      (.manage (.revokeKey (.ofString key.keyId) reason revokedAt moment))).2 purpose := by
  intro hserves
  let c : ServiceCall := .manage (.revokeKey (.ofString key.keyId) reason revokedAt moment)
  have hcurrent := (serves_iff (h.step c)).mp hserves
  have hcached' : (step m p c).2.currentKeys.get? purpose = some (some key) := hcached
  rw [Current, hcached'] at hcurrent
  obtain ⟨⟨row₁, hrow₁, hactive⟩, -⟩ := hcurrent
  obtain ⟨row₂, hrow₂, hrevoked⟩ := Database.isRevoked_iff.mp
    (revokeKey_snd (m := m) reason revokedAt moment (bindText_eq_ok.mpr rfl) hrow hstatus).1
  have hrow₂' : (step m p c).2.db.key? key.keyId = some row₂ := hrow₂
  rw [hrow₂', Option.some.injEq] at hrow₁
  rw [hrow₁, hactive] at hrevoked
  cases hrevoked

theorem Sound.after (h : Sound p) (calls : List ServiceCall) : Sound (after m p calls) :=
  Transducer.after_invariant h fun _ c h ↦ h.step c

/-! ## What has been handed out -/

/-- A lookup of the purpose has returned the key. -/
def Served (m : KeyManager) (calls : List ServiceCall) (purpose : PyStr) (key : KeyMetadata) :
    Prop :=
  ∃ pre post, calls = pre ++ .getKey purpose :: post ∧
    ((ServiceKeyProvider.after m init pre).getKey purpose).1 = .ok (some key)

/-- What is remembered has been returned. -/
theorem served_of_cached {calls : List ServiceCall} {x : Option KeyMetadata}
    (h : (after m init calls).currentKeys.get? purpose = some x) :
    ∃ key, x = some key ∧ Served m calls purpose key := by
  have hsince := Transducer.exists_since_of_invariant (I := Sound)
    (Q := fun p ↦ p.currentKeys.get? purpose = some x)
    (E := fun p c ↦ c = .getKey purpose ∧ ∃ key, x = some key ∧
      (p.getKey purpose).1 = .ok (some key)) (K := fun _ _ ↦ True)
    sound_init (fun _ c hp ↦ hp.step (m := m) c) (fun p c hp hx ↦ ?_) (fun h ↦ by cases h) h
  · obtain ⟨pre, _, post, hsplit, ⟨rfl, key, hkey, hanswer⟩, -⟩ := hsince
    exact ⟨key, hkey, pre, post, hsplit, hanswer⟩
  · cases c with
    | manage c => exact .inr ⟨hx, trivial⟩
    | getKey purpose' =>
      by_cases hpurpose : purpose = purpose'
      · subst hpurpose
        rcases getKey_cases hp purpose with ⟨hsame, -⟩ | ⟨key, hanswer, hnew⟩
        · rw [step, hsame] at hx
          exact .inr ⟨hx, trivial⟩
        · rw [step, hnew] at hx
          have hkey : some (some key) = some x := Table.get?_put_self.symm.trans hx
          exact .inl ⟨rfl, key, (Option.some.inj hkey).symm, hanswer⟩
      · rw [step, get?_getKey_ne hp hpurpose] at hx
        exact .inr ⟨hx, trivial⟩

/-- While every lookup finds an active key, what is remembered stays. -/
theorem cached_of_current {key : KeyMetadata} {calls : List ServiceCall} (h : Sound p)
    (hcurrent : Transducer.Throughout (step m) CurrentAt p calls)
    (hcached : p.currentKeys.get? purpose = some (some key)) :
    (after m p calls).currentKeys.get? purpose = some (some key) := by
  refine (Transducer.after_of_throughout (Q := fun p ↦ Sound p ∧
    p.currentKeys.get? purpose = some (some key)) (fun p c hp hc ↦ ?_) ⟨h, hcached⟩ hcurrent).2
  refine ⟨hp.1.step c, ?_⟩
  cases c with
  | manage c => exact hp.2
  | getKey purpose' =>
    rw [step]
    by_cases hpurpose : purpose = purpose'
    · subst hpurpose
      rw [CurrentAt, Current, hp.2] at hc
      obtain ⟨⟨row, hrow, hactive⟩, -⟩ := hc
      rw [getKey_of_active hp.2 hrow hactive]
      exact hp.2
    · exact (get?_getKey_ne hp.1 hpurpose).trans hp.2

/-- The only key of a manager is looked up, and revoked, and looked up again. -/
theorem not_serves_throughout {c : Call} {k : String} {row : KeyColumns}
    (hkeys : (Keys.after m .empty [c]).tables.keys = [(k, row)]) (hactive : row.status = .active)
    (hne : row.purpose ≠ "") (reason : PyStr) (revokedAt : String) (moment : Moment) :
    ¬∀ pre purpose post, [.manage c, .getKey (.ofString row.purpose),
        .manage (.revokeKey (.ofString k) reason revokedAt moment),
        .getKey (.ofString row.purpose)] = pre ++ .getKey purpose :: post →
      Serves (after m init pre) purpose := by
  intro h
  let p : ServiceKeyProvider := ⟨Keys.after m .empty [c], []⟩
  let p' : ServiceKeyProvider := { p with
    currentKeys := p.currentKeys.put (.ofString row.purpose) (some ⟨k, row⟩) }
  have hlisted : p.db.listKeys (.ofString row.purpose) (some .active) = .ok [⟨k, row⟩] := by
    have hfilter : [(k, row)].filter (fun r ↦ r.2.purpose = row.purpose && r.2.status = .active) =
        [(k, row)] := by simp [hactive]
    rw [listKeys_of_text hne, hkeys, hfilter]
    rfl
  have hafter : after m init [.manage c, .getKey (.ofString row.purpose)] = p' := by
    rw [← List.singleton_append, after_concat, init, after_manage]
    exact congrArg Prod.snd (getKey_of_cons rfl hlisted)
  have hserves := h ([.manage c, .getKey (.ofString row.purpose)] ++
    [.manage (.revokeKey (.ofString k) reason revokedAt moment)]) (.ofString row.purpose) [] rfl
  rw [after_concat, hafter] at hserves
  have hrow : p'.db.key? k = some row := by
    rw [Database.key?, show p'.db.tables.keys = _ from hkeys]
    exact if_pos rfl
  have hsound : Sound p' := hafter ▸ sound_init.after _
  have hcached : p'.currentKeys.get? _ = some (some ⟨k, row⟩) := Table.get?_put_self
  exact not_serves_of_revoked hsound Table.get?_put_self hrow (by simp [hactive])
    reason revokedAt moment hserves

end Manager

end ServiceKeyProvider

open ServiceKeyProvider in
/-- **When service keys follow rotation and revocation.** Every lookup of a run returns an active
key of its purpose, or says rightly that there is none, exactly when each is made while the key that
is remembered is still active. -/
theorem serves_throughout_iff [Platform] [Ed25519] [JsonText] [PemText] (m : KeyManager)
    (calls : List ServiceCall) :
    (∀ pre purpose post, calls = pre ++ .getKey purpose :: post →
      (ServiceKeyProvider.after m .init pre).Serves purpose) ↔
    Transducer.Throughout (ServiceKeyProvider.step m) CurrentAt .init calls := by
  rw [Transducer.throughout_iff]
  constructor
  · intro h pre c post hsplit
    cases c with
    | manage c => trivial
    | getKey purpose => exact (serves_iff (sound_init.after pre)).mp (h pre purpose post hsplit)
  · intro h pre purpose post hsplit
    exact (serves_iff (sound_init.after pre)).mpr (h pre _ post hsplit)

open ServiceKeyProvider in
/-- For purposes that are texts this is so exactly when no key that has been handed out for a
purpose is rotated or revoked before a later lookup of the purpose. -/
theorem serves_throughout_iff_of_text [Platform] [Ed25519] [JsonText] [PemText] (m : KeyManager)
    {calls : List ServiceCall}
    (htext : ∀ purpose : PyStr, .getKey purpose ∈ calls →
      purpose ≠ [] ∧ purpose.text?.isSome = true) :
    (∀ pre purpose post, calls = pre ++ .getKey purpose :: post →
      (ServiceKeyProvider.after m .init pre).Serves purpose) ↔
    ∀ pre purpose post, calls = pre ++ .getKey purpose :: post → ∀ key, Served m pre purpose key →
      ∃ row, (ServiceKeyProvider.after m .init pre).db.key? key.keyId = some row ∧
        row.status = .active := by
  constructor
  · intro h pre purpose post hsplit key hserved
    have hcurrent := (serves_iff (sound_init.after pre)).mp (h pre purpose post hsplit)
    obtain ⟨pre', mid, rfl, hanswer⟩ := hserved
    have hall := (serves_throughout_iff m calls).mp h
    rw [hsplit, List.append_assoc, Transducer.throughout_append, List.cons_append,
      Transducer.Throughout] at hall
    have hmid := (Transducer.throughout_append.mp hall.2.2).1
    have hsound := sound_init.after (m := m) pre'
    -- between the two lookups the key stays in the cache, for each of them was right
    have hcached := cached_of_current hsound.getKey hmid (cached_of_getKey hsound hanswer)
    have hafter : ServiceKeyProvider.after m .init (pre' ++ .getKey purpose :: mid) =
        ServiceKeyProvider.after m
          ((ServiceKeyProvider.after m .init pre').getKey purpose).2 mid :=
      Transducer.after_append
    rw [hafter] at hcurrent ⊢
    rw [Current, hcached] at hcurrent
    exact hcurrent.1
  · intro h pre purpose post hsplit
    refine (serves_iff (sound_init.after pre)).mpr ?_
    obtain ⟨hne, hsome⟩ := htext purpose (hsplit ▸ List.mem_append_right _ List.mem_cons_self)
    rw [Current]
    split
    · exact ⟨hsome, fun hempty ↦ absurd hempty hne⟩
    case h_2 hcached =>
      obtain ⟨key, hkey, -⟩ := served_of_cached hcached
      cases hkey
    case h_3 key hcached =>
      obtain ⟨key', hkey, hserved⟩ := served_of_cached hcached
      cases hkey
      exact ⟨h pre purpose post hsplit key hserved, fun hempty ↦ absurd hempty hne⟩

/-! ## A key that was revoked after it had been looked up -/

namespace Sample

attribute [local instance] pythonPlatform Broker.Sample.keyedHash jsonText pemText

def signingPurpose : PyStr := .ofString "signing"

def signingColumns : KeyColumns :=
  ⟨"key", "2026-01-01T00:00:00Z", none, "signing", .active, none, none, "text"⟩

theorem keys_after_generating : (after manager .empty [generating]).tables.keys =
    [(capabilityKeyId newKey, signingColumns)] := by
  have hpurpose : bindText (.ofString "signing") = .ok "signing" := bindText_eq_ok.mpr rfl
  have hmetadata : JsonText.dumps (.dict ((none : Option (List (PyKey × PyValue))).getD [])) =
    .ok "text" := rfl
  have hstep : after manager .empty [generating] =
      (generateKey manager .empty (.ofString "signing") none newKey "2026-01-01T00:00:00Z" (.ok "")
        "2026-01-01T00:00:00Z" moment).2 := by
    rw [after, Transducer.after_cons, Transducer.after_nil, generating, step]
  have hage : ¬0 < manager.maxAgeSeconds := by decide
  have hfree : Database.empty.key? (capabilityKeyId newKey) = none := Table.get?_nil
  rw [hstep, generateKey_keys hage hmetadata hpurpose hfree]
  rfl

end Sample

/-- The provider hands out a key that has been revoked since it was looked up. -/
theorem not_serves_throughout_revoked :
    let _ := pythonPlatform
    let _ := Broker.Sample.keyedHash
    let _ := Sample.jsonText
    let _ := Sample.pemText
    ¬∀ pre purpose post, [.manage Sample.generating, .getKey Sample.signingPurpose,
        .manage (.revokeKey (.ofString (capabilityKeyId Sample.newKey)) (.ofString "revoked")
          "2026-01-01T00:00:01Z" Sample.moment), .getKey Sample.signingPurpose] =
        pre ++ .getKey purpose :: post →
      (ServiceKeyProvider.after Sample.manager .init pre).Serves purpose := by
  intro _ _ _ _
  exact ServiceKeyProvider.not_serves_throughout Sample.keys_after_generating rfl (by decide) _ _ _

end EventHorizon.Keys
