import EventHorizon.Decay.Transition

/-!
# The SQLite store of decay states

`SqliteDecayStateStore` keeps a state as the canonical bytes of its dictionary, beside their digest.
Here the payload is the canonical tree that the bytes spell. Reading checks the digest and builds
the state anew with `from_dict`; a state that was written is read back as it was, so the two stores
agree on every state the engine produces. `Store.Lawful` says what the results about runs need of a
store.
-/

namespace EventHorizon.Decay

open Policy (invalid keysOf strArray)

/-! ## Reading dictionaries -/

/-- `payload[name]`, once the names have been checked. -/
def payloadAt (fields : List (String × Json)) (name : String) : Json :=
  (Json.lookup fields name).getD .null

/-- `tuple(value)`. -/
def pyTuple : Json → Except Exn (List Json)
  | .arr xs => .ok xs
  | .str s => .ok (s.toList.map fun c ↦ .str (String.singleton c))
  | .obj fields => .ok (fields.map fun f ↦ .str f.1)
  | .null | .bool _ | .int _ | .float _ => .error ⟨.typeError, "object is not iterable"⟩

/-- A field that has to be an integer. -/
def readInt (fields : List (String × Json)) (name : String) : Except Exn ℤ :=
  match (payloadAt fields name).int? with
  | some n => .ok n
  | none => .error (invalid (name ++ " must be a non-negative bounded integer"))

/-- A field that has to be a string. -/
def readStr (fields : List (String × Json)) (name message : String) : Except Exn String :=
  match (payloadAt fields name).str? with
  | some s => .ok s
  | none => .error (invalid message)

/-- An item of `_strings`. -/
def readItem (name : String) (x : Json) : Except Exn String :=
  match x.str? with
  | some s => .ok s
  | none => .error (invalid (name ++ " items must be unique non-empty strings"))

/-- A field that has to be an array of strings. Items that are not strings do not sort, or are
refused after sorting. -/
def readNames (fields : List (String × Json)) (name : String) : Except Exn (List String) := do
  let xs ← pyTuple (payloadAt fields name)
  xs.mapM (readItem name)

/-- One entry of `argument_ranges`. -/
def readRange (row : String × Json) : Except Exn (String × ℤ × ℤ) := do
  let bounds ← pyTuple row.2
  match bounds with
  | [low, high] =>
    match low.int?, high.int? with
    | some low, some high => return (row.1, low, high)
    | _, _ => throw (invalid "argument range bounds are invalid")
  | _ => throw (invalid "argument range is malformed")

/-- The field `argument_ranges`. -/
def readRanges (fields : List (String × Json)) : Except Exn (Table String (ℤ × ℤ)) :=
  match (payloadAt fields "argument_ranges").fields? with
  | some rows => rows.mapM readRange
  | none => .error ⟨.attributeError, "object has no attribute 'items'"⟩

namespace DecayAuthority

/-- `DecayAuthority.FIELDS`. -/
def fieldNames : List String := ["expires_at_ms", "remaining_calls", "remaining_read_bytes",
  "remaining_write_bytes", "network_destinations", "tools", "actions", "resources",
  "argument_ranges", "maximum_parallelism", "maximum_effect_severity"]

/-- `DecayAuthority.from_dict`. -/
def fromDict (value : Json) : Except Exn DecayAuthority :=
  match value with
  | .obj fields => do
    raiseIf (Json.hasExactFields fields fieldNames = false)
      (invalid "decay authority fields are invalid")
    let networkDestinations ← readNames fields "network_destinations"
    let tools ← readNames fields "tools"
    let actions ← readNames fields "actions"
    let resources ← readNames fields "resources"
    let argumentRanges ← readRanges fields
    let expiresAtMs ← readInt fields "expires_at_ms"
    let remainingCalls ← readInt fields "remaining_calls"
    let remainingReadBytes ← readInt fields "remaining_read_bytes"
    let remainingWriteBytes ← readInt fields "remaining_write_bytes"
    let maximumParallelism ← readInt fields "maximum_parallelism"
    let maximumEffectSeverity ← readInt fields "maximum_effect_severity"
    postInit {
      expiresAtMs, remainingCalls, remainingReadBytes, remainingWriteBytes, networkDestinations,
      tools, actions, resources, argumentRanges, maximumParallelism, maximumEffectSeverity }
  | _ => throw (invalid "decay authority fields are invalid")

end DecayAuthority

namespace DecayState

/-- `DecayState.FIELDS`. -/
def fieldNames : List String := ["capability_id", "profile_digest", "max_observed_time_ms",
  "use_count", "read_bytes", "write_bytes", "denials", "risk_score", "canary_events",
  "trust_age_ms", "policy_age_ms", "environment_changes", "workload_restarts", "current_authority"]

/-- The counters of a dictionary. -/
def readCounters (fields : List (String × Json)) : Except Exn Counters := do
  let useCount ← readInt fields "use_count"
  let readBytes ← readInt fields "read_bytes"
  let writeBytes ← readInt fields "write_bytes"
  let denials ← readInt fields "denials"
  let riskScore ← readInt fields "risk_score"
  let canaryEvents ← readInt fields "canary_events"
  let trustAgeMs ← readInt fields "trust_age_ms"
  let policyAgeMs ← readInt fields "policy_age_ms"
  let environmentChanges ← readInt fields "environment_changes"
  let workloadRestarts ← readInt fields "workload_restarts"
  return { useCount, readBytes, writeBytes, denials, riskScore, canaryEvents, trustAgeMs,
           policyAgeMs, environmentChanges, workloadRestarts }

/-- `DecayState.from_dict`. -/
def fromDict (value : Json) : Except Exn DecayState :=
  match value with
  | .obj fields => do
    raiseIf (Json.hasExactFields fields fieldNames = false)
      (invalid "decay state fields are invalid")
    let maxObservedTimeMs ← readInt fields "max_observed_time_ms"
    let counters ← readCounters fields
    let currentAuthority ← DecayAuthority.fromDict (payloadAt fields "current_authority")
    let capabilityId ← readStr fields "capability_id" "decay state capability ID is invalid"
    let profileDigest ← readStr fields "profile_digest" "decay state profile digest is invalid"
    postInit { capabilityId, profileDigest, maxObservedTimeMs, counters, currentAuthority }
  | _ => throw (invalid "decay state fields are invalid")

end DecayState

/-! ## The store -/

section Store

variable [Platform]

/-- `strict_json_loads` with `require_canonical`, on the tree that the bytes spell. -/
def loadCanonical (payload : Json) : Except Exn Json := do
  let encoded ← canonical payload
  raiseIf (encoded ≠ payload)
    (⟨.canonicalizationError, "JSON input is not in canonical form"⟩ : Exn)
  return payload

/-- A `TypeError` or a `ValueError` while reading a row becomes a `DecayError`. -/
def asCorrupt {α : Type} : Except Exn α → Except Exn α
  | .ok a => .ok a
  | .error e =>
    if e.cls ∈ [.typeError, .valueError, .validationError, .canonicalizationError] then
      .error (denied "decay state is corrupt")
    else .error e

/-- A row is read. -/
def readRow (payload : Json) (payloadDigest : String) : Except Exn DecayState := do
  let value ← loadCanonical payload
  let valueDigest ← digest value
  raiseIf (valueDigest ≠ payloadDigest) (denied "decay state digest mismatch")
  DecayState.fromDict value

/-- `SqliteDecayStateStore`: the table from capability to payload and digest. -/
def sqlite : Store (Table String (Json × String)) where
  load s capabilityId :=
    match s.get? capabilityId with
    | none => .ok none
    | some (payload, payloadDigest) => do
      let state ← asCorrupt (readRow payload payloadDigest)
      raiseIf (state.capabilityId ≠ capabilityId) (denied "decay state capability mismatch")
      return some state
  save s capabilityId state := do
    let payload ← canonical state.toDict
    let payloadDigest ← digest state.toDict
    return s.put capabilityId (payload, payloadDigest)

/-! ## Reading back -/

section RoundTrip

variable {d : ℕ} {fields fields' : List (String × Json)} {name message : String}

theorem hasExactFields_canonical (h : canonicalValue d (.obj fields) = .ok (.obj fields')) :
    Json.hasExactFields fields' (fields.map Prod.fst) = true := by
  have hkeys := mem_keys_canonical h
  rw [Json.hasExactFields, Bool.and_eq_true, List.all_eq_true, List.all_eq_true]
  constructor
  · intro f hf
    exact decide_eq_true ((hkeys f.1).mp (List.mem_map_of_mem hf))
  · intro k hk
    exact decide_eq_true ((hkeys k).mpr hk)

/-- A field whose value is in canonical form is read as it was written. -/
theorem payloadAt_canonical {x : Json} (h : canonicalValue d (.obj fields) = .ok (.obj fields'))
    (hk : Json.lookup fields name = some x)
    (hx : ∀ x', canonicalValue (d + 1) x = .ok x' → x' = x) : payloadAt fields' name = x := by
  obtain ⟨x', hx', hok⟩ := lookup_canonical_eq_some h hk
  rw [payloadAt, hx', Option.getD_some, hx x' hok]

theorem readInt_canonical {n : ℤ} (h : canonicalValue d (.obj fields) = .ok (.obj fields'))
    (hk : Json.lookup fields name = some (.int n)) : readInt fields' name = .ok n := by
  rw [readInt, payloadAt_canonical h hk fun _ ↦ eq_of_canonicalValue_int]
  rfl

theorem readStr_canonical {s : String} (h : canonicalValue d (.obj fields) = .ok (.obj fields'))
    (hk : Json.lookup fields name = some (.str s)) : readStr fields' name message = .ok s := by
  rw [readStr, payloadAt_canonical h hk fun _ ↦ eq_of_canonicalValue_str]
  rfl

theorem eq_of_canonicalValue_strArray {xs : List String} {v : Json}
    (h : canonicalValue d (strArray xs) = .ok v) : v = strArray xs := by
  refine eq_of_canonicalValue_arr ?_ h
  rintro x hx x' hx'
  obtain ⟨s, -, rfl⟩ := List.mem_map.mp hx
  exact eq_of_canonicalValue_str hx'

theorem readNames_canonical {xs : List String}
    (h : canonicalValue d (.obj fields) = .ok (.obj fields'))
    (hk : Json.lookup fields name = some (strArray xs)) : readNames fields' name = .ok xs := by
  rw [readNames, payloadAt_canonical h hk fun _ ↦ eq_of_canonicalValue_strArray]
  refine bind_eq_ok.mpr ⟨xs.map .str, rfl, mapM_eq_ok.mpr ?_⟩
  rw [List.forall₂_map_left_iff]
  exact List.forall₂_same.mpr fun _ _ ↦ rfl

/-- The ranges of an authority, as `to_dict` writes them. -/
def rangesJson (m : Table String (ℤ × ℤ)) : List (String × Json) :=
  m.map fun row ↦ (row.1, .arr [.int row.2.1, .int row.2.2])

theorem readRanges_canonical {m : Table String (ℤ × ℤ)} (hm : (keysOf m).Pairwise (· < ·))
    (h : canonicalValue d (.obj fields) = .ok (.obj fields'))
    (hk : Json.lookup fields "argument_ranges" = some (.obj (rangesJson m))) :
    readRanges fields' = .ok m := by
  have hsorted : Json.Sorted (rangesJson m) := by
    refine List.pairwise_map.mpr ((List.pairwise_map.mp hm).imp fun hlt ↦ ?_)
    exact le_of_lt hlt
  have hranges : ∀ x', canonicalValue (d + 1) (.obj (rangesJson m)) = .ok x' →
      x' = .obj (rangesJson m) := by
    intro x'
    refine eq_of_canonicalValue_obj hsorted ?_
    intro f hf y hy
    obtain ⟨row, -, rfl⟩ := List.mem_map.mp hf
    refine eq_of_canonicalValue_arr ?_ hy
    simp only [List.mem_cons, List.not_mem_nil, or_false]
    rintro x (rfl | rfl) x' hx' <;> exact eq_of_canonicalValue_int hx'
  rw [readRanges, payloadAt_canonical h hk hranges]
  refine mapM_eq_ok.mpr ?_
  rw [rangesJson, List.forall₂_map_left_iff]
  exact List.forall₂_same.mpr fun _ _ ↦ rfl

/-- An authority is read back from the canonical form of its dictionary. -/
theorem DecayAuthority.fromDict_canonical {a : DecayAuthority} {v : Json} (ha : a.Valid)
    (h : canonicalValue d a.toDict = .ok v) : fromDict v = .ok a := by
  obtain ⟨-, -, fields', rfl, -⟩ := canonicalValue_obj_eq_ok.mp h
  refine raiseIf_bind_eq_ok.mpr ⟨?_, ?_⟩
  · rw [Bool.not_eq_false]
    exact hasExactFields_canonical h
  refine bind_eq_ok.mpr ⟨_, readNames_canonical h rfl, ?_⟩
  refine bind_eq_ok.mpr ⟨_, readNames_canonical h rfl, ?_⟩
  refine bind_eq_ok.mpr ⟨_, readNames_canonical h rfl, ?_⟩
  refine bind_eq_ok.mpr ⟨_, readNames_canonical h rfl, ?_⟩
  refine bind_eq_ok.mpr ⟨_, readRanges_canonical ha.argumentRanges.2.2 h rfl, ?_⟩
  refine bind_eq_ok.mpr ⟨_, readInt_canonical h rfl, ?_⟩
  refine bind_eq_ok.mpr ⟨_, readInt_canonical h rfl, ?_⟩
  refine bind_eq_ok.mpr ⟨_, readInt_canonical h rfl, ?_⟩
  refine bind_eq_ok.mpr ⟨_, readInt_canonical h rfl, ?_⟩
  refine bind_eq_ok.mpr ⟨_, readInt_canonical h rfl, ?_⟩
  refine bind_eq_ok.mpr ⟨_, readInt_canonical h rfl, ?_⟩
  exact (postInit_eq_ok ha.normal).mpr ⟨ha, rfl⟩

/-- A state is read back from the canonical form of its dictionary. -/
theorem DecayState.fromDict_canonical {s : DecayState} {v : Json} (hs : s.postInit = .ok s)
    (ha : s.currentAuthority.Valid) (h : canonicalValue d s.toDict = .ok v) :
    fromDict v = .ok s := by
  obtain ⟨-, -, fields', rfl, -⟩ := canonicalValue_obj_eq_ok.mp h
  obtain ⟨authority, hauthority, hcanonical⟩ :=
    lookup_canonical_eq_some (k := "current_authority") (x := s.currentAuthority.toDict) h rfl
  have hcounters : readCounters fields' = .ok s.counters := by
    refine bind_eq_ok.mpr ⟨_, readInt_canonical h rfl, ?_⟩
    refine bind_eq_ok.mpr ⟨_, readInt_canonical h rfl, ?_⟩
    refine bind_eq_ok.mpr ⟨_, readInt_canonical h rfl, ?_⟩
    refine bind_eq_ok.mpr ⟨_, readInt_canonical h rfl, ?_⟩
    refine bind_eq_ok.mpr ⟨_, readInt_canonical h rfl, ?_⟩
    refine bind_eq_ok.mpr ⟨_, readInt_canonical h rfl, ?_⟩
    refine bind_eq_ok.mpr ⟨_, readInt_canonical h rfl, ?_⟩
    refine bind_eq_ok.mpr ⟨_, readInt_canonical h rfl, ?_⟩
    refine bind_eq_ok.mpr ⟨_, readInt_canonical h rfl, ?_⟩
    exact bind_eq_ok.mpr ⟨_, readInt_canonical h rfl, rfl⟩
  refine raiseIf_bind_eq_ok.mpr ⟨?_, ?_⟩
  · rw [Bool.not_eq_false]
    exact hasExactFields_canonical h
  refine bind_eq_ok.mpr ⟨_, readInt_canonical h rfl, ?_⟩
  refine bind_eq_ok.mpr ⟨_, hcounters, ?_⟩
  rw [payloadAt, hauthority, Option.getD_some]
  refine bind_eq_ok.mpr ⟨_, DecayAuthority.fromDict_canonical ha hcanonical, ?_⟩
  refine bind_eq_ok.mpr ⟨_, readStr_canonical h rfl, ?_⟩
  exact bind_eq_ok.mpr ⟨_, readStr_canonical h rfl, hs⟩

/-! ## Lawful stores -/

/-- What the results about runs need of a store: a state that was saved is loaded again, whether a
state can be saved depends neither on the store nor on the profile it is of, and a state that cannot
be saved raises something other than a `DecayError`. -/
structure Store.Lawful {σ : Type} (store : Store σ) : Prop where
  load_save : ∀ {x y : σ} {capabilityId : String} {s : DecayState},
    s.capabilityId = capabilityId → s.postInit = .ok s → s.currentAuthority.Valid →
    store.save x capabilityId s = .ok y → store.load y capabilityId = .ok (some s)
  save_congr : ∀ {x y : σ} (x' : σ) {capabilityId profileDigest : String} {s : DecayState},
    isDigest profileDigest = true → store.save x capabilityId s = .ok y →
    ∃ y', store.save x' capabilityId { s with profileDigest := profileDigest } = .ok y'
  save_ne_error : ∀ {x : σ} {capabilityId : String} {s : DecayState} {e : Exn},
    e.cls = .decayError → store.save x capabilityId s ≠ .error e

omit [Platform] in
theorem inMemory_lawful : inMemory.Lawful where
  load_save _ _ _ h := by
    obtain rfl := Except.ok.inj h
    exact congrArg Except.ok (Table.get?_put_self ..)
  save_congr _ _ _ _ _ _ := ⟨_, rfl⟩
  save_ne_error _ := ok_ne_error

/-- The dictionary of a state is within the canonical limits whichever digest names its profile. -/
theorem canonicalizes_toDict_profileDigest {s : DecayState} {profileDigest : String}
    (hd : isDigest profileDigest = true) (h : Canonicalizes 0 s.toDict) :
    Canonicalizes 0 { s with profileDigest := profileDigest }.toDict := by
  have hstr := isCanonicalString_of_isDigest hd
  rw [DecayState.toDict, canonicalizes_obj] at h ⊢
  refine ⟨h.1, h.2.1, fun f hf ↦ ?_⟩
  rcases List.mem_cons.mp hf with rfl | hf
  · exact h.2.2 _ List.mem_cons_self
  rcases List.mem_cons.mp hf with rfl | hf
  · exact ⟨by decide, (h.2.2 _ (List.mem_cons_of_mem _ List.mem_cons_self)).2.1,
      canonicalizes_str.mpr ⟨by decide, hstr⟩⟩
  · exact h.2.2 f (List.mem_cons_of_mem _ (List.mem_cons_of_mem _ hf))

/-- The digest of a canonical form is that of the value. -/
theorem digest_canonical {v v' : Json} (h : canonical v = .ok v') : digest v' = digest v := by
  have hidem : canonical v' = .ok v' := canonicalValue_idem 0 v h
  rw [digest, digest, canonicalBytes, canonicalBytes, h, hidem]

theorem sqlite_lawful : sqlite.Lawful where
  load_save {x y capabilityId s} hid hs ha h := by
    obtain ⟨payload, hpayload, h⟩ := bind_eq_ok.mp h
    obtain ⟨payloadDigest, hdigest, h⟩ := bind_eq_ok.mp h
    have hread : readRow payload payloadDigest = .ok s := by
      have hidem : canonical payload = .ok payload := canonicalValue_idem 0 _ hpayload
      have hload : loadCanonical payload = .ok payload :=
        bind_eq_ok.mpr ⟨payload, hidem, raiseIf_bind_eq_ok.mpr ⟨fun h ↦ h rfl, rfl⟩⟩
      refine bind_eq_ok.mpr ⟨payload, hload, bind_eq_ok.mpr ⟨payloadDigest, ?_, ?_⟩⟩
      · rw [digest_canonical hpayload, hdigest]
      · exact raiseIf_bind_eq_ok.mpr
          ⟨fun h ↦ h rfl, DecayState.fromDict_canonical hs ha hpayload⟩
    have hget : y.get? capabilityId = some (payload, payloadDigest) := by
      rw [← Except.ok.inj h]
      exact Table.get?_put_self ..
    simp only [sqlite, hget, hread, asCorrupt]
    exact bind_eq_ok.mpr ⟨s, rfl, raiseIf_bind_eq_ok.mpr ⟨fun h ↦ h hid, rfl⟩⟩
  save_congr {x y} x' {capabilityId profileDigest s} hd h := by
    obtain ⟨payload, hpayload, h⟩ := bind_eq_ok.mp h
    have hcanonical := canonicalizes_toDict_profileDigest hd ⟨payload, hpayload⟩
    obtain ⟨payload', hpayload'⟩ := hcanonical
    obtain ⟨d, hd⟩ := exists_digest_eq_ok.mpr ⟨payload', hpayload'⟩
    exact ⟨_, bind_eq_ok.mpr ⟨payload', hpayload', bind_eq_ok.mpr ⟨d, hd, rfl⟩⟩⟩
  save_ne_error {x capabilityId s e} he := by
    have hne : e.cls ≠ .canonicalizationError := fun h ↦ by cases he.symm.trans h
    refine bind_ne_error (canonicalValue_ne_error hne 0 _) fun _ _ ↦ ?_
    exact bind_ne_error (digest_ne_error hne) fun _ _ ↦ ok_ne_error

end RoundTrip

end Store

end EventHorizon.Decay
