import EventHorizon.Canonical.Access
import EventHorizon.Canonical.RoundTrip
import EventHorizon.Policy.StaticCeiling

/-!
# Requests from payloads

`ActionRequest.from_dict` of `models.py` takes a payload that an agent has sent, checks it and
freezes its arguments; `canonical_payload` thaws them again, and `request_digest` is the digest of
that. The constructor checks the arguments as a value of their own, while the digest is of an object
that has them one level down.
-/

namespace EventHorizon

namespace PyValue

/-! ## Freezing and thawing -/

mutual

/-- `_freeze_json`. A mapping proxy is the mapping. -/
def freeze : PyValue → PyValue
  | .dict items => .dict (freezeFields items)
  | .list xs => .tuple (freezeItems xs)
  | .tuple xs => .tuple (freezeItems xs)
  | .none => .none
  | .bool b => .bool b
  | .int n => .int n
  | .float f => .float f
  | .str s => .str s
  | .other name => .other name

def freezeItems : List PyValue → List PyValue
  | [] => []
  | x :: xs => freeze x :: freezeItems xs

def freezeFields : List (PyKey × PyValue) → List (PyKey × PyValue)
  | [] => []
  | (k, x) :: xs => (k, freeze x) :: freezeFields xs

end

mutual

/-- `_thaw_json`. -/
def thaw : PyValue → PyValue
  | .dict items => .dict (thawFields items)
  | .tuple xs => .list (thawItems xs)
  | .list xs => .list xs
  | .none => .none
  | .bool b => .bool b
  | .int n => .int n
  | .float f => .float f
  | .str s => .str s
  | .other name => .other name

def thawItems : List PyValue → List PyValue
  | [] => []
  | x :: xs => thaw x :: thawItems xs

def thawFields : List (PyKey × PyValue) → List (PyKey × PyValue)
  | [] => []
  | (k, x) :: xs => (k, thaw x) :: thawFields xs

end

mutual

/-- `_validate_security_json` finds a `float`. -/
def hasFloat : PyValue → Bool
  | .float _ => true
  | .dict items => hasFloatFields items
  | .list xs => hasFloatItems xs
  | .tuple xs => hasFloatItems xs
  | .none | .bool _ | .int _ | .str _ | .other _ => false

def hasFloatItems : List PyValue → Bool
  | [] => false
  | x :: xs => hasFloat x || hasFloatItems xs

def hasFloatFields : List (PyKey × PyValue) → Bool
  | [] => false
  | (_, x) :: xs => hasFloat x || hasFloatFields xs

end

mutual

/-- How many levels of values there are below a value. -/
def height : PyValue → ℕ
  | .list xs => heightItems xs
  | .tuple xs => heightItems xs
  | .dict items => heightFields items
  | .none | .bool _ | .int _ | .float _ | .str _ | .other _ => 0

def heightItems : List PyValue → ℕ
  | [] => 0
  | x :: xs => max (height x + 1) (heightItems xs)

def heightFields : List (PyKey × PyValue) → ℕ
  | [] => 0
  | (_, x) :: xs => max (height x + 1) (heightFields xs)

end

/-! ### Thawing what was frozen -/

theorem freezeItems_eq_map (xs : List PyValue) : freezeItems xs = xs.map freeze := by
  induction xs with
  | nil => rfl
  | cons x xs ih => rw [freezeItems, ih, List.map_cons]

theorem freezeFields_eq_map (items : List (PyKey × PyValue)) :
    freezeFields items = items.map fun f ↦ (f.1, freeze f.2) := by
  induction items with
  | nil => rfl
  | cons f items ih => rw [freezeFields, ih, List.map_cons]

theorem thawItems_eq_map (xs : List PyValue) : thawItems xs = xs.map thaw := by
  induction xs with
  | nil => rfl
  | cons x xs ih => rw [thawItems, ih, List.map_cons]

theorem thawFields_eq_map (items : List (PyKey × PyValue)) :
    thawFields items = items.map fun f ↦ (f.1, thaw f.2) := by
  induction items with
  | nil => rfl
  | cons f items ih => rw [thawFields, ih, List.map_cons]

/-- The value as it is after freezing and thawing. -/
def thawed (v : PyValue) : PyValue := v.freeze.thaw

theorem thawed_list (xs : List PyValue) : (PyValue.list xs).thawed = .list (xs.map thawed) := by
  rw [thawed, freeze, thaw, freezeItems_eq_map, thawItems_eq_map, List.map_map]
  rfl

theorem thawed_tuple (xs : List PyValue) : (PyValue.tuple xs).thawed = .list (xs.map thawed) :=
  thawed_list xs

theorem thawed_dict (items : List (PyKey × PyValue)) :
    (PyValue.dict items).thawed = .dict (items.map fun f ↦ (f.1, f.2.thawed)) := by
  rw [thawed, freeze, thaw, freezeFields_eq_map, thawFields_eq_map, List.map_map]
  rfl

/-- Freezing again gives the same value. -/
theorem freeze_thawed (v : PyValue) : v.thawed.freeze = v.freeze := by
  induction v using PyValue.induction with
  | none | bool | int | float | str | other => rfl
  | list xs ih | tuple xs ih =>
    first | rw [thawed_list] | rw [thawed_tuple]
    rw [freeze, freeze, freezeItems_eq_map, freezeItems_eq_map, List.map_map]
    exact congrArg PyValue.tuple (List.map_congr_left ih)
  | dict items ih =>
    rw [thawed_dict, freeze, freeze, freezeFields_eq_map, freezeFields_eq_map, List.map_map]
    exact congrArg PyValue.dict (List.map_congr_left fun f hf ↦ Prod.ext rfl (ih f hf))

theorem listed_thawed (v : PyValue) : v.thawed.listed = v.listed := by
  induction v using PyValue.induction with
  | none | bool | int | float | str | other => rfl
  | list xs ih | tuple xs ih =>
    first | rw [thawed_list] | rw [thawed_tuple]
    rw [listed, listed, listedItems_eq_map, listedItems_eq_map, List.map_map]
    exact congrArg PyValue.list (List.map_congr_left ih)
  | dict items ih =>
    rw [thawed_dict, listed, listed, listedFields_eq_map, listedFields_eq_map, List.map_map]
    exact congrArg (fun items ↦ PyValue.dict (sortItems items))
      (List.map_congr_left fun f hf ↦ Prod.ext rfl (ih f hf))

/-- Thawing only makes lists of tuples. -/
theorem listed_thaw (v : PyValue) : v.thaw.listed = v.listed := by
  induction v using PyValue.induction with
  | none | bool | int | float | str | other | list => rfl
  | tuple xs ih =>
    rw [thaw, listed, listed, listedItems_eq_map, listedItems_eq_map, thawItems_eq_map,
      List.map_map]
    exact congrArg PyValue.list (List.map_congr_left ih)
  | dict items ih =>
    rw [thaw, listed, listed, listedFields_eq_map, listedFields_eq_map, thawFields_eq_map,
      List.map_map]
    exact congrArg (fun items ↦ PyValue.dict (sortItems items))
      (List.map_congr_left fun f hf ↦ Prod.ext rfl (ih f hf))

theorem canonicalValue_thawed [Platform] (d : ℕ) (v : PyValue) :
    v.thawed.canonicalValue d = v.canonicalValue d := by
  rw [← canonicalValue_listed, listed_thawed, canonicalValue_listed]

theorem distinct_thawed (v : PyValue) : v.Distinct → v.thawed.Distinct := by
  induction v using PyValue.induction with
  | none | bool | int | float | str | other => exact fun _ ↦ trivial
  | list xs ih | tuple xs ih =>
    intro h
    first | rw [thawed_list] | rw [thawed_tuple]
    refine distinctItems_iff.mpr fun y hy ↦ ?_
    obtain ⟨x, hx, rfl⟩ := List.mem_map.mp hy
    exact ih x hx (distinctItems_iff.mp h x hx)
  | dict items ih =>
    rintro ⟨hkeys, h⟩
    rw [thawed_dict]
    refine ⟨by rwa [List.map_map], distinctFields_iff.mpr fun g hg ↦ ?_⟩
    obtain ⟨f, hf, rfl⟩ := List.mem_map.mp hg
    exact ih f hf (distinctFields_iff.mp h f hf)

theorem hasFloatItems_eq_any (xs : List PyValue) : hasFloatItems xs = xs.any hasFloat := by
  induction xs with
  | nil => rfl
  | cons x xs ih => rw [hasFloatItems, ih, List.any_cons]

theorem hasFloatFields_eq_any (items : List (PyKey × PyValue)) :
    hasFloatFields items = items.any fun f ↦ f.2.hasFloat := by
  induction items with
  | nil => rfl
  | cons f items ih => rw [hasFloatFields, ih, List.any_cons]

theorem hasFloat_thawed (v : PyValue) : v.thawed.hasFloat = v.hasFloat := by
  induction v using PyValue.induction with
  | none | bool | int | float | str | other => rfl
  | list xs ih | tuple xs ih =>
    first | rw [thawed_list] | rw [thawed_tuple]
    rw [hasFloat, hasFloat, hasFloatItems_eq_any, hasFloatItems_eq_any, List.any_map,
      Bool.eq_iff_iff, List.any_eq_true, List.any_eq_true]
    refine exists_congr fun x ↦ and_congr_right fun hx ↦ ?_
    rw [Function.comp_apply, ih x hx]
  | dict items ih =>
    rw [thawed_dict, hasFloat, hasFloat, hasFloatFields_eq_any, hasFloatFields_eq_any,
      List.any_map, Bool.eq_iff_iff, List.any_eq_true, List.any_eq_true]
    refine exists_congr fun f ↦ and_congr_right fun hf ↦ ?_
    rw [Function.comp_apply, ih f hf]

theorem floatFree_of_hasFloat (v : PyValue) : v.hasFloat = false → v.FloatFree := by
  induction v using PyValue.induction with
  | none | bool | int | str | other => exact fun _ ↦ trivial
  | float f =>
    intro h
    cases h
  | list xs ih | tuple xs ih =>
    intro h
    rw [hasFloat, hasFloatItems_eq_any, List.any_eq_false] at h
    exact floatsItems_iff.mpr fun x hx ↦ ih x hx (Bool.eq_false_iff.mpr (h x hx))
  | dict items ih =>
    intro h
    rw [hasFloat, hasFloatFields_eq_any, List.any_eq_false] at h
    exact floatsFields_iff.mpr fun f hf ↦ ih f hf (Bool.eq_false_iff.mpr (h f hf))

/-! ### Heights -/

theorem heightItems_le_iff {xs : List PyValue} {n : ℕ} :
    heightItems xs ≤ n ↔ ∀ x ∈ xs, height x + 1 ≤ n := by
  induction xs with
  | nil => simp [heightItems]
  | cons x xs ih => simp [heightItems, ih]

theorem heightFields_le_iff {items : List (PyKey × PyValue)} {n : ℕ} :
    heightFields items ≤ n ↔ ∀ f ∈ items, height f.2 + 1 ≤ n := by
  induction items with
  | nil => simp [heightFields]
  | cons f items ih => simp [heightFields, ih]

theorem height_listed (v : PyValue) : ∀ n, v.listed.height ≤ n ↔ v.height ≤ n := by
  induction v using PyValue.induction with
  | none | bool | int | float | str | other => exact fun n ↦ Iff.rfl
  | list xs ih | tuple xs ih =>
    intro n
    rw [listed, height, height, heightItems_le_iff, heightItems_le_iff, listedItems_eq_map,
      List.forall_mem_map]
    refine forall₂_congr fun x hx ↦ ?_
    cases n with
    | zero => simp
    | succ n => simpa using ih x hx n
  | dict items ih =>
    intro n
    rw [listed, height, height, heightFields_le_iff, heightFields_le_iff, listedFields_eq_map]
    simp only [mem_sortItems, List.forall_mem_map]
    refine forall₂_congr fun f hf ↦ ?_
    cases n with
    | zero => simp
    | succ n => simpa using ih f hf n

theorem height_ofJson (v : Json) : ∀ n, (ofJson v).height ≤ n ↔ v.height ≤ n := by
  induction v using Json.induction with
  | null | bool | int | float | str => exact fun n ↦ Iff.rfl
  | arr xs ih =>
    intro n
    rw [ofJson, height, Json.height, heightItems_le_iff, Json.heightItems_le_iff, ofItems_eq_map,
      List.forall_mem_map]
    refine forall₂_congr fun x hx ↦ ?_
    cases n with
    | zero => simp
    | succ n => simpa using ih x hx n
  | obj fields ih =>
    intro n
    rw [ofJson, height, Json.height, heightFields_le_iff, Json.heightFields_le_iff,
      ofFields_eq_map, List.forall_mem_map]
    refine forall₂_congr fun f hf ↦ ?_
    cases n with
    | zero => simp
    | succ n => simpa using ih f hf n

/-- A value and its canonical form have the same height. -/
theorem height_of_canonicalValue [Platform] {d : ℕ} {v : PyValue} {c : Json}
    (h : v.canonicalValue d = .ok c) : c.height = v.height := by
  have hle : ∀ n, c.height ≤ n ↔ v.height ≤ n := by
    intro n
    rw [← height_ofJson, ← listed_of_canonicalValue v d c h, height_listed]
  exact le_antisymm ((hle _).mpr le_rfl) ((hle _).mp le_rfl)

end PyValue

namespace Policy

/-! ## Requests -/

/-- A request as `from_dict` makes it, with frozen arguments. -/
structure PyRequest where
  requestId : String
  sessionId : String
  agentId : String
  operation : String
  resourceId : String
  executorId : String
  arguments : PyValue
  purpose : String

/-- `ActionRequest.ALLOWED_FIELDS`. -/
def requestFieldNames : List String := [
  "request_id", "session_id", "agent_id", "operation", "resource_id", "executor_id", "arguments",
  "purpose"]

/-- A list of names in a message. -/
def reprNames (names : List String) : String :=
  "[" ++ ", ".intercalate (names.map fun name ↦ "'" ++ name ++ "'") ++ "]"

section Requests

variable [Platform]

/-- A `CanonicalizationError` raised again as a validation error; others pass. -/
def asValidation {α : Type} (label : String) : Except Exn α → Except Exn α
  | .ok a => .ok a
  | .error e =>
    if e.cls = .canonicalizationError then .error (invalid (label ++ e.message)) else .error e

/-- `_validated_text` on any value. -/
def requestText (value : PyValue) (name : String) : Except Exn String :=
  match value with
  | .str s =>
    match s.text? with
    | some t => (validatedText t name).map fun _ ↦ t
    | none => .error s.encodeError
  | _ => .error (invalid (name ++ " must be a non-empty string <= 256 UTF-8 bytes"))

/-- The check of the purpose: it may be empty. -/
def purposeText (value : PyValue) : Except Exn String :=
  match value with
  | .str s =>
    match s.text? with
    | some t =>
      (raiseIf (1024 < t.utf8ByteSize)
        (invalid "purpose must be a string <= 1024 UTF-8 bytes")).map fun _ ↦ t
    | none => .error s.encodeError
  | _ => .error (invalid "purpose must be a string <= 1024 UTF-8 bytes")

/-- `ActionRequest.from_dict`, with the constructor. -/
def PyRequest.fromDict (payload : PyValue) : Except Exn PyRequest :=
  match payload with
  | .dict items => do
    let unknown := (items.filter fun f ↦
      f.1 ∉ requestFieldNames.map fun name ↦ PyKey.str (.ofString name)).map fun f ↦
        (f.1.str?.map PyStr.display).getD ""
    let missing := requestFieldNames.filter fun name ↦
      PyKey.str (.ofString name) ∉ items.map Prod.fst
    raiseIf (unknown ≠ [] ∨ missing ≠ []) (invalid ("invalid request fields; unknown=" ++
      reprNames (sortUnique unknown) ++ ", missing=" ++ reprNames (sortUnique missing)))
    let arguments := PyValue.item items "arguments"
    raiseIf (arguments.isDict = false) (invalid "arguments must be an object")
    let requestId ← requestText (PyValue.item items "request_id") "request_id"
    let sessionId ← requestText (PyValue.item items "session_id") "session_id"
    let agentId ← requestText (PyValue.item items "agent_id") "agent_id"
    let operation ← requestText (PyValue.item items "operation") "operation"
    let resourceId ← requestText (PyValue.item items "resource_id") "resource_id"
    let executorId ← requestText (PyValue.item items "executor_id") "executor_id"
    let purpose ← purposeText (PyValue.item items "purpose")
    let _ ← asValidation "request is not canonical: " (canonicalBytes (.str purpose))
    let _ ← asValidation "request is not canonical: " arguments.canonicalBytes
    raiseIf (arguments.hasFloat = true) (invalid "floating-point request values are not permitted")
    return ⟨requestId, sessionId, agentId, operation, resourceId, executorId, arguments.freeze,
      purpose⟩
  | _ => .error (invalid "request must be an object")

/-- The items of `canonical_payload`. -/
def PyRequest.payloadItems (r : PyRequest) : List (PyKey × PyValue) := [
  (.str (.ofString "request_id"), .str (.ofString r.requestId)),
  (.str (.ofString "session_id"), .str (.ofString r.sessionId)),
  (.str (.ofString "agent_id"), .str (.ofString r.agentId)),
  (.str (.ofString "operation"), .str (.ofString r.operation)),
  (.str (.ofString "resource_id"), .str (.ofString r.resourceId)),
  (.str (.ofString "executor_id"), .str (.ofString r.executorId)),
  (.str (.ofString "arguments"), r.arguments.thaw),
  (.str (.ofString "purpose"), .str (.ofString r.purpose))]

/-- `canonical_payload`. -/
def PyRequest.canonicalPayload (r : PyRequest) : PyValue := .dict r.payloadItems

/-! ## What `from_dict` accepts -/

omit [Platform] in
theorem asValidation_bind_eq_ok {α β : Type} {label : String} {x : Except Exn α}
    {f : α → Except Exn β} {b : β} :
    (asValidation label x >>= f) = .ok b ↔ ∃ a, x = .ok a ∧ f a = .ok b := by
  rw [bind_eq_ok]
  cases x with
  | error e =>
    rw [asValidation]
    split <;> simp
  | ok a => simp [asValidation]

theorem requestText_eq_ok {value : PyValue} {name t : String} :
    requestText value name = .ok t ↔ value = .str (.ofString t) ∧ IsText 256 t := by
  constructor
  · intro h
    unfold requestText at h
    split at h
    case h_1 s =>
      split at h
      case h_1 t' ht =>
        obtain ⟨⟨⟩, hvalid, rfl⟩ := map_eq_ok.mp h
        exact ⟨by rw [PyStr.eq_ofString_of_text? ht], validatedText_eq_ok.mp hvalid⟩
      case h_2 => cases h
    case h_2 => cases h
  · rintro ⟨rfl, ht⟩
    rw [requestText]
    simp only [PyStr.text?_ofString]
    exact map_eq_ok.mpr ⟨(), validatedText_eq_ok.mpr ht, rfl⟩

omit [Platform] in
theorem purposeText_eq_ok {value : PyValue} {t : String} :
    purposeText value = .ok t ↔ value = .str (.ofString t) ∧ t.utf8ByteSize ≤ 1024 := by
  constructor
  · intro h
    unfold purposeText at h
    split at h
    case h_1 s =>
      split at h
      case h_1 t' ht =>
        obtain ⟨⟨⟩, hlen, rfl⟩ := map_eq_ok.mp h
        exact ⟨by rw [PyStr.eq_ofString_of_text? ht], not_lt.mp (raiseIf_eq_ok.mp hlen)⟩
      case h_2 => cases h
    case h_2 => cases h
  · rintro ⟨rfl, ht⟩
    rw [purposeText]
    simp only [PyStr.text?_ofString]
    exact map_eq_ok.mpr ⟨(), raiseIf_eq_ok.mpr (not_lt.mpr ht), rfl⟩

/-- What the constructor has checked of a request and of the arguments it was given. -/
structure PyRequest.Checked (r : PyRequest) (arguments : PyValue) : Prop where
  requestId : IsText 256 r.requestId
  sessionId : IsText 256 r.sessionId
  agentId : IsText 256 r.agentId
  operation : IsText 256 r.operation
  resourceId : IsText 256 r.resourceId
  executorId : IsText 256 r.executorId
  purpose : r.purpose.utf8ByteSize ≤ 1024 ∧ IsCanonicalString r.purpose
  mapping : arguments.isDict = true
  canonical : ∃ c, arguments.canonicalValue 0 = .ok c
  noFloat : arguments.hasFloat = false
  frozen : r.arguments = arguments.freeze

/-- The items of a payload are the fields of the request. -/
structure PyRequest.Carries (items : List (PyKey × PyValue)) (r : PyRequest) : Prop where
  exact : (∀ f ∈ items, f.1 ∈ requestFieldNames.map fun name ↦ PyKey.str (.ofString name)) ∧
    ∀ name ∈ requestFieldNames, PyKey.str (.ofString name) ∈ items.map Prod.fst
  requestId : PyValue.item items "request_id" = .str (.ofString r.requestId)
  sessionId : PyValue.item items "session_id" = .str (.ofString r.sessionId)
  agentId : PyValue.item items "agent_id" = .str (.ofString r.agentId)
  operation : PyValue.item items "operation" = .str (.ofString r.operation)
  resourceId : PyValue.item items "resource_id" = .str (.ofString r.resourceId)
  executorId : PyValue.item items "executor_id" = .str (.ofString r.executorId)
  purpose : PyValue.item items "purpose" = .str (.ofString r.purpose)

theorem PyRequest.fromDict_eq_ok {payload : PyValue} {r : PyRequest} :
    PyRequest.fromDict payload = .ok r ↔ ∃ items, payload = .dict items ∧
      PyRequest.Carries items r ∧ r.Checked (PyValue.item items "arguments") := by
  -- no field is unknown and none is missing
  have hexact : ∀ items : List (PyKey × PyValue),
      ¬(((items.filter fun f ↦ f.1 ∉ requestFieldNames.map fun name ↦
          PyKey.str (.ofString name)).map fun f ↦ (f.1.str?.map PyStr.display).getD "") ≠ [] ∨
        (requestFieldNames.filter fun name ↦
          PyKey.str (.ofString name) ∉ items.map Prod.fst) ≠ []) ↔
      (∀ f ∈ items, f.1 ∈ requestFieldNames.map fun name ↦ PyKey.str (.ofString name)) ∧
        ∀ name ∈ requestFieldNames, PyKey.str (.ofString name) ∈ items.map Prod.fst := by
    intro items
    rw [not_or, not_not, not_not, List.map_eq_nil_iff, List.filter_eq_nil_iff,
      List.filter_eq_nil_iff]
    simp only [decide_eq_true_eq, not_not]
  constructor
  · intro h
    unfold PyRequest.fromDict at h
    split at h
    case h_2 => cases h
    case h_1 items =>
    obtain ⟨hfields, h⟩ := raiseIf_bind_eq_ok.mp h
    obtain ⟨hmapping, h⟩ := raiseIf_bind_eq_ok.mp h
    obtain ⟨t1, h1, h⟩ := bind_eq_ok.mp h
    obtain ⟨t2, h2, h⟩ := bind_eq_ok.mp h
    obtain ⟨t3, h3, h⟩ := bind_eq_ok.mp h
    obtain ⟨t4, h4, h⟩ := bind_eq_ok.mp h
    obtain ⟨t5, h5, h⟩ := bind_eq_ok.mp h
    obtain ⟨t6, h6, h⟩ := bind_eq_ok.mp h
    obtain ⟨t7, h7, h⟩ := bind_eq_ok.mp h
    obtain ⟨b, hpurpose, h⟩ := asValidation_bind_eq_ok.mp h
    obtain ⟨b', harguments, h⟩ := asValidation_bind_eq_ok.mp h
    obtain ⟨hfloat, h⟩ := raiseIf_bind_eq_ok.mp h
    cases h
    rw [requestText_eq_ok] at h1 h2 h3 h4 h5 h6
    rw [purposeText_eq_ok] at h7
    obtain ⟨c, hc, -⟩ := map_eq_ok.mp harguments
    refine ⟨items, rfl, ⟨(hexact items).mp hfields, h1.1, h2.1, h3.1, h4.1, h5.1, h6.1, h7.1⟩,
      ⟨h1.2, h2.2, h3.2, h4.2, h5.2, h6.2, ⟨h7.2, ?_⟩, ?_, ⟨c, hc⟩, ?_, rfl⟩⟩
    · exact (canonicalizes_str.mp (canonicalBytes_eq_ok.mp ⟨b, hpurpose⟩)).2
    · simpa using hmapping
    · simpa using hfloat
  · rintro ⟨items, rfl, hcarries, hchecked⟩
    obtain ⟨c, hc⟩ := hchecked.canonical
    obtain ⟨b, hb⟩ := canonicalBytes_eq_ok.mpr
      (canonicalizes_str.mpr ⟨Nat.zero_le _, hchecked.purpose.2⟩)
    rw [PyRequest.fromDict]
    refine raiseIf_bind_eq_ok.mpr ⟨(hexact items).mpr hcarries.exact, ?_⟩
    refine raiseIf_bind_eq_ok.mpr ⟨by simp [hchecked.mapping], ?_⟩
    refine bind_eq_ok.mpr ⟨_, requestText_eq_ok.mpr ⟨hcarries.requestId, hchecked.requestId⟩, ?_⟩
    refine bind_eq_ok.mpr ⟨_, requestText_eq_ok.mpr ⟨hcarries.sessionId, hchecked.sessionId⟩, ?_⟩
    refine bind_eq_ok.mpr ⟨_, requestText_eq_ok.mpr ⟨hcarries.agentId, hchecked.agentId⟩, ?_⟩
    refine bind_eq_ok.mpr ⟨_, requestText_eq_ok.mpr ⟨hcarries.operation, hchecked.operation⟩, ?_⟩
    refine bind_eq_ok.mpr
      ⟨_, requestText_eq_ok.mpr ⟨hcarries.resourceId, hchecked.resourceId⟩, ?_⟩
    refine bind_eq_ok.mpr
      ⟨_, requestText_eq_ok.mpr ⟨hcarries.executorId, hchecked.executorId⟩, ?_⟩
    refine bind_eq_ok.mpr ⟨_, purposeText_eq_ok.mpr ⟨hcarries.purpose, hchecked.purpose.1⟩, ?_⟩
    refine asValidation_bind_eq_ok.mpr ⟨b, hb, ?_⟩
    refine asValidation_bind_eq_ok.mpr ⟨spell c, map_eq_ok.mpr ⟨c, hc, rfl⟩, ?_⟩
    refine raiseIf_bind_eq_ok.mpr ⟨by simp [hchecked.noFloat], ?_⟩
    rw [← hchecked.frozen]
    rfl

/-! ## The request of the policy -/

omit [Platform] in
theorem hasFloat_of_readable (c : Json) : Readable (fun _ ↦ False) c → hasFloat c = false := by
  induction c using Json.induction with
  | null | bool | int | str => exact fun _ ↦ rfl
  | float f => exact fun h ↦ h.elim
  | arr xs ih =>
    intro h
    have hall : ∀ x ∈ xs, hasFloat x = false := fun x hx ↦
      ih x hx (readableItems_iff.mp h x hx)
    rw [hasFloat]
    clear ih h
    induction xs with
    | nil => rfl
    | cons x xs ih =>
      rw [List.forall_mem_cons] at hall
      rw [hasFloatItems, hall.1, ih hall.2]
      rfl
  | obj fields ih =>
    intro h
    have hall : ∀ f ∈ fields, hasFloat f.2 = false := fun f hf ↦
      ih f hf (readableFields_iff.mp h.2 f hf)
    rw [hasFloat]
    clear ih h
    induction fields with
    | nil => rfl
    | cons f fields ih =>
      rw [List.forall_mem_cons] at hall
      rw [hasFloatFields, hall.1, ih hall.2]
      rfl

/-- The arguments of an accepted payload, as an object of JSON. -/
theorem PyRequest.Checked.exists_fields {r : PyRequest} {arguments : PyValue}
    (h : r.Checked arguments) (hdist : arguments.Distinct) :
    ∃ fields, arguments.canonicalValue 0 = .ok (.obj fields) ∧
      Readable (fun _ ↦ False) (.obj fields) := by
  obtain ⟨c, hc⟩ := h.canonical
  have hread : Readable (fun _ ↦ False) c := PyValue.readable_of_canonicalValue arguments hdist
    (PyValue.floatFree_of_hasFloat arguments h.noFloat) hc
  have hobj : ∃ fields, c = .obj fields := by
    have hmapping := h.mapping
    cases arguments with
    | dict items =>
      rw [PyValue.canonicalValue] at hc
      split at hc
      · cases hc
      split at hc
      · cases hc
      split at hc
      · cases hc
      obtain ⟨fields, -, rfl⟩ := map_eq_ok.mp hc
      exact ⟨fields, rfl⟩
    | _ => cases hmapping
  obtain ⟨fields, rfl⟩ := hobj
  exact ⟨fields, hc, hread⟩

/-- An accepted payload is a request of the policy, with the same canonical payload. -/
theorem PyRequest.Checked.exists_request {r : PyRequest} {arguments : PyValue}
    (h : r.Checked arguments) (hdist : arguments.Distinct) :
    ∃ q : ActionRequest, (Json.obj q.arguments).height = arguments.height ∧
      ∀ d, r.canonicalPayload.canonicalValue d = canonicalValue d q.canonicalPayload := by
  obtain ⟨fields, hfields, hread⟩ := h.exists_fields hdist
  have hlisted := PyValue.listed_of_canonicalValue arguments 0 _ hfields
  have hself : (PyValue.ofJson (.obj fields)).listed = .ofJson (.obj fields) := by
    refine PyValue.listed_of_canonicalValue _ 0 _ ?_
    rw [← hlisted, PyValue.canonicalValue_listed, hfields]
  have hcanon : canonicalValue 0 (.obj fields) = .ok (.obj fields) := by
    rw [← PyValue.canonicalValue_ofJson, ← hlisted, PyValue.canonicalValue_listed, hfields]
  obtain ⟨b, hb⟩ := canonicalBytes_eq_ok.mpr
    (canonicalizes_str.mpr ⟨Nat.zero_le _, h.purpose.2⟩)
  have hvalid : RequestFields.postInit ⟨r.requestId, r.sessionId, r.agentId, r.operation,
      r.resourceId, r.executorId, fields, r.purpose⟩ = .ok () := by
    rw [RequestFields.postInit]
    refine bind_eq_ok.mpr ⟨(), validatedText_eq_ok.mpr h.requestId, ?_⟩
    refine bind_eq_ok.mpr ⟨(), validatedText_eq_ok.mpr h.sessionId, ?_⟩
    refine bind_eq_ok.mpr ⟨(), validatedText_eq_ok.mpr h.agentId, ?_⟩
    refine bind_eq_ok.mpr ⟨(), validatedText_eq_ok.mpr h.operation, ?_⟩
    refine bind_eq_ok.mpr ⟨(), validatedText_eq_ok.mpr h.resourceId, ?_⟩
    refine bind_eq_ok.mpr ⟨(), validatedText_eq_ok.mpr h.executorId, ?_⟩
    refine raiseIf_bind_eq_ok.mpr ⟨not_lt.mpr h.purpose.1, ?_⟩
    refine asInvalid_bind_eq_ok.mpr ⟨b, hb, ?_⟩
    refine asInvalid_bind_eq_ok.mpr ⟨_, map_eq_ok.mpr ⟨_, hcanon, rfl⟩, ?_⟩
    refine raiseIf_eq_ok.mpr ?_
    have hfloat : hasFloatFields fields = false := hasFloat_of_readable _ hread
    simp [hfloat]
  refine ⟨⟨_, hvalid, hread.1⟩, PyValue.height_of_canonicalValue hfields, fun d ↦ ?_⟩
  -- Both payloads have the same items, tuples read as lists.
  rw [← PyValue.canonicalValue_ofJson, ← PyValue.canonicalValue_listed,
    ← PyValue.canonicalValue_listed (PyValue.ofJson _)]
  refine congrArg (PyValue.canonicalValue d) ?_
  have hthaw : r.arguments.thaw.listed = (PyValue.ofJson (.obj fields)).listed := by
    rw [hself, ← hlisted, h.frozen]
    exact PyValue.listed_thawed arguments
  rw [PyRequest.canonicalPayload, PyRequest.payloadItems, ActionRequest.canonicalPayload,
    PyValue.ofJson, PyValue.listed, PyValue.listed]
  simp only [PyValue.ofFields, PyValue.listedFields, hthaw]
  rfl

/-! ## Digests -/

/-- `payload["arguments"]`. -/
def payloadArguments : PyValue → PyValue
  | .dict items => PyValue.item items "arguments"
  | _ => .none

/-- Two requests are equal: the order of items in their arguments does not matter. -/
structure PyRequest.Same (r r' : PyRequest) : Prop where
  requestId : r.requestId = r'.requestId
  sessionId : r.sessionId = r'.sessionId
  agentId : r.agentId = r'.agentId
  operation : r.operation = r'.operation
  resourceId : r.resourceId = r'.resourceId
  executorId : r.executorId = r'.executorId
  arguments : r.arguments.listed = r'.arguments.listed
  purpose : r.purpose = r'.purpose

omit [Platform] in
theorem distinct_item {items : List (PyKey × PyValue)} (h : (PyValue.dict items).Distinct)
    (key : String) : (PyValue.item items key).Distinct := by
  rw [PyValue.item]
  cases hlookup : items.lookup (.str (.ofString key)) with
  | none => trivial
  | some x =>
    have hmem : ∃ k, (k, x) ∈ items := by
      obtain ⟨l, l', hitems, -⟩ := List.lookup_eq_some_iff.mp hlookup
      exact ⟨_, by rw [hitems]; exact List.mem_append_right _ List.mem_cons_self⟩
    obtain ⟨k, hk⟩ := hmem
    exact PyValue.distinctFields_iff.mp h.2 _ hk

namespace PyRequest

variable {payload : PyValue} {r : PyRequest}

theorem checked_of_fromDict (h : fromDict payload = .ok r) :
    r.Checked (payloadArguments payload) := by
  obtain ⟨items, rfl, -, hchecked⟩ := fromDict_eq_ok.mp h
  exact hchecked

theorem distinct_payloadArguments (h : fromDict payload = .ok r) (hdist : payload.Distinct) :
    (payloadArguments payload).Distinct := by
  obtain ⟨items, rfl, -⟩ := fromDict_eq_ok.mp h
  exact distinct_item hdist _

/-- An accepted request has canonical bytes when its arguments fit one level down. -/
theorem exists_canonicalBytes_iff (hdist : payload.Distinct) (h : fromDict payload = .ok r) :
    (∃ b, r.canonicalPayload.canonicalBytes = .ok b) ↔
      (payloadArguments payload).height < maxCanonicalDepth := by
  obtain ⟨q, hheight, hq⟩ :=
    (checked_of_fromDict h).exists_request (distinct_payloadArguments h hdist)
  rw [← hheight, ← q.exists_requestDigest, ActionRequest.requestDigest, exists_digest_eq_ok,
    PyValue.canonicalBytes, hq 0]
  exact canonicalBytes_eq_ok

omit [Platform] in
theorem map_fst_payloadItems (r : PyRequest) :
    r.payloadItems.map Prod.fst = requestFieldNames.map fun name ↦ PyKey.str (.ofString name) := rfl

omit [Platform] in
theorem carries_payloadItems (r : PyRequest) : Carries r.payloadItems r where
  exact := by
    refine ⟨fun f hf ↦ ?_, fun name hname ↦ ?_⟩
    · rw [← map_fst_payloadItems r]
      exact List.mem_map_of_mem hf
    · rw [map_fst_payloadItems]
      exact List.mem_map_of_mem hname
  requestId := rfl
  sessionId := rfl
  agentId := rfl
  operation := rfl
  resourceId := rfl
  executorId := rfl
  purpose := rfl

/-- The canonical payload of an accepted request is accepted as the same request. -/
theorem fromDict_canonicalPayload (h : fromDict payload = .ok r) :
    fromDict r.canonicalPayload = .ok r := by
  have hchecked := checked_of_fromDict h
  have hthaw : PyValue.item r.payloadItems "arguments" = (payloadArguments payload).thawed := by
    have hitem : PyValue.item r.payloadItems "arguments" = r.arguments.thaw := rfl
    rw [hitem, hchecked.frozen]
    rfl
  refine fromDict_eq_ok.mpr ⟨_, rfl, carries_payloadItems r, ?_⟩
  rw [hthaw]
  refine { hchecked with mapping := ?_, canonical := ?_, noFloat := ?_, frozen := ?_ }
  · have hmapping := hchecked.mapping
    generalize payloadArguments payload = arguments at hmapping ⊢
    cases arguments with
    | dict items => rw [PyValue.thawed_dict, PyValue.isDict]
    | _ => cases hmapping
  · rw [PyValue.canonicalValue_thawed]
    exact hchecked.canonical
  · rw [PyValue.hasFloat_thawed]
    exact hchecked.noFloat
  · rw [PyValue.freeze_thawed]
    exact hchecked.frozen

omit [Platform] in
theorem nodup_payloadItems (r : PyRequest) : (r.payloadItems.map Prod.fst).Nodup := by
  rw [map_fst_payloadItems]
  decide

theorem distinct_canonicalPayload (hdist : payload.Distinct) (h : fromDict payload = .ok r) :
    r.canonicalPayload.Distinct ∧ r.canonicalPayload.FloatFree := by
  have hchecked := checked_of_fromDict h
  have hthaw : r.arguments.thaw = (payloadArguments payload).thawed := by
    rw [hchecked.frozen]
    rfl
  have hargs := PyValue.distinct_thawed _ (distinct_payloadArguments h hdist)
  have hfree := PyValue.floatFree_of_hasFloat (payloadArguments payload).thawed
    (by rw [PyValue.hasFloat_thawed]; exact hchecked.noFloat)
  rw [← hthaw] at hargs hfree
  refine ⟨⟨nodup_payloadItems r, ?_⟩, ?_⟩
  · simp [payloadItems, PyValue.DistinctFields, PyValue.Distinct, hargs]
  · simpa [canonicalPayload, payloadItems, PyValue.FloatFree, PyValue.Floats, PyValue.FloatsFields]
      using hfree

omit [Platform] in
/-- Requests with the same canonical payload are equal. -/
theorem same_of_listed {r r' : PyRequest}
    (h : r.canonicalPayload.listed = r'.canonicalPayload.listed) : r.Same r' := by
  have hfield : ∀ (name : String) {x x' : PyValue},
      (.str (.ofString name), x) ∈ r.payloadItems →
      (.str (.ofString name), x') ∈ r'.payloadItems → x.listed = x'.listed := by
    intro name x x' hx hx'
    rw [canonicalPayload, canonicalPayload, PyValue.listed, PyValue.listed, PyValue.dict.injEq,
      PyValue.listedFields_eq_map, PyValue.listedFields_eq_map] at h
    have hmem : (.str (.ofString name), x.listed) ∈ PyValue.sortItems
        (r'.payloadItems.map fun g ↦ (g.1, g.2.listed)) := by
      rw [← h, PyValue.mem_sortItems]
      exact List.mem_map.mpr ⟨_, hx, rfl⟩
    obtain ⟨g, hg, hkey⟩ := List.mem_map.mp (PyValue.mem_sortItems.mp hmem)
    have hname : g.1 = .str (.ofString name) := congrArg Prod.fst hkey
    rw [List.inj_on_of_nodup_map (nodup_payloadItems r') hg hx' hname] at hkey
    exact (congrArg Prod.snd hkey).symm
  have htext : ∀ (name : String) {s t : String},
      (.str (.ofString name), .str (.ofString s)) ∈ r.payloadItems →
      (.str (.ofString name), .str (.ofString t)) ∈ r'.payloadItems → s = t := fun name s t hs ht ↦
    PyStr.ofString_injective (PyValue.str.inj (hfield name hs ht))
  have harguments : r.arguments.thaw.listed = r'.arguments.thaw.listed :=
    hfield "arguments" (by simp [payloadItems]) (by simp [payloadItems])
  rw [PyValue.listed_thaw, PyValue.listed_thaw] at harguments
  exact {
    requestId := htext "request_id" (by simp [payloadItems]) (by simp [payloadItems])
    sessionId := htext "session_id" (by simp [payloadItems]) (by simp [payloadItems])
    agentId := htext "agent_id" (by simp [payloadItems]) (by simp [payloadItems])
    operation := htext "operation" (by simp [payloadItems]) (by simp [payloadItems])
    resourceId := htext "resource_id" (by simp [payloadItems]) (by simp [payloadItems])
    executorId := htext "executor_id" (by simp [payloadItems]) (by simp [payloadItems])
    arguments := harguments
    purpose := htext "purpose" (by simp [payloadItems]) (by simp [payloadItems]) }

/-- An accepted request can be digested, is read back from its canonical payload and shares its
canonical bytes with no other request exactly when its arguments nest less than the limit: they are
checked as a value of their own but digested one level deeper. -/
theorem digestible_iff (hdist : payload.Distinct) (h : fromDict payload = .ok r) :
    ((∃ b, r.canonicalPayload.canonicalBytes = .ok b) ∧ fromDict r.canonicalPayload = .ok r ∧
      ∀ (payload' : PyValue) (r' : PyRequest), payload'.Distinct → fromDict payload' = .ok r' →
        ∀ b, r.canonicalPayload.canonicalBytes = .ok b →
          r'.canonicalPayload.canonicalBytes = .ok b → r.Same r') ↔
      (payloadArguments payload).height < maxCanonicalDepth := by
  rw [← exists_canonicalBytes_iff hdist h]
  refine ⟨fun hall ↦ hall.1, fun hbytes ↦ ⟨hbytes, fromDict_canonicalPayload h, ?_⟩⟩
  intro payload' r' hdist' h' b hb hb'
  obtain ⟨hd, hf⟩ := distinct_canonicalPayload hdist h
  obtain ⟨hd', hf'⟩ := distinct_canonicalPayload hdist' h'
  have hr := strictJsonLoads_canonicalBytes hd hf hb
  rw [strictJsonLoads_canonicalBytes hd' hf' hb'] at hr
  exact same_of_listed (Except.ok.inj hr).symm

end PyRequest

end Requests

namespace Sample

attribute [local instance] pythonPlatform

/-- Lists inside each other. -/
def nested : ℕ → PyValue
  | 0 => .int 0
  | n + 1 => .list [nested n]

/-- A payload with an argument of nested lists. -/
def payload (n : ℕ) : PyValue := .dict [
  (.str (.ofString "request_id"), .str (.ofString "request-1")),
  (.str (.ofString "session_id"), .str (.ofString "session-1")),
  (.str (.ofString "agent_id"), .str (.ofString "agent-1")),
  (.str (.ofString "operation"), .str (.ofString "object.read")),
  (.str (.ofString "resource_id"), .str (.ofString "target")),
  (.str (.ofString "executor_id"), .str (.ofString "executor-1")),
  (.str (.ofString "purpose"), .str (.ofString "read")),
  (.str (.ofString "arguments"), .dict [(.str (.ofString "offset"), nested n)])]

theorem distinct_payload (n : ℕ) : (payload n).Distinct := by
  have hnested : ∀ n, (nested n).Distinct := by
    intro n
    induction n with
    | zero => trivial
    | succ n ih => exact ⟨ih, trivial⟩
  have hnames : ["request_id", "session_id", "agent_id", "operation", "resource_id", "executor_id",
      "purpose", "arguments"].map (fun name ↦ PyKey.str (.ofString name)) |>.Nodup := by decide
  refine ⟨hnames, ?_⟩
  simp [PyValue.DistinctFields, PyValue.Distinct, hnested n]

theorem exists_request {n : ℕ} (h : (PyRequest.fromDict (payload n)).isOk = true) :
    ∃ r, PyRequest.fromDict (payload n) = .ok r := by
  cases hr : PyRequest.fromDict (payload n) with
  | error e =>
    rw [hr] at h
    cases h
  | ok r => exact ⟨r, rfl⟩

end Sample

/-- A payload with a flat argument is accepted, and its request can be digested. -/
theorem digestible_iff_sample :
    let _ := pythonPlatform
    ∃ r, PyRequest.fromDict (Sample.payload 0) = .ok r ∧
      ∃ b, r.canonicalPayload.canonicalBytes = .ok b := by
  intro _
  obtain ⟨r, hr⟩ := Sample.exists_request (n := 0) (by decide +kernel)
  refine ⟨r, hr, ((PyRequest.digestible_iff (Sample.distinct_payload 0) hr).mpr ?_).1⟩
  decide

/-- A payload with seven lists inside each other is accepted, and its request has no digest. -/
theorem not_digestible :
    let _ := pythonPlatform
    ∃ r, (Sample.payload 7).Distinct ∧ PyRequest.fromDict (Sample.payload 7) = .ok r ∧
      ∀ b, r.canonicalPayload.canonicalBytes ≠ .ok b := by
  intro _
  obtain ⟨r, hr⟩ := Sample.exists_request (n := 7) (by decide +kernel)
  refine ⟨r, Sample.distinct_payload 7, hr, fun b hb ↦ ?_⟩
  have hlt := (PyRequest.exists_canonicalBytes_iff (Sample.distinct_payload 7) hr).mp ⟨b, hb⟩
  exact absurd hlt (by decide)

end Policy

end EventHorizon
