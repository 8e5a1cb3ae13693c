import EventHorizon.Canonical.Python

/-!
# Reading Python values

How code that is handed a Python object looks at it: equality with a string or an integer, the keys
of a mapping, and the item of a key.
-/

namespace EventHorizon

namespace PyValue

/-- `value == text`. -/
def isText (text : PyStr) : PyValue → Bool
  | .str s => s = text
  | _ => false

theorem isText_iff {text : PyStr} {v : PyValue} : v.isText text = true ↔ v = .str text := by
  cases v <;> simp [isText]

/-- `value == n`: a `bool` is a number, and so is a `float`. -/
def isInt (n : ℤ) : PyValue → Bool
  | .int m => m = n
  | .bool b => (if b then 1 else 0) = n
  | .float f => f.integer = some n
  | _ => false

/-- `value is None`. -/
def isNone : PyValue → Bool
  | .none => true
  | _ => false

/-- `value.get(key)` on the items of a mapping, when the key is there. -/
def at? (items : List (PyKey × PyValue)) (key : String) : Option PyValue :=
  items.lookup (.str (.ofString key))

/-- `payload[key]`, with `None` where the key is missing. -/
def item (items : List (PyKey × PyValue)) (key : String) : PyValue :=
  (items.lookup (.str (.ofString key))).getD .none

theorem isInt_listed (v : PyValue) (n : ℤ) : v.listed.isInt n = v.isInt n := by
  cases v <;> rfl

/-- Looking up a key of a JSON object. -/
theorem at?_ofFields (fields : List (String × Json)) (key : String) :
    at? (ofFields fields) key = (Json.lookup fields key).map ofJson := by
  rw [at?, Json.lookup]
  induction fields with
  | nil => rfl
  | cons f fields ih =>
    rw [ofFields_eq_map, List.map_cons, List.lookup_cons, List.lookup_cons]
    by_cases h : key = f.1
    · subst h
      rw [beq_self_eq_true, beq_self_eq_true]
      rfl
    · have hne : PyKey.str (.ofString key) ≠ PyKey.str (.ofString f.1) :=
        fun heq ↦ h (PyStr.ofString_injective (PyKey.str.inj heq))
      rw [beq_eq_false_iff_ne.mpr h, beq_eq_false_iff_ne.mpr hne, ← ofFields_eq_map]
      exact ih

/-- With distinct keys, looking a key up is finding its item. -/
theorem lookup_eq_some_iff_mem {β : Type*} {items : List (PyKey × β)}
    (h : (items.map Prod.fst).Nodup) {k : PyKey} {x : β} :
    items.lookup k = some x ↔ (k, x) ∈ items := by
  induction items with
  | nil => simp
  | cons f items ih =>
    rw [List.map_cons, List.nodup_cons] at h
    rw [List.lookup_cons, List.mem_cons]
    by_cases hk : k = f.1
    · subst hk
      have hmem : (f.1, x) ∉ items := fun hx ↦ h.1 (List.mem_map.mpr ⟨_, hx, rfl⟩)
      simp [hmem, Prod.ext_iff, eq_comm]
    · rw [beq_eq_false_iff_ne.mpr hk, ih h.2]
      simp [Prod.ext_iff, hk]

/-- An item of a mapping, after tuples are read as lists and the items are in order. -/
theorem at?_sortItems {items : List (PyKey × PyValue)} (h : (items.map Prod.fst).Nodup)
    (key : String) :
    at? (sortItems (listedFields items)) key = (at? items key).map listed := by
  have hperm := List.perm_insertionSort (fun f g : PyKey × PyValue ↦ f.1.codes ≤ g.1.codes)
    (listedFields items)
  have hkeys : (listedFields items).map Prod.fst = items.map Prod.fst := by
    rw [listedFields_eq_map, List.map_map]
    rfl
  have hnodup : ((sortItems (listedFields items)).map Prod.fst).Nodup :=
    (hperm.map Prod.fst).nodup_iff.mpr (hkeys ▸ h)
  refine Option.ext fun x ↦ ?_
  rw [at?, at?, lookup_eq_some_iff_mem hnodup, mem_sortItems, listedFields_eq_map, List.mem_map,
    Option.map_eq_some_iff]
  constructor
  · rintro ⟨f, hf, hx⟩
    rw [Prod.mk.injEq] at hx
    exact ⟨f.2, (lookup_eq_some_iff_mem h).mpr (hx.1 ▸ hf), hx.2⟩
  · rintro ⟨y, hy, rfl⟩
    exact ⟨_, (lookup_eq_some_iff_mem h).mp hy, rfl⟩

/-- `value[key]`. -/
def read (items : List (PyKey × PyValue)) (key : String) : Except Exn PyValue :=
  match at? items key with
  | some v => .ok v
  | .none => .error ⟨.keyError, key⟩

theorem read_eq_ok {items : List (PyKey × PyValue)} {key : String} {v : PyValue} :
    read items key = .ok v ↔ at? items key = some v := by
  rw [read]
  cases at? items key with
  | none => exact iff_of_false (fun h ↦ nomatch h) (fun h ↦ nomatch h)
  | some w => rw [Except.ok.injEq, Option.some.injEq]

theorem read_bind_eq_ok {β : Type} {items : List (PyKey × PyValue)} {key : String}
    {f : PyValue → Except Exn β} {b : β} :
    (read items key >>= f) = .ok b ↔ ∃ v, at? items key = some v ∧ f v = .ok b := by
  rw [bind_eq_ok]
  simp only [read_eq_ok]

/-- An item that is read and checked. -/
theorem read_claim_eq_ok {α β : Type} {items : List (PyKey × PyValue)} {key : String}
    {g : PyValue → Except Exn α} {f : α → Except Exn β} {b : β} :
    ((read items key >>= g) >>= f) = .ok b ↔
      ∃ v a, at? items key = some v ∧ g v = .ok a ∧ f a = .ok b := by
  rw [bind_eq_ok]
  constructor
  · rintro ⟨a, h, hf⟩
    obtain ⟨v, hv, hg⟩ := read_bind_eq_ok.mp h
    exact ⟨v, a, hv, hg, hf⟩
  · rintro ⟨v, a, hv, hg, hf⟩
    exact ⟨a, read_bind_eq_ok.mpr ⟨v, hv, hg⟩, hf⟩

/-- `if value[key] != text: raise e`. -/
def requireText (items : List (PyKey × PyValue)) (key : String) (text : PyStr) (e : Exn) :
    Except Exn Unit := do
  let v ← read items key
  raiseIf (v.isText text = false) e

theorem requireText_bind_eq_ok {β : Type} {items : List (PyKey × PyValue)} {key : String}
    {text : PyStr} {e : Exn} {f : Unit → Except Exn β} {b : β} :
    (requireText items key text e >>= f) = .ok b ↔ at? items key = some (.str text) ∧
      f () = .ok b := by
  rw [bind_eq_ok]
  constructor
  · rintro ⟨⟨⟩, h, hf⟩
    obtain ⟨v, hv, h⟩ := read_bind_eq_ok.mp h
    rw [raiseIf_eq_ok, Bool.not_eq_false, isText_iff] at h
    exact ⟨h ▸ hv, hf⟩
  · rintro ⟨hv, hf⟩
    refine ⟨(), read_bind_eq_ok.mpr ⟨_, hv, ?_⟩, hf⟩
    rw [raiseIf_eq_ok, Bool.not_eq_false, isText_iff]

/-- `set(value) == names`. -/
def hasExactKeys (items : List (PyKey × PyValue)) (names : List String) : Bool :=
  (items.all fun f ↦ f.1 ∈ names.map fun name ↦ PyKey.str (.ofString name)) &&
    names.all fun name ↦ PyKey.str (.ofString name) ∈ items.map Prod.fst

end PyValue

end EventHorizon
