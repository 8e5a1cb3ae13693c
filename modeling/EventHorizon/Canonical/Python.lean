import EventHorizon.Canonical.Digest
import EventHorizon.Canonical.Limits

/-!
# Python values

`canonical_bytes` takes any Python object. Beyond the values of `EventHorizon.Json` there are
tuples, mappings with keys that are not strings, objects of other types, and strings with lone
surrogates, which no encoder accepts. This module has these values and `_canonical_value` on all of
them; the canonical form, when there is one, is a value of `Json`.

A dictionary is the list of its items in insertion order. Its keys are distinct, which is
`PyValue.Distinct`.
-/

namespace EventHorizon

/-! ## Strings -/

/-- A code point of a Python string: a Unicode scalar value, or a lone surrogate. -/
inductive CodePoint
  | scalar (c : Char)
  | surrogate (n : Fin 2048)
  deriving DecidableEq, Repr

namespace CodePoint

/-- `ord(c)`. -/
def ord : CodePoint → ℕ
  | .scalar c => c.toNat
  | .surrogate n => 0xd800 + n

/-- The scalar value, unless it is a surrogate. -/
def char? : CodePoint → Option Char
  | .scalar c => some c
  | .surrogate _ => none

/-- The code point as the error of a codec spells it. -/
def escaped (c : CodePoint) : String :=
  let digits := Sha256.hexWord c.ord
  if c.ord < 0x100 then "\\x" ++ String.ofList (digits.drop 6)
  else if c.ord < 0x10000 then "\\u" ++ String.ofList (digits.drop 4)
  else "\\U" ++ String.ofList digits

end CodePoint

/-- A Python `str`. -/
abbrev PyStr := List CodePoint

instance : LawfulBEq PyStr := inferInstanceAs (LawfulBEq (List CodePoint))

namespace PyStr

/-- The string of the given text. -/
def ofString (s : String) : PyStr := s.toList.map .scalar

/-- The text of a string, unless it has a surrogate: what `encode("utf-8")` needs. -/
def text? (s : PyStr) : Option String := (s.mapM CodePoint.char?).map String.ofList

/-- The error of a codec. It names the first run of code points that the codec does not have. -/
def codecError (codec reason : String) (has : CodePoint → Bool) (s : PyStr) : Exn :=
  let start := (s.takeWhile has).length
  let run := (s.drop start).takeWhile fun c ↦ !has c
  let place := match run with
    | [c] => "character '" ++ c.escaped ++ "' in position " ++ toString start
    | _ => "characters in position " ++ toString start ++ "-" ++ toString (start + run.length - 1)
  ⟨.unicodeEncodeError, "'" ++ codec ++ "' codec can't encode " ++ place ++ ": " ++ reason⟩

/-- The error of `encode("utf-8")`. -/
def encodeError : PyStr → Exn :=
  codecError "utf-8" "surrogates not allowed" fun c ↦ c.char?.isSome

/-- The error of `encode("ascii")`. -/
def encodeAsciiError : PyStr → Exn :=
  codecError "ascii" "ordinal not in range(128)" fun c ↦ decide (c.ord < 128)

/-- The code points by which strings are ordered. -/
def codes (s : PyStr) : List ℕ := s.map CodePoint.ord

/-- The maximal runs of scalar values between surrogates. -/
def scalarRuns : PyStr → List (List Char)
  | [] => [[]]
  | .surrogate _ :: rest => [] :: scalarRuns rest
  | .scalar c :: rest =>
    match scalarRuns rest with
    | run :: runs => (c :: run) :: runs
    | [] => [[c]]

/-- `unicodedata.normalize("NFC", s) == s`. A surrogate neither decomposes nor composes, so the
runs between them are normalized one by one. -/
def isNfc [Platform] (s : PyStr) : Bool :=
  s.scalarRuns.all fun run ↦ Platform.isNfc (String.ofList run)

theorem text?_ofString (s : String) : text? (ofString s) = some s := by
  have hmap : ∀ cs : List Char, (cs.map CodePoint.scalar).mapM CodePoint.char? = some cs := by
    intro cs
    induction cs with
    | nil => rfl
    | cons c cs ih => simp [List.mapM_cons, CodePoint.char?, ih]
  rw [text?, ofString, hmap, Option.map_some, String.ofList_toList]

theorem eq_ofString_of_text? {s : PyStr} {t : String} (h : s.text? = some t) : s = ofString t := by
  have hmap : ∀ {s : PyStr} {cs : List Char}, s.mapM CodePoint.char? = some cs →
      s = cs.map CodePoint.scalar := by
    intro s
    induction s with
    | nil =>
      intro cs h
      cases h
      rfl
    | cons a s ih =>
      intro cs h
      simp only [List.mapM_cons, Option.bind_eq_bind, Option.bind_eq_some_iff, Option.pure_def,
        Option.some.injEq] at h
      obtain ⟨c, hc, cs', hcs, rfl⟩ := h
      rw [List.map_cons, ← ih hcs]
      cases a with
      | scalar d => rw [Option.some.inj hc]
      | surrogate n => cases hc
  obtain ⟨cs, hcs, rfl⟩ := Option.map_eq_some_iff.mp h
  rw [hmap hcs, ofString, String.toList_ofList]

theorem scalarRuns_ofString (s : String) : (ofString s).scalarRuns = [s.toList] := by
  have hmap : ∀ cs : List Char, scalarRuns (cs.map CodePoint.scalar) = [cs] := by
    intro cs
    induction cs with
    | nil => rfl
    | cons c cs ih => rw [List.map_cons, scalarRuns, ih]
  exact hmap _

@[simp] theorem isNfc_ofString [Platform] (s : String) : (ofString s).isNfc = Platform.isNfc s := by
  rw [isNfc, scalarRuns_ofString]
  simp

theorem ofString_injective : Function.Injective ofString := fun s t h ↦
  Option.some.inj (by rw [← text?_ofString, h, text?_ofString])

theorem codes_ofString (s : String) : (ofString s).codes = s.toList.map Char.toNat := by
  rw [codes, ofString, List.map_map]
  rfl

end PyStr

/-! ## Values -/

/-- Induction over a JSON value, with the claim for every part of a collection. -/
@[elab_as_elim]
theorem Json.induction {P : Json → Prop} (null : P .null) (bool : ∀ b, P (.bool b))
    (int : ∀ n, P (.int n)) (float : ∀ f, P (.float f)) (str : ∀ s, P (.str s))
    (arr : ∀ xs, (∀ x ∈ xs, P x) → P (.arr xs))
    (obj : ∀ fields, (∀ f ∈ fields, P f.2) → P (.obj fields)) (v : Json) : P v :=
  @Json.rec P (fun xs ↦ ∀ x ∈ xs, P x) (fun fields ↦ ∀ f ∈ fields, P f.2) (fun f ↦ P f.2)
    null bool int float str arr obj
    (fun _ h ↦ absurd h List.not_mem_nil)
    (fun _ _ hx hxs ↦ List.forall_mem_cons.mpr ⟨hx, hxs⟩)
    (fun _ h ↦ absurd h List.not_mem_nil)
    (fun _ _ hx hxs ↦ List.forall_mem_cons.mpr ⟨hx, hxs⟩)
    (fun _ _ hx ↦ hx) v

/-- A key of a mapping: a string, or an object of another type. -/
inductive PyKey
  | str (s : PyStr)
  | other
  deriving DecidableEq, Repr

namespace PyKey

/-- The string, if the key is one. -/
def str? : PyKey → Option PyStr
  | .str s => some s
  | .other => none

def codes : PyKey → List ℕ
  | .str s => s.codes
  | .other => []

end PyKey

/-- A Python object, as far as the canonical form tells objects apart. An `other` object is none of
the types before it and no `Sequence` either: `range` and `deque`, which `_canonical_value` takes as
it takes a list, are not modelled. -/
inductive PyValue
  | none
  | bool (b : Bool)
  | int (n : ℤ)
  | float (f : FloatValue)
  | str (s : PyStr)
  | list (xs : List PyValue)
  | tuple (xs : List PyValue)
  | dict (items : List (PyKey × PyValue))
  | other (typeName : String)
  deriving Repr

namespace PyValue

/-- Induction over a value, with the claim for every part of a collection. -/
@[elab_as_elim]
theorem induction {P : PyValue → Prop} (none : P .none) (bool : ∀ b, P (.bool b))
    (int : ∀ n, P (.int n)) (float : ∀ f, P (.float f)) (str : ∀ s, P (.str s))
    (list : ∀ xs, (∀ x ∈ xs, P x) → P (.list xs)) (tuple : ∀ xs, (∀ x ∈ xs, P x) → P (.tuple xs))
    (dict : ∀ items, (∀ f ∈ items, P f.2) → P (.dict items)) (other : ∀ name, P (.other name))
    (v : PyValue) : P v :=
  @PyValue.rec P (fun xs ↦ ∀ x ∈ xs, P x) (fun items ↦ ∀ f ∈ items, P f.2) (fun f ↦ P f.2)
    none bool int float str list tuple dict other
    (fun _ h ↦ nomatch h) (fun _ _ hx hxs ↦ List.forall_mem_cons.mpr ⟨hx, hxs⟩)
    (fun _ h ↦ nomatch h) (fun _ _ hx hxs ↦ List.forall_mem_cons.mpr ⟨hx, hxs⟩)
    (fun _ _ hx ↦ hx) v

/-- `isinstance(value, Mapping)`. -/
def isDict : PyValue → Bool
  | .dict _ => true
  | _ => false

/-- The items of a mapping in the order of their keys. -/
def sortItems {β : Type*} (items : List (PyKey × β)) : List (PyKey × β) :=
  items.insertionSort fun f g ↦ f.1.codes ≤ g.1.codes

mutual

/-- The Python value of a JSON value. -/
def ofJson : Json → PyValue
  | .null => .none
  | .bool b => .bool b
  | .int n => .int n
  | .float f => .float f
  | .str s => .str (.ofString s)
  | .arr xs => .list (ofItems xs)
  | .obj fields => .dict (ofFields fields)

def ofItems : List Json → List PyValue
  | [] => []
  | x :: xs => ofJson x :: ofItems xs

def ofFields : List (String × Json) → List (PyKey × PyValue)
  | [] => []
  | (k, x) :: xs => (.str (.ofString k), ofJson x) :: ofFields xs

end

mutual

/-- The value with its tuples read as lists. Python compares dictionaries without regard to the
order of their items, so these are put in the order of their keys. -/
def listed : PyValue → PyValue
  | .list xs => .list (listedItems xs)
  | .tuple xs => .list (listedItems xs)
  | .dict items => .dict (sortItems (listedFields items))
  | .none => .none
  | .bool b => .bool b
  | .int n => .int n
  | .float f => .float f
  | .str s => .str s
  | .other name => .other name

def listedItems : List PyValue → List PyValue
  | [] => []
  | x :: xs => listed x :: listedItems xs

def listedFields : List (PyKey × PyValue) → List (PyKey × PyValue)
  | [] => []
  | (k, x) :: xs => (k, listed x) :: listedFields xs

end

mutual

/-- The keys of every dictionary in the value are distinct. -/
def Distinct : PyValue → Prop
  | .list xs => DistinctItems xs
  | .tuple xs => DistinctItems xs
  | .dict items => (items.map Prod.fst).Nodup ∧ DistinctFields items
  | .none | .bool _ | .int _ | .float _ | .str _ | .other _ => True

def DistinctItems : List PyValue → Prop
  | [] => True
  | x :: xs => Distinct x ∧ DistinctItems xs

def DistinctFields : List (PyKey × PyValue) → Prop
  | [] => True
  | (_, x) :: xs => Distinct x ∧ DistinctFields xs

end

mutual

/-- Every `float` in the value is as required. -/
def Floats (P : FloatValue → Prop) : PyValue → Prop
  | .float f => P f
  | .list xs => FloatsItems P xs
  | .tuple xs => FloatsItems P xs
  | .dict items => FloatsFields P items
  | .none | .bool _ | .int _ | .str _ | .other _ => True

def FloatsItems (P : FloatValue → Prop) : List PyValue → Prop
  | [] => True
  | x :: xs => Floats P x ∧ FloatsItems P xs

def FloatsFields (P : FloatValue → Prop) : List (PyKey × PyValue) → Prop
  | [] => True
  | (_, x) :: xs => Floats P x ∧ FloatsFields P xs

end

/-- There is no `float` in the value. -/
def FloatFree : PyValue → Prop := Floats fun _ ↦ False

end PyValue

/-! ## The canonical form -/

section Canonical

variable [Platform]

private def reject (message : String) : Exn := ⟨.canonicalizationError, message⟩

/-- The string branch of `_canonical_value`. -/
def PyStr.canonicalText (depth : ℕ) (s : PyStr) : Except Exn String :=
  if maxCanonicalDepth < depth then .error (reject "canonical value exceeds nesting limit")
  else if !s.isNfc then .error (reject "strings must already be Unicode NFC")
  else match s.text? with
    | none => .error s.encodeError
    | some t =>
      if maxCanonicalStringBytes < t.utf8ByteSize then
        .error (reject "string exceeds canonical byte limit")
      else .ok t

namespace PyValue

/-- The canonical entries of a mapping whose keys are in sorted order. -/
def canonicalEntries (depth : ℕ) :
    List (PyKey × Except Exn Json) → Except Exn (List (String × Json))
  | [] => .ok []
  | (k, v) :: rest =>
    match k with
    | .other => .error (reject "object keys must be strings")
    | .str k => do
      let k ← k.canonicalText depth
      let v ← v
      let rest ← canonicalEntries depth rest
      return (k, v) :: rest

mutual

/-- `_canonical_value`. Values are trees, so there is no cycle to detect. -/
def canonicalValue (depth : ℕ) : PyValue → Except Exn Json
  | .none =>
    if maxCanonicalDepth < depth then .error (reject "canonical value exceeds nesting limit")
    else .ok .null
  | .bool b =>
    if maxCanonicalDepth < depth then .error (reject "canonical value exceeds nesting limit")
    else .ok (.bool b)
  | .int n =>
    if maxCanonicalDepth < depth then .error (reject "canonical value exceeds nesting limit")
    else if maxSafeInteger < n.natAbs then
      .error (reject "integer exceeds the interoperable exact range")
    else .ok (.int n)
  | .float f =>
    if maxCanonicalDepth < depth then .error (reject "canonical value exceeds nesting limit")
    else if !f.isFinite then .error (reject "non-finite values are not permitted")
    else if f.isNegativeZero then .error (reject "negative zero is not permitted")
    else .ok (.float f)
  | .str s => (s.canonicalText depth).map .str
  | .list xs | .tuple xs =>
    if maxCanonicalDepth < depth then .error (reject "canonical value exceeds nesting limit")
    else if maxCanonicalItems < xs.length then
      .error (reject "array exceeds canonical item limit")
    else (canonicalItems (depth + 1) xs).map .arr
  | .dict items =>
    if maxCanonicalDepth < depth then .error (reject "canonical value exceeds nesting limit")
    else if maxCanonicalItems < items.length then
      .error (reject "object exceeds canonical item limit")
    else if items.any fun f ↦ f.1 = .other then .error (reject "object keys must be strings")
    else
      (canonicalEntries (depth + 1) (sortItems (canonicalFields (depth + 1) items))).map .obj
  | .other name =>
    if maxCanonicalDepth < depth then .error (reject "canonical value exceeds nesting limit")
    else .error (reject ("unsupported canonical value: " ++ name))

def canonicalItems (depth : ℕ) : List PyValue → Except Exn (List Json)
  | [] => .ok []
  | x :: xs => do
    let x ← canonicalValue depth x
    let xs ← canonicalItems depth xs
    return x :: xs

def canonicalFields (depth : ℕ) : List (PyKey × PyValue) → List (PyKey × Except Exn Json)
  | [] => []
  | (k, x) :: xs => (k, canonicalValue depth x) :: canonicalFields depth xs

end

/-- `canonical_bytes`. -/
def canonicalBytes (v : PyValue) : Except Exn (List ℕ) := (v.canonicalValue 0).map spell

end PyValue

end Canonical

/-! ## Items in the order of their keys -/

/-- Code points order text as Lean orders strings. -/
theorem PyStr.codes_ofString_le {s t : String} :
    (PyStr.ofString s).codes ≤ (PyStr.ofString t).codes ↔ s ≤ t := by
  have hmap : ∀ cs ds : List Char, cs.map Char.toNat < ds.map Char.toNat ↔ cs < ds := by
    intro cs
    induction cs with
    | nil =>
      intro ds
      cases ds <;> simp
    | cons c cs ih =>
      intro ds
      cases ds with
      | nil => simp
      | cons d ds =>
        rw [List.map_cons, List.map_cons, List.cons_lt_cons_iff, List.cons_lt_cons_iff, ih,
          Char.toNat_inj]
        rfl
  rw [PyStr.codes_ofString, PyStr.codes_ofString, ← not_lt, hmap, not_lt,
    String.le_iff_toList_le]

namespace PyValue

theorem ofItems_eq_map (xs : List Json) : ofItems xs = xs.map ofJson := by
  induction xs with
  | nil => rfl
  | cons x xs ih => rw [ofItems, ih, List.map_cons]

theorem ofFields_eq_map (fields : List (String × Json)) :
    ofFields fields = fields.map fun f ↦ (.str (.ofString f.1), ofJson f.2) := by
  induction fields with
  | nil => rfl
  | cons f fields ih => rw [ofFields, ih, List.map_cons]

theorem listedItems_eq_map (xs : List PyValue) : listedItems xs = xs.map listed := by
  induction xs with
  | nil => rfl
  | cons x xs ih => rw [listedItems, ih, List.map_cons]

theorem listedFields_eq_map (items : List (PyKey × PyValue)) :
    listedFields items = items.map fun f ↦ (f.1, listed f.2) := by
  induction items with
  | nil => rfl
  | cons f items ih => rw [listedFields, ih, List.map_cons]

theorem distinctItems_iff {xs : List PyValue} : DistinctItems xs ↔ ∀ x ∈ xs, x.Distinct := by
  induction xs with
  | nil => simp [DistinctItems]
  | cons x xs ih => simp [DistinctItems, ih]

theorem distinctFields_iff {items : List (PyKey × PyValue)} :
    DistinctFields items ↔ ∀ f ∈ items, f.2.Distinct := by
  induction items with
  | nil => simp [DistinctFields]
  | cons f items ih => simp [DistinctFields, ih]

theorem floatsItems_iff {P : FloatValue → Prop} {xs : List PyValue} :
    FloatsItems P xs ↔ ∀ x ∈ xs, x.Floats P := by
  induction xs with
  | nil => simp [FloatsItems]
  | cons x xs ih => simp [FloatsItems, ih]

theorem floatsFields_iff {P : FloatValue → Prop} {items : List (PyKey × PyValue)} :
    FloatsFields P items ↔ ∀ f ∈ items, f.2.Floats P := by
  induction items with
  | nil => simp [FloatsFields]
  | cons f items ih => simp [FloatsFields, ih]

/-- Only the keys matter for the order of the items. -/
theorem sortItems_map {β γ : Type*} (g : β → γ) (items : List (PyKey × β)) :
    sortItems (items.map fun f ↦ (f.1, g f.2)) = (sortItems items).map fun f ↦ (f.1, g f.2) := by
  rw [sortItems, sortItems, List.map_insertionSort _ (fun f g ↦ f.1.codes ≤ g.1.codes)]
  exact fun _ _ _ _ ↦ Iff.rfl

/-- The fields of a JSON object are in the order of the items of its dictionary. -/
theorem sortItems_ofString {β : Type*} (fields : List (String × β)) :
    sortItems (fields.map fun f ↦ (PyKey.str (.ofString f.1), f.2)) =
      (Json.sortFields fields).map fun f ↦ (PyKey.str (.ofString f.1), f.2) := by
  rw [sortItems, Json.sortFields_eq,
    List.map_insertionSort _ (fun f g ↦ f.1.codes ≤ g.1.codes)]
  exact fun _ _ _ _ ↦ PyStr.codes_ofString_le.symm

section Sorted

variable {β : Type*}

instance : Std.Total (α := PyKey × β) (fun f g ↦ f.1.codes ≤ g.1.codes) :=
  ⟨fun f g ↦ le_total f.1.codes g.1.codes⟩

instance : IsTrans (PyKey × β) (fun f g ↦ f.1.codes ≤ g.1.codes) :=
  ⟨fun _ _ _ h h' ↦ le_trans h h'⟩

theorem sortItems_sortItems (items : List (PyKey × β)) :
    sortItems (sortItems items) = sortItems items :=
  (List.pairwise_insertionSort _ items).insertionSort_eq

theorem mem_sortItems {items : List (PyKey × β)} {f : PyKey × β} :
    f ∈ sortItems items ↔ f ∈ items := List.mem_insertionSort _

@[simp] theorem length_sortItems (items : List (PyKey × β)) :
    (sortItems items).length = items.length := List.length_insertionSort _ _

end Sorted

/-! ## Laws of the canonical form -/

section Laws

variable [Platform] {d : ℕ}

theorem canonicalFields_eq_map (d : ℕ) (items : List (PyKey × PyValue)) :
    canonicalFields d items = items.map fun f ↦ (f.1, canonicalValue d f.2) := by
  induction items with
  | nil => rfl
  | cons f items ih => rw [canonicalFields, ih, List.map_cons]

theorem canonicalText_ofString (s : String) :
    (PyStr.ofString s).canonicalText d = canonicalString d s := by
  rw [PyStr.canonicalText, PyStr.isNfc_ofString, PyStr.text?_ofString]
  rfl

theorem canonicalText_eq_ok {s : PyStr} {t : String} (h : s.canonicalText d = .ok t) :
    s = .ofString t := by
  rw [PyStr.canonicalText] at h
  split at h
  · cases h
  split at h
  · cases h
  split at h
  · cases h
  case h_2 t' ht =>
  split at h
  · cases h
  rw [← Except.ok.inj h]
  exact PyStr.eq_ofString_of_text? ht

theorem canonicalEntries_ofString (es : List (String × Except Exn Json)) :
    canonicalEntries d (es.map fun e ↦ (PyKey.str (.ofString e.1), e.2)) =
      EventHorizon.canonicalEntries d es := by
  induction es with
  | nil => rfl
  | cons e es ih =>
    rw [List.map_cons, canonicalEntries, EventHorizon.canonicalEntries, ih,
      canonicalText_ofString]

mutual

/-- On JSON values the two definitions of the canonical form agree. -/
theorem canonicalValue_ofJson (d : ℕ) : ∀ v : Json,
    (ofJson v).canonicalValue d = EventHorizon.canonicalValue d v
  | .null | .bool _ | .int _ | .float _ => rfl
  | .str s => by
    rw [ofJson, canonicalValue, EventHorizon.canonicalValue, canonicalText_ofString]
  | .arr xs => by
    rw [ofJson, canonicalValue, EventHorizon.canonicalValue, canonicalItems_ofItems (d + 1) xs,
      ofItems_eq_map, List.length_map]
    rfl
  | .obj fields => by
    have hkeys : ((ofFields fields).any fun f ↦ f.1 = .other) = false := by
      rw [ofFields_eq_map, List.any_map]
      simp
    rw [ofJson, canonicalValue, EventHorizon.canonicalValue, hkeys,
      canonicalFields_ofFields (d + 1) fields, sortItems_ofString, canonicalEntries_ofString,
      ofFields_eq_map, List.length_map]
    rfl

theorem canonicalItems_ofItems (d : ℕ) : ∀ xs : List Json,
    canonicalItems d (ofItems xs) = EventHorizon.canonicalItems d xs
  | [] => rfl
  | x :: xs => by
    rw [ofItems, canonicalItems, EventHorizon.canonicalItems, canonicalValue_ofJson d x,
      canonicalItems_ofItems d xs]

theorem canonicalFields_ofFields (d : ℕ) : ∀ fields : List (String × Json),
    canonicalFields d (ofFields fields) =
      (EventHorizon.canonicalFields d fields).map fun e ↦ (PyKey.str (.ofString e.1), e.2)
  | [] => rfl
  | (k, x) :: fields => by
    rw [ofFields, canonicalFields, EventHorizon.canonicalFields, canonicalValue_ofJson d x,
      canonicalFields_ofFields d fields, List.map_cons]

end

/-! ### Tuples as lists, and the order of items -/

theorem canonicalItems_congr {xs ys : List PyValue} (f : PyValue → PyValue) (hys : ys = xs.map f)
    (h : ∀ x ∈ xs, (f x).canonicalValue d = x.canonicalValue d) :
    canonicalItems d ys = canonicalItems d xs := by
  subst hys
  induction xs with
  | nil => rfl
  | cons x xs ih =>
    rw [List.map_cons, canonicalItems, canonicalItems, h x List.mem_cons_self,
      ih fun y hy ↦ h y (List.mem_cons_of_mem _ hy)]

/-- Reading tuples as lists and reordering items leaves the canonical form as it is. -/
theorem canonicalValue_listed (v : PyValue) :
    ∀ d, v.listed.canonicalValue d = v.canonicalValue d := by
  induction v using PyValue.induction with
  | none | bool | int | float | str | other => exact fun d ↦ rfl
  | list xs ih | tuple xs ih =>
    intro d
    rw [listed, canonicalValue, canonicalValue,
      canonicalItems_congr listed (listedItems_eq_map xs) fun x hx ↦ ih x hx (d + 1),
      listedItems_eq_map, List.length_map]
  | dict items ih =>
    intro d
    have hany : ((sortItems (listedFields items)).any fun f ↦ f.1 = .other) =
        items.any fun f ↦ f.1 = .other := by
      rw [sortItems, (List.perm_insertionSort _ _).any_eq, listedFields_eq_map, List.any_map]
      rfl
    have hfields :
        canonicalFields (d + 1) (listedFields items) = canonicalFields (d + 1) items := by
      rw [canonicalFields_eq_map, canonicalFields_eq_map, listedFields_eq_map, List.map_map]
      exact List.map_congr_left fun f hf ↦ Prod.ext rfl (ih f hf (d + 1))
    have hsort : sortItems (canonicalFields (d + 1) (sortItems (listedFields items))) =
        sortItems (canonicalFields (d + 1) items) := by
      rw [canonicalFields_eq_map, ← sortItems_map, ← canonicalFields_eq_map, sortItems_sortItems,
        hfields]
    rw [listed, canonicalValue, canonicalValue, hany, hsort, length_sortItems,
      listedFields_eq_map, List.length_map]

/-- The entries of a canonical object: the keys are text, and the values have canonical forms. -/
theorem canonicalEntries_eq_ok {es : List (PyKey × Except Exn Json)}
    {fields : List (String × Json)} (h : canonicalEntries d es = .ok fields) :
    es = fields.map fun f ↦ (.str (.ofString f.1), .ok f.2) := by
  induction es generalizing fields with
  | nil =>
    cases h
    rfl
  | cons e es ih =>
    obtain ⟨k, v⟩ := e
    cases k with
    | other => cases h
    | str k =>
      obtain ⟨k', hk, h⟩ := bind_eq_ok.mp h
      obtain ⟨v', hv, h⟩ := bind_eq_ok.mp h
      obtain ⟨rest, hrest, h⟩ := bind_eq_ok.mp h
      cases h
      rw [List.map_cons, ← ih hrest, canonicalText_eq_ok hk, hv]

/-- What a value is if it has a canonical form: the value of that form. -/
def Reads (v : PyValue) (d : ℕ) : Prop :=
  ∀ c : Json, v.canonicalValue d = .ok c → v.listed = ofJson c

theorem reads_dict {items : List (PyKey × PyValue)} (h : ∀ f ∈ items, Reads f.2 (d + 1)) :
    Reads (.dict items) d := by
  -- Both the canonical entries and the listed items are read off the sorted items.
  have hread : ∀ (sorted : List (PyKey × PyValue)) (fields : List (String × Json)),
      (∀ f ∈ sorted, Reads f.2 (d + 1)) →
      (sorted.map fun f ↦ (f.1, canonicalValue (d + 1) f.2)) =
        fields.map (fun f ↦ (.str (.ofString f.1), .ok f.2)) →
      (sorted.map fun f ↦ (f.1, listed f.2)) = ofFields fields := by
    intro sorted
    induction sorted with
    | nil =>
      intro fields _ hmap
      rw [List.map_nil, List.nil_eq, List.map_eq_nil_iff] at hmap
      rw [hmap, List.map_nil, ofFields]
    | cons f sorted ih =>
      intro fields hf hmap
      cases fields with
      | nil => cases hmap
      | cons g fields =>
        rw [List.map_cons, List.map_cons, List.cons.injEq, Prod.mk.injEq] at hmap
        obtain ⟨⟨hkey, hval⟩, hrest⟩ := hmap
        rw [List.map_cons, ofFields,
          ih fields (fun f hf' ↦ hf f (List.mem_cons_of_mem _ hf')) hrest,
          hkey, hf f List.mem_cons_self _ hval]
  intro c hc
  rw [canonicalValue] at hc
  split at hc
  · cases hc
  split at hc
  · cases hc
  split at hc
  · cases hc
  obtain ⟨fields, hfields, rfl⟩ := map_eq_ok.mp hc
  have hsort := canonicalEntries_eq_ok hfields
  rw [canonicalFields_eq_map, sortItems_map] at hsort
  rw [listed, ofJson, listedFields_eq_map, sortItems_map]
  exact congrArg PyValue.dict
    (hread _ fields (fun f hf ↦ h f (mem_sortItems.mp hf)) hsort)

theorem listedItems_of_canonicalItems {xs : List PyValue} {ys : List Json}
    (h : ∀ x ∈ xs, Reads x d) (hys : canonicalItems d xs = .ok ys) :
    listedItems xs = ofItems ys := by
  induction xs generalizing ys with
  | nil =>
    cases hys
    rfl
  | cons x xs ih =>
    obtain ⟨y, hy, hys⟩ := bind_eq_ok.mp hys
    obtain ⟨ys', hys', hys⟩ := bind_eq_ok.mp hys
    cases hys
    rw [listedItems, ofItems, h x List.mem_cons_self y hy,
      ih (fun x hx ↦ h x (List.mem_cons_of_mem _ hx)) hys']

theorem reads_list {xs : List PyValue} (h : ∀ x ∈ xs, Reads x (d + 1)) : Reads (.list xs) d := by
  intro c hc
  rw [canonicalValue] at hc
  split at hc
  · cases hc
  split at hc
  · cases hc
  obtain ⟨ys, hys, rfl⟩ := map_eq_ok.mp hc
  rw [listed, ofJson, listedItems_of_canonicalItems h hys]

/-- A value with a canonical form is the value of that form, tuples read as lists. -/
theorem listed_of_canonicalValue (v : PyValue) : ∀ d, Reads v d := by
  induction v using PyValue.induction with
  | none | bool =>
    intro d c hc
    rw [canonicalValue] at hc
    split at hc
    · cases hc
    · cases hc
      rfl
  | int | float =>
    intro d c hc
    rw [canonicalValue] at hc
    repeat' split at hc
    all_goals cases hc
    rfl
  | str s =>
    intro d c hc
    obtain ⟨t, ht, rfl⟩ := map_eq_ok.mp hc
    rw [listed, ofJson, canonicalText_eq_ok ht]
  | list xs ih | tuple xs ih => exact fun d ↦ reads_list fun x hx ↦ ih x hx (d + 1)
  | dict items ih => exact fun d ↦ reads_dict fun f hf ↦ ih f hf (d + 1)
  | other name =>
    intro d c hc
    rw [canonicalValue] at hc
    split at hc <;> cases hc

end Laws

end PyValue

end EventHorizon
