import EventHorizon.Canonical.Access
import EventHorizon.Library.Table
import Mathlib.Data.List.Dedup
import Mathlib.Data.List.Sort

/-!
# Python objects at work

What code does with a value it has not checked: it asks for its truth, compares it with a number,
puts it in a set, makes a `dict` of it, or takes a slice. Each of these is defined on every value
and raises what Python raises.

Only the comparisons in which a `float` takes part, and the difference of a `float` and an `int`,
are left to the processor. They are the fields of `FloatArithmetic`, of which nothing is assumed.
-/

namespace EventHorizon

/-- The code points of a text that are not lone surrogates, as a message shows them. -/
def PyStr.shown (s : PyStr) : String := String.ofList (s.filterMap CodePoint.char?)

/-- `sorted({*xs, x})`. -/
def PyStr.sortedWith (xs : List PyStr) (x : PyStr) : List PyStr :=
  (x :: xs).dedup.insertionSort fun s t ↦ s.codes ≤ t.codes

theorem PyStr.mem_sortedWith {xs : List PyStr} {x y : PyStr} :
    y ∈ PyStr.sortedWith xs x ↔ y = x ∨ y ∈ xs := by
  rw [PyStr.sortedWith, List.mem_insertionSort, List.mem_dedup, List.mem_cons]

theorem PyStr.nodup_sortedWith (xs : List PyStr) (x : PyStr) : (PyStr.sortedWith xs x).Nodup :=
  (List.perm_insertionSort _ _).nodup_iff.mpr (List.nodup_dedup _)

/-! ## Numbers -/

/-- A value that is ordered as a number is. -/
inductive PyNumber
  | int (n : ℤ)
  | float (f : FloatValue)
  deriving DecidableEq, Repr

/-- What the processor does when one of the numbers is a `float`. -/
class FloatArithmetic where
  le : PyNumber → PyNumber → Bool
  lt : PyNumber → PyNumber → Bool
  /-- `f - n`. -/
  sub : FloatValue → ℤ → FloatValue

namespace PyNumber

/-- The two are equal; a whole `float` is equal to its integer. -/
def same : PyNumber → PyNumber → Bool
  | .int m, .int n => m = n
  | .int m, .float f => f.integer = some m
  | .float f, .int n => f.integer = some n
  | .float f, .float g => f = g || f.integer.isSome && f.integer = g.integer

variable [FloatArithmetic]

/-- `a <= b`. -/
def le : PyNumber → PyNumber → Bool
  | .int m, .int n => m ≤ n
  | a, b => FloatArithmetic.le a b

/-- `a < b`. -/
def lt : PyNumber → PyNumber → Bool
  | .int m, .int n => m < n
  | a, b => FloatArithmetic.lt a b

/-- `a - n`. -/
def sub (n : ℤ) : PyNumber → PyNumber
  | .int m => .int (m - n)
  | .float f => .float (FloatArithmetic.sub f n)

end PyNumber

namespace PyValue

/-- The number that the value is; a `bool` is one. -/
def number? : PyValue → Option PyNumber
  | .int n => some (.int n)
  | .bool b => some (.int (if b then 1 else 0))
  | .float f => some (.float f)
  | _ => .none

/-- The value in a comparison with a number. -/
def number (v : PyValue) : Except Exn PyNumber :=
  match v.number? with
  | some n => .ok n
  | .none => .error ⟨.typeError, "unsupported operand type"⟩

/-- A value is equal to one integer at most. -/
theorem isInt_unique {v : PyValue} {m n : ℤ} (hm : v.isInt m = true) (hn : v.isInt n = true) :
    m = n := by
  cases v with
  | int k => exact (of_decide_eq_true hm).symm.trans (of_decide_eq_true hn)
  | bool b => exact (of_decide_eq_true hm).symm.trans (of_decide_eq_true hn)
  | float f =>
    exact Option.some.inj ((of_decide_eq_true hm).symm.trans (of_decide_eq_true hn))
  | _ => cases hm

/-! ## Truth, slices, and equality -/

/-- `bool(value)`. -/
def truthy : PyValue → Bool
  | .none => false
  | .bool b => b
  | .int n => n ≠ 0
  | .float f => f.integer ≠ some 0
  | .str s => !s.isEmpty
  | .list xs | .tuple xs => !xs.isEmpty
  | .dict items => !items.isEmpty
  | .other _ => true

/-- `value[:n]`. -/
def sliceTo (n : ℕ) : PyValue → Except Exn PyValue
  | .str s => .ok (.str (s.take n))
  | .list xs => .ok (.list (xs.take n))
  | .tuple xs => .ok (.tuple (xs.take n))
  | _ => .error ⟨.typeError, "object is not subscriptable"⟩

mutual

/-- The value has a hash. -/
def hashable : PyValue → Bool
  | .list _ | .dict _ => false
  | .tuple xs => hashableItems xs
  | .none | .bool _ | .int _ | .float _ | .str _ | .other _ => true

def hashableItems : List PyValue → Bool
  | [] => true
  | x :: xs => hashable x && hashableItems xs

end

mutual

/-- `a == b`, for values that have a hash. -/
def same : PyValue → PyValue → Bool
  | .none, .none => true
  | .str s, .str t => s = t
  | .tuple xs, .tuple ys => sameItems xs ys
  | .other a, .other b => a = b
  | a, b =>
    match a.number?, b.number? with
    | some m, some n => m.same n
    | _, _ => false

def sameItems : List PyValue → List PyValue → Bool
  | [], [] => true
  | x :: xs, y :: ys => same x y && sameItems xs ys
  | _, _ => false

end

/-- `xs.add(value)`, for a set in the order in which its elements came. -/
def addTo (xs : List PyValue) (v : PyValue) : Except Exn (List PyValue) :=
  if v.hashable = false then .error ⟨.typeError, "unhashable type"⟩
  else if xs.any (fun x ↦ x.same v) then .ok xs
  else .ok (xs ++ [v])

theorem addTo_extends {xs ys : List PyValue} {v : PyValue} (h : addTo xs v = .ok ys) :
    xs <+: ys := by
  rw [addTo] at h
  split at h
  · cases h
  split at h
  · cases h
    exact List.prefix_rfl
  · cases h
    exact List.prefix_append _ _

/-! ## Dictionaries -/

/-- A key of the given value. -/
def toKey : PyValue → Except Exn PyKey
  | .str s => .ok (.str s)
  | v => if v.hashable then .ok .other else .error ⟨.typeError, "unhashable type"⟩

/-- An element of what `dict` is given: a sequence of two values. -/
def pairOf : PyValue → Except Exn (PyValue × PyValue)
  | .list [x, y] | .tuple [x, y] => .ok (x, y)
  | .str [x, y] => .ok (.str [x], .str [y])
  | .dict [(.str s, _), (.str t, _)] => .ok (.str s, .str t)
  | .list _ | .tuple _ | .str _ | .dict _ =>
    .error ⟨.valueError, "dictionary update sequence element has length other than 2"⟩
  | _ => .error ⟨.typeError, "cannot convert dictionary update sequence element to a sequence"⟩

/-- The items after one more element. Of the keys that are not strings no more is known than that
there are some. -/
def updateWith (items : Table PyKey PyValue) (element : PyValue) :
    Except Exn (Table PyKey PyValue) := do
  let (key, v) ← pairOf element
  let key ← key.toKey
  return items.put key v

/-- `dict(value)`. -/
def dictOf : PyValue → Except Exn (List (PyKey × PyValue))
  | .dict items => .ok items
  | .list xs | .tuple xs => xs.foldlM updateWith []
  | .str [] => .ok []
  | .str _ =>
    .error ⟨.valueError, "dictionary update sequence element has length other than 2"⟩
  | _ => .error ⟨.typeError, "object is not iterable"⟩

/-- `tuple(value)`. -/
def tupleOf : PyValue → Except Exn (List PyValue)
  | .list xs | .tuple xs => .ok xs
  | .str s => .ok (s.map fun c ↦ .str [c])
  | .dict items => .ok (items.map fun f ↦
      match f.1 with
      | .str key => .str key
      | .other => .other "key")
  | _ => .error ⟨.typeError, "object is not iterable"⟩

/-- `digest`. -/
def digest [Platform] (v : PyValue) : Except Exn String := v.canonicalBytes.map Platform.sha256

/-- A dictionary with the given items. -/
def ofNamed (items : List (String × PyValue)) : PyValue :=
  .dict (items.map fun f ↦ (.str (.ofString f.1), f.2))

/-- The item of a key, with keys that are named. -/
theorem item_named (items : List (String × PyValue)) (key : String) :
    item (items.map fun f ↦ (.str (.ofString f.1), f.2)) key = (items.lookup key).getD .none := by
  rw [item]
  congr 1
  induction items with
  | nil => rfl
  | cons f items ih =>
    rw [List.map_cons, List.lookup_cons, List.lookup_cons, ih]
    by_cases h : key = f.1
    · subst h
      rw [beq_self_eq_true, beq_self_eq_true]
    · have hne : PyKey.str (.ofString key) ≠ PyKey.str (.ofString f.1) :=
        fun heq ↦ h (PyStr.ofString_injective (PyKey.str.inj heq))
      rw [beq_eq_false_iff_ne.mpr h, beq_eq_false_iff_ne.mpr hne]

/-- The keys of a dictionary whose keys are named. -/
theorem hasExactKeys_named (items : List (String × PyValue)) (names : List String) :
    hasExactKeys (items.map fun f ↦ (.str (.ofString f.1), f.2)) names =
      ((items.map Prod.fst).all (fun key ↦ key ∈ names) &&
        names.all fun name ↦ name ∈ items.map Prod.fst) := by
  have hmem : ∀ (key : String) (keys : List String),
      PyKey.str (.ofString key) ∈ keys.map (fun name ↦ PyKey.str (.ofString name)) ↔
      key ∈ keys := by
    intro key keys
    refine List.mem_map_of_injective fun a b h ↦ PyStr.ofString_injective (PyKey.str.inj h)
  rw [hasExactKeys, List.all_map, List.all_map, List.map_map]
  congr 1
  · exact congrArg (List.all items) (funext fun f ↦ decide_eq_decide.mpr (hmem f.1 names))
  · refine congrArg (List.all names) (funext fun name ↦ decide_eq_decide.mpr ?_)
    have hkeys : items.map (Prod.fst ∘ fun f ↦ ((.str (.ofString f.1) : PyKey), f.2)) =
        (items.map Prod.fst).map fun name ↦ PyKey.str (.ofString name) := by
      rw [List.map_map]
      rfl
    rw [hkeys]
    exact hmem name _

/-- The order in which `list` gives the elements of a set. -/
class SetOrder where
  order : List PyValue → List PyValue
  perm : ∀ xs, (order xs).Perm xs

end PyValue

end EventHorizon
