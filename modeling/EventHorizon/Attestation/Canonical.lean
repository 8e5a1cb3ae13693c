import EventHorizon.Canonical.RoundTrip
import Mathlib.Algebra.GroupWithZero.Nat

/-!
# The canonical form in TypeScript

`attestation/packages/crypto/src/index.ts` makes canonical bytes of a JavaScript value. `normalize`
checks the value and builds a copy of it, with the keys of objects assigned in the order of their
code points; `serialize` writes the copy, with the keys sorted again.

A string is a list of UTF-16 code units, which need not be well formed: a surrogate may stand alone.
An object is the list of its own properties; their keys are distinct, which is `JsValue.Distinct`.
The copies are objects of which nothing else has a reference, so they are values here too.
-/

namespace EventHorizon.Attestation

/-! ## Strings -/

/-- A string of JavaScript. -/
abbrev JsString := List UInt16

/-- The code point of a code unit that is not part of a pair. -/
def loneUnit (u : UInt16) : CodePoint :=
  if h : 0xd800 ≤ u.toNat ∧ u.toNat < 0xe000 then .surrogate ⟨u.toNat - 0xd800, by omega⟩
  else .scalar (Char.ofNat u.toNat)

namespace JsString

/-- `Array.from(s)`: surrogate pairs are read as one code point. -/
def codePoints (s : JsString) : PyStr := joinSurrogates (s.map loneUnit)

/-- `s.isWellFormed()`. -/
def isWellFormed (s : JsString) : Bool := s.codePoints.text?.isSome

/-- The number of octets of a code point: a lone surrogate is written as U+FFFD. -/
def octets : CodePoint → ℕ
  | .scalar c => c.utf8Size
  | .surrogate _ => 3

/-- `Buffer.byteLength(s, 'utf8')`. -/
def byteLength (s : JsString) : ℕ := (s.codePoints.map octets).sum

/-- The string of ASCII text. -/
def ofAscii (s : String) : JsString := s.toList.map fun c ↦ .ofNat c.toNat

end JsString

/-! ## Comparison -/

/-- The loop of `compareUnicodeCodePoints`, on what is left of the two lists. -/
def comparePoints : List ℕ → List ℕ → ℤ
  | leftPoint :: left, rightPoint :: right =>
    if leftPoint ≠ rightPoint then (leftPoint : ℤ) - rightPoint else comparePoints left right
  | left, right => (left.length : ℤ) - right.length

def compareUnicodeCodePoints (left right : JsString) : ℤ :=
  comparePoints left.codePoints.codes right.codePoints.codes

/-- `keys.sort(compareUnicodeCodePoints)`, with what belongs to the keys. -/
def sortKeys {β : Type} (fields : List (JsString × β)) : List (JsString × β) :=
  fields.insertionSort fun f g ↦ compareUnicodeCodePoints f.1 g.1 ≤ 0

/-! ## Values -/

/-- `JsonValue`, with integers for its numbers. -/
inductive JsValue
  | null
  | boolean (b : Bool)
  | number (n : ℤ)
  | string (s : JsString)
  | array (items : List JsValue)
  | object (fields : List (JsString × JsValue))

namespace JsValue

/-- Induction over a value, with the claim for every part of a collection. -/
@[elab_as_elim]
theorem induction {P : JsValue → Prop} (null : P .null) (boolean : ∀ b, P (.boolean b))
    (number : ∀ n, P (.number n)) (string : ∀ s, P (.string s))
    (array : ∀ items, (∀ x ∈ items, P x) → P (.array items))
    (object : ∀ fields, (∀ f ∈ fields, P f.2) → P (.object fields)) (v : JsValue) : P v :=
  @JsValue.rec P (fun items ↦ ∀ x ∈ items, P x) (fun fields ↦ ∀ f ∈ fields, P f.2) (fun f ↦ P f.2)
    null boolean number string array object
    (fun _ h ↦ nomatch h) (fun _ _ hx hxs ↦ List.forall_mem_cons.mpr ⟨hx, hxs⟩)
    (fun _ h ↦ nomatch h) (fun _ _ hx hxs ↦ List.forall_mem_cons.mpr ⟨hx, hxs⟩)
    (fun _ _ hx ↦ hx) v

mutual

/-- The value that Python has for the same JSON. -/
def toPython : JsValue → PyValue
  | .null => .none
  | .boolean b => .bool b
  | .number n => .int n
  | .string s => .str s.codePoints
  | .array items => .list (toPythonItems items)
  | .object fields => .dict (toPythonFields fields)

def toPythonItems : List JsValue → List PyValue
  | [] => []
  | x :: xs => toPython x :: toPythonItems xs

def toPythonFields : List (JsString × JsValue) → List (PyKey × PyValue)
  | [] => []
  | (k, x) :: xs => (.str k.codePoints, toPython x) :: toPythonFields xs

end

mutual

/-- The keys of every object in the value are distinct. -/
def Distinct : JsValue → Prop
  | .array items => DistinctItems items
  | .object fields => (fields.map Prod.fst).Nodup ∧ DistinctFields fields
  | .null | .boolean _ | .number _ | .string _ => True

def DistinctItems : List JsValue → Prop
  | [] => True
  | x :: xs => Distinct x ∧ DistinctItems xs

def DistinctFields : List (JsString × JsValue) → Prop
  | [] => True
  | (_, x) :: xs => Distinct x ∧ DistinctFields xs

end

mutual

/-- Every string is as required by the first predicate, every key by the second. -/
def Texts (P K : JsString → Prop) : JsValue → Prop
  | .string s => P s
  | .array items => TextsItems P K items
  | .object fields => TextsFields P K fields
  | .null | .boolean _ | .number _ => True

def TextsItems (P K : JsString → Prop) : List JsValue → Prop
  | [] => True
  | x :: xs => Texts P K x ∧ TextsItems P K xs

def TextsFields (P K : JsString → Prop) : List (JsString × JsValue) → Prop
  | [] => True
  | (k, x) :: xs => K k ∧ Texts P K x ∧ TextsFields P K xs

end

end JsValue

/-! ## Normalization -/

def maxSafeInteger : ℕ := 9007199254740991

def maxCanonicalDepth : ℕ := 8

def maxCanonicalItems : ℕ := 256

def maxCanonicalStringBytes : ℕ := 16384

/-- The engine that runs the code: `value.normalize('NFC') === value`. Its version of Unicode need
not be the one of Python. -/
class JavaScript where
  isNfc : JsString → Bool

section Normalize

variable [JavaScript]

/-- The string branch of `normalize`; an exception is the message of its `TypeError`. -/
def normalizeString (depth : ℕ) (s : JsString) : Except String JsString :=
  if maxCanonicalDepth < depth then .error "canonical value exceeds nesting limit"
  else if !JavaScript.isNfc s then .error "strings must already be Unicode NFC"
  else if maxCanonicalStringBytes < s.byteLength then .error "string exceeds canonical byte limit"
  else .ok s

def protoKey : JsString := .ofAscii "__proto__"

/-- `output[key] = item` on an object that does not have the key. An assignment to `__proto__` goes
to the setter that every object inherits, which may change the prototype and makes no property. -/
def assign (key : JsString) (item : JsValue) (output : List (JsString × JsValue)) :
    List (JsString × JsValue) :=
  if key = protoKey then output else (key, item) :: output

namespace JsValue

/-- The loop over the sorted keys of an object. -/
def normalizeEntries (depth : ℕ) :
    List (JsString × Except String JsValue) → Except String (List (JsString × JsValue))
  | [] => .ok []
  | (key, item) :: rest => do
    let _ ← normalizeString depth key
    let item ← item
    let rest ← normalizeEntries depth rest
    return assign key item rest

mutual

/-- `normalize`. Values are trees, so there is no cycle to detect. -/
def normalize (depth : ℕ) : JsValue → Except String JsValue
  | .null =>
    if maxCanonicalDepth < depth then .error "canonical value exceeds nesting limit" else .ok .null
  | .boolean b =>
    if maxCanonicalDepth < depth then .error "canonical value exceeds nesting limit"
    else .ok (.boolean b)
  | .string s => (normalizeString depth s).map .string
  | .number n =>
    if maxCanonicalDepth < depth then .error "canonical value exceeds nesting limit"
    else if maxSafeInteger < n.natAbs then .error "integer exceeds the interoperable exact range"
    else .ok (.number n)
  | .array items =>
    if maxCanonicalDepth < depth then .error "canonical value exceeds nesting limit"
    else if maxCanonicalItems < items.length then .error "array exceeds canonical item limit"
    else (normalizeItems (depth + 1) items).map .array
  | .object fields =>
    if maxCanonicalDepth < depth then .error "canonical value exceeds nesting limit"
    else if maxCanonicalItems < fields.length then .error "object exceeds canonical item limit"
    else
      (normalizeEntries (depth + 1) (sortKeys (normalizeFields (depth + 1) fields))).map .object

def normalizeItems (depth : ℕ) : List JsValue → Except String (List JsValue)
  | [] => .ok []
  | x :: xs => do
    let x ← normalize depth x
    let xs ← normalizeItems depth xs
    return x :: xs

def normalizeFields (depth : ℕ) :
    List (JsString × JsValue) → List (JsString × Except String JsValue)
  | [] => []
  | (k, x) :: xs => (k, normalize depth x) :: normalizeFields depth xs

end

end JsValue

end Normalize

/-! ## Serialization -/

/-- Four hexadecimal digits. -/
def unicodeEscape (n : ℕ) : List Char :=
  ['\\', 'u', Sha256.hexDigit (n / 0x1000 % 16), Sha256.hexDigit (n / 0x100 % 16),
    Sha256.hexDigit (n / 0x10 % 16), Sha256.hexDigit (n % 16)]

/-- A code point in the text of `JSON.stringify`. -/
def stringifyPoint : CodePoint → List Char
  | .surrogate n => unicodeEscape (0xd800 + n)
  | .scalar c =>
    if c.toNat = 0x08 then ['\\', 'b']
    else if c.toNat = 0x09 then ['\\', 't']
    else if c.toNat = 0x0a then ['\\', 'n']
    else if c.toNat = 0x0c then ['\\', 'f']
    else if c.toNat = 0x0d then ['\\', 'r']
    else if c.toNat = 0x22 then ['\\', '"']
    else if c.toNat = 0x5c then ['\\', '\\']
    else if c.toNat < 0x20 then unicodeEscape c.toNat
    else [c]

/-- `JSON.stringify` of a string. Its text is well formed, so it is given by its characters. -/
def stringify (s : JsString) : List Char := '"' :: s.codePoints.flatMap stringifyPoint ++ ['"']

namespace JsValue

/-- `texts.join(',')`. -/
def joinComma (texts : List (List Char)) : List Char := List.intercalate [','] texts

mutual

/-- `serialize`. -/
def serialize : JsValue → List Char
  | .null => "null".toList
  | .boolean true => "true".toList
  | .boolean false => "false".toList
  | .number n => dumpsInt n
  | .string s => stringify s
  | .array items => '[' :: joinComma (serializeItems items) ++ [']']
  | .object fields =>
    '\x7b' :: joinComma ((sortKeys (serializeFields fields)).map fun f ↦ stringify f.1 ++
      ':' :: f.2) ++
      ['\x7d']

def serializeItems : List JsValue → List (List Char)
  | [] => []
  | x :: xs => serialize x :: serializeItems xs

def serializeFields : List (JsString × JsValue) → List (JsString × List Char)
  | [] => []
  | (k, x) :: xs => (k, serialize x) :: serializeFields xs

end

/-- `canonicalBytes`. -/
def canonicalBytes [JavaScript] (v : JsValue) : Except String (List ℕ) :=
  (v.normalize 0).map fun w ↦ encodeUtf8 w.serialize

end JsValue

end EventHorizon.Attestation
