import EventHorizon.Canonical.Patterns
import Mathlib.Data.List.Sort

/-!
# JSON values and the canonical form

`canonical.py` accepts the Python values that JSON can express, refuses those outside the
interoperable range, and spells the rest in one way: object keys sorted, no insignificant space.
This module has the values, the refusals, and the canonical form as a tree. The bytes that spell
a canonical tree, and their SHA-256 digest, are in `EventHorizon.Canonical.Digest`.

Objects are association lists, read by the first binding of a key. Whether a string is already in
Unicode normal form C is a question for `unicodedata`; it is a field of `Platform`, so that the
results below hold whatever its tables say.
-/

namespace EventHorizon

/-- The exception classes that the modelled code raises or catches. -/
inductive ExnClass
  | valueError
  | typeError
  | keyError
  | overflowError
  | canonicalizationError
  | validationError
  | sqliteError
  | raftCoreError
  | raftCoreUnavailable
  | raftUnavailableError
  | databaseError
  | capabilityConsumptionError
  | replayProtocolError
  | replayStateError
  | replayUnavailableError
  | policyCompilationError
  | decayError
  | attributeError
  | capabilityError
  | guardianAuthorityError
  | protocolError
  | authorizationDenied
  | stopIteration
  | policySynthesisError
  | effectJournalError
  | effectAlreadyReserved
  | fencedRecipientError
  | fencedRecipientBindingError
  | unicodeEncodeError
  | recorderIntegrityError
  | distributedEvidenceError
  | structError
  | runtimeError
  | hardwareFailSafeError
  | emergencyStopError
  | invalidSignature
  | keyManagementError
  | behavioralStateError
  | permissionError
  | externalWriteError
  | transactionError
  | osError
  | gatewayEvidenceContractError
  | authorizationReplayError
  deriving DecidableEq, Repr

/-- A raised exception: its class and its message. -/
structure Exn where
  /-- The class of the exception. -/
  cls : ExnClass
  /-- The message it carries. -/
  message : String
  deriving DecidableEq, Repr

/-- A Python `float`: what `canonical.py` asks of it, its shortest decimal text, and the text that a
database makes of it. -/
structure FloatValue where
  /-- Neither an infinity nor a NaN. -/
  isFinite : Bool
  /-- The value `-0.0`. -/
  isNegativeZero : Bool
  /-- The integer that compares equal to it, if there is one. -/
  integer : Option ℤ
  /-- The text `json.dumps` writes. -/
  text : String
  /-- The text SQLite keeps in a column of texts, which has 15 significant digits. -/
  sqlText : String
  deriving DecidableEq, Repr

/-- The values JSON can express. -/
inductive Json
  | null
  | bool (b : Bool)
  | int (n : ℤ)
  | float (f : FloatValue)
  | str (s : String)
  | arr (xs : List Json)
  | obj (fields : List (String × Json))
  deriving Repr

namespace Json

/-! ## Decidable equality -/

mutual

def decEq : (a b : Json) → Decidable (a = b)
  | .null, .null => isTrue rfl
  | .bool a, .bool b => decidable_of_iff (a = b) (by simp)
  | .int a, .int b => decidable_of_iff (a = b) (by simp)
  | .float a, .float b => decidable_of_iff (a = b) (by simp)
  | .str a, .str b => decidable_of_iff (a = b) (by simp)
  | .arr a, .arr b => @decidable_of_iff _ (a = b) (by simp) (decEqItems a b)
  | .obj a, .obj b => @decidable_of_iff _ (a = b) (by simp) (decEqFields a b)
  | .null, .bool _ | .null, .int _ | .null, .float _ | .null, .str _ | .null, .arr _
  | .null, .obj _ | .bool _, .null | .bool _, .int _ | .bool _, .float _ | .bool _, .str _
  | .bool _, .arr _ | .bool _, .obj _ | .int _, .null | .int _, .bool _ | .int _, .float _
  | .int _, .str _ | .int _, .arr _ | .int _, .obj _ | .float _, .null | .float _, .bool _
  | .float _, .int _ | .float _, .str _ | .float _, .arr _ | .float _, .obj _ | .str _, .null
  | .str _, .bool _ | .str _, .int _ | .str _, .float _ | .str _, .arr _ | .str _, .obj _
  | .arr _, .null | .arr _, .bool _ | .arr _, .int _ | .arr _, .float _ | .arr _, .str _
  | .arr _, .obj _ | .obj _, .null | .obj _, .bool _ | .obj _, .int _ | .obj _, .float _
  | .obj _, .str _ | .obj _, .arr _ => isFalse (by simp)

def decEqItems : (a b : List Json) → Decidable (a = b)
  | [], [] => isTrue rfl
  | [], _ :: _ => isFalse (by simp)
  | _ :: _, [] => isFalse (by simp)
  | x :: xs, y :: ys =>
    @decidable_of_iff _ (x = y ∧ xs = ys) (by simp)
      (@instDecidableAnd _ _ (decEq x y) (decEqItems xs ys))

def decEqFields : (a b : List (String × Json)) → Decidable (a = b)
  | [], [] => isTrue rfl
  | [], _ :: _ => isFalse (by simp)
  | _ :: _, [] => isFalse (by simp)
  | (k, x) :: xs, (l, y) :: ys =>
    @decidable_of_iff _ (k = l ∧ x = y ∧ xs = ys) (by simp [and_assoc])
      (@instDecidableAnd _ _ inferInstance
        (@instDecidableAnd _ _ (decEq x y) (decEqFields xs ys)))

end

instance : DecidableEq Json := decEq

/-! ## Reading values -/

/-- `value.get(key)` on an object's fields. -/
def lookup (fields : List (String × Json)) (key : String) : Option Json := fields.lookup key

/-- `value.get(key)`, with nothing for a value that is not an object. -/
def get? (key : String) : Json → Option Json
  | .obj fields => lookup fields key
  | _ => none

/-- `isinstance(value, str)`. -/
def str? : Json → Option String
  | .str s => some s
  | _ => none

/-- `type(value) is int`: a `bool` is not one. -/
def int? : Json → Option ℤ
  | .int n => some n
  | _ => none

/-- `isinstance(value, Mapping)`. -/
def fields? : Json → Option (List (String × Json))
  | .obj fields => some fields
  | _ => none

/-- `set(value) == names` for a mapping: its keys are exactly the given ones. -/
def hasExactFields (fields : List (String × Json)) (names : List String) : Bool :=
  (fields.all fun f ↦ f.1 ∈ names) && names.all fun n ↦ n ∈ fields.map Prod.fst

/-- Inserts a field before the first one with a larger key. -/
def orderedInsert {β : Type*} (f : String × β) : List (String × β) → List (String × β)
  | [] => [f]
  | g :: gs => if f.1 ≤ g.1 then f :: g :: gs else g :: orderedInsert f gs

/-- The fields in the order of their keys. -/
def sortFields {β : Type*} (fields : List (String × β)) : List (String × β) :=
  fields.foldr orderedInsert []

/-! ### Python equality

`==` on parsed JSON ignores the order of object fields and identifies `True` with `1`, `False`
with `0`, and a whole `float` with its integer. It is equality of the normal forms below. -/

mutual

def normalize : Json → Json
  | .bool b => .int (if b then 1 else 0)
  | .arr xs => .arr (normalizeItems xs)
  | .obj fields => .obj (sortFields (normalizeFields fields))
  | .null => .null
  | .int n => .int n
  | .float f =>
    match f.integer with
    | some n => .int n
    | none => .float f
  | .str s => .str s

def normalizeItems : List Json → List Json
  | [] => []
  | x :: xs => normalize x :: normalizeItems xs

def normalizeFields : List (String × Json) → List (String × Json)
  | [] => []
  | (k, x) :: xs => (k, normalize x) :: normalizeFields xs

end

/-- Python's `a == b`. -/
def pyEq (a b : Json) : Bool := a.normalize = b.normalize

@[simp] theorem pyEq_self (a : Json) : a.pyEq a = true := by simp [pyEq]

end Json

/-! ## The canonical form -/

/-- The standard-library services the canonical form and its digest depend on. -/
class Platform where
  /-- `unicodedata.normalize("NFC", s) == s`. -/
  isNfc : String → Bool
  /-- `hashlib.sha256(data).hexdigest()`. -/
  sha256 : List ℕ → String
  /-- ASCII text is in normal form C. -/
  isNfc_of_isAscii : ∀ s, isAscii s = true → isNfc s = true
  /-- A digest is 64 lowercase hexadecimal digits. -/
  isDigest_sha256 : ∀ data, isDigest (sha256 data) = true

def maxSafeInteger : ℕ := 9007199254740991

def maxCanonicalDepth : ℕ := 8

def maxCanonicalItems : ℕ := 256

def maxCanonicalStringBytes : ℕ := 16384

section Canonical

variable [Platform]

private def refuse (message : String) : Exn := ⟨.canonicalizationError, message⟩

/-- The string branch of `_canonical_value`. -/
def canonicalString (depth : ℕ) (s : String) : Except Exn String :=
  if maxCanonicalDepth < depth then .error (refuse "canonical value exceeds nesting limit")
  else if !Platform.isNfc s then .error (refuse "strings must already be Unicode NFC")
  else if maxCanonicalStringBytes < s.utf8ByteSize then
    .error (refuse "string exceeds canonical byte limit")
  else .ok s

/-- Canonical values of the fields of an object whose keys are checked in sorted order: the first
refusal in that order is the one that is raised. -/
def canonicalEntries (depth : ℕ) :
    List (String × Except Exn Json) → Except Exn (List (String × Json))
  | [] => .ok []
  | (k, v) :: rest => do
    let k ← canonicalString depth k
    let v ← v
    let rest ← canonicalEntries depth rest
    return (k, v) :: rest

mutual

/-- `_canonical_value`. Values are trees, so there is no cycle to detect. -/
def canonicalValue (depth : ℕ) : Json → Except Exn Json
  | .null =>
    if maxCanonicalDepth < depth then .error (refuse "canonical value exceeds nesting limit")
    else .ok .null
  | .bool b =>
    if maxCanonicalDepth < depth then .error (refuse "canonical value exceeds nesting limit")
    else .ok (.bool b)
  | .int n =>
    if maxCanonicalDepth < depth then .error (refuse "canonical value exceeds nesting limit")
    else if maxSafeInteger < n.natAbs then
      .error (refuse "integer exceeds the interoperable exact range")
    else .ok (.int n)
  | .float f =>
    if maxCanonicalDepth < depth then .error (refuse "canonical value exceeds nesting limit")
    else if !f.isFinite then .error (refuse "non-finite values are not permitted")
    else if f.isNegativeZero then .error (refuse "negative zero is not permitted")
    else .ok (.float f)
  | .str s => (canonicalString depth s).map .str
  | .arr xs =>
    if maxCanonicalDepth < depth then .error (refuse "canonical value exceeds nesting limit")
    else if maxCanonicalItems < xs.length then
      .error (refuse "array exceeds canonical item limit")
    else (canonicalItems (depth + 1) xs).map .arr
  | .obj fields =>
    if maxCanonicalDepth < depth then .error (refuse "canonical value exceeds nesting limit")
    else if maxCanonicalItems < fields.length then
      .error (refuse "object exceeds canonical item limit")
    else
      (canonicalEntries (depth + 1)
        (Json.sortFields (canonicalFields (depth + 1) fields))).map .obj

def canonicalItems (depth : ℕ) : List Json → Except Exn (List Json)
  | [] => .ok []
  | x :: xs => do
    let x ← canonicalValue depth x
    let xs ← canonicalItems depth xs
    return x :: xs

def canonicalFields (depth : ℕ) : List (String × Json) → List (String × Except Exn Json)
  | [] => []
  | (k, x) :: xs => (k, canonicalValue depth x) :: canonicalFields depth xs

end

section

-- the equations are made here once, not in each of the proofs that follow
attribute [local simp] canonicalEntries canonicalValue canonicalItems canonicalFields

end

/-- The canonical form of a value, which `canonical_bytes` spells. -/
def canonical (v : Json) : Except Exn Json := canonicalValue 0 v

end Canonical

end EventHorizon
