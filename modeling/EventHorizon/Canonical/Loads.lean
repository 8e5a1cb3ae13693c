import EventHorizon.Canonical.Python

/-!
# Reading JSON

`json.loads` on text, and the strict UTF-8 decoding before it. The decoder of the standard library
takes hooks: what to make of the items of an object, of a number with a fraction or an exponent, and
of the constants `NaN`, `Infinity` and `-Infinity`. A hook may raise, and it is called as soon as
the text it is about has been read, so the first exception in the text is the one that is raised.

The scanner recurses twice for each level of nesting, and once for each further item. It is given a
bound on this, twice the length of the text, and no text reaches it (`scanOnce_eq_of_le`); the
interpreter's own recursion limit is not modelled.
-/

namespace EventHorizon

/-! ## UTF-8 -/

/-- A continuation octet of UTF-8. -/
def isContinuation (b : ℕ) : Bool := 0x80 ≤ b && b < 0xc0

/-- The scalar value `n`, when it is one and not less than `low`. -/
def scalarFrom (low n : ℕ) : Option Char :=
  if low ≤ n ∧ n.isValidChar then some (Char.ofNat n) else none

/-- `data.decode("utf-8", errors="strict")`. -/
def decodeUtf8 : List ℕ → Option (List Char)
  | [] => some []
  | a :: rest =>
    if a < 0x80 then (decodeUtf8 rest).map (Char.ofNat a :: ·)
    else match rest with
      | [] => none
      | b :: rest =>
        if !isContinuation b then none
        else if 0xc0 ≤ a ∧ a < 0xe0 then
          (scalarFrom 0x80 ((a - 0xc0) * 0x40 + (b - 0x80))).bind fun c ↦
            (decodeUtf8 rest).map (c :: ·)
        else match rest with
          | [] => none
          | b' :: rest =>
            if !isContinuation b' then none
            else if 0xe0 ≤ a ∧ a < 0xf0 then
              (scalarFrom 0x800
                ((a - 0xe0) * 0x1000 + (b - 0x80) * 0x40 + (b' - 0x80))).bind fun c ↦
                (decodeUtf8 rest).map (c :: ·)
            else match rest with
              | [] => none
              | b'' :: rest =>
                if !isContinuation b'' then none
                else if 0xf0 ≤ a ∧ a < 0xf8 then
                  (scalarFrom 0x10000
                    ((a - 0xf0) * 0x40000 + (b - 0x80) * 0x1000 + (b' - 0x80) * 0x40 +
                      (b'' - 0x80))).bind fun c ↦
                    (decodeUtf8 rest).map (c :: ·)
                else none

/-- `text.encode("utf-8")`. -/
def encodeUtf8 (text : List Char) : List ℕ := text.flatMap utf8Octets

theorem scalarFrom_toNat {low : ℕ} {c : Char} (h : low ≤ c.toNat) :
    scalarFrom low c.toNat = some c := by
  rw [scalarFrom, if_pos ⟨h, c.valid⟩, Char.ofNat_toNat]

/-- Decoding reads back one character at a time what was encoded. -/
theorem decodeUtf8_append (c : Char) (rest : List ℕ) :
    decodeUtf8 (utf8Octets c ++ rest) = (decodeUtf8 rest).map (c :: ·) := by
  have hlt : c.toNat < 0x110000 := by
    have hvalid := c.valid
    simp only [UInt32.isValidChar, Nat.isValidChar] at hvalid
    have hval : c.toNat = c.val.toNat := rfl
    omega
  have hcont : ∀ n, isContinuation (0x80 + n % 0x40) = true := by
    intro n
    simp only [isContinuation, Bool.and_eq_true, decide_eq_true_eq]
    omega
  rw [utf8Octets]
  -- One case for each length of an encoding.
  by_cases h1 : c.toNat < 0x80
  · rw [if_pos h1, List.cons_append, List.nil_append, decodeUtf8.eq_def]
    simp only
    rw [if_pos h1, Char.ofNat_toNat]
  rw [if_neg h1]
  by_cases h2 : c.toNat < 0x800
  · have hval : (0xc0 + c.toNat / 0x40 - 0xc0) * 0x40 + (0x80 + c.toNat % 0x40 - 0x80) =
        c.toNat := by omega
    rw [if_pos h2, List.cons_append, List.cons_append, List.nil_append,
      decodeUtf8.eq_def]
    simp only
    rw [if_neg (by omega), hcont, if_neg (by simp), if_pos (by omega), hval,
      scalarFrom_toNat (by omega)]
    rfl
  rw [if_neg h2]
  by_cases h3 : c.toNat < 0x10000
  · have hval : (0xe0 + c.toNat / 0x1000 - 0xe0) * 0x1000 +
        (0x80 + c.toNat / 0x40 % 0x40 - 0x80) * 0x40 + (0x80 + c.toNat % 0x40 - 0x80) =
        c.toNat := by omega
    rw [if_pos h3, List.cons_append, List.cons_append, List.cons_append, List.nil_append,
      decodeUtf8.eq_def]
    simp only
    rw [if_neg (by omega), hcont, if_neg (by simp), if_neg (by omega), hcont,
      if_neg (by simp), if_pos (by omega), hval, scalarFrom_toNat (by omega)]
    rfl
  · have hval : (0xf0 + c.toNat / 0x40000 - 0xf0) * 0x40000 +
        (0x80 + c.toNat / 0x1000 % 0x40 - 0x80) * 0x1000 +
        (0x80 + c.toNat / 0x40 % 0x40 - 0x80) * 0x40 + (0x80 + c.toNat % 0x40 - 0x80) =
        c.toNat := by omega
    rw [if_neg h3, List.cons_append, List.cons_append, List.cons_append, List.cons_append,
      List.nil_append, decodeUtf8.eq_def]
    simp only
    rw [if_neg (by omega), hcont, if_neg (by simp), if_neg (by omega),
      hcont, if_neg (by simp), if_neg (by omega), hcont, if_neg (by simp), if_pos (by omega), hval,
      scalarFrom_toNat (by omega)]
    rfl

theorem decodeUtf8_encodeUtf8 (text : List Char) : decodeUtf8 (encodeUtf8 text) = some text := by
  induction text with
  | nil => rfl
  | cons c text ih => rw [encodeUtf8, List.flatMap_cons, decodeUtf8_append, ← encodeUtf8, ih]; rfl

theorem scalarFrom_ofNat (n : ℕ) (h : n < 0x80) : scalarFrom 0 n = some (Char.ofNat n) :=
  if_pos ⟨Nat.zero_le n, Or.inl (by omega)⟩

theorem toNat_of_scalarFrom {low n : ℕ} {c : Char} (h : scalarFrom low n = some c) :
    c.toNat = n ∧ low ≤ n := by
  rw [scalarFrom] at h
  split at h
  case isTrue hn =>
    rw [← Option.some.inj h]
    refine ⟨?_, hn.1⟩
    rw [Char.ofNat, dif_pos hn.2]
    rfl
  case isFalse => cases h

theorem encodeUtf8_cons (c : Char) (text : List Char) :
    encodeUtf8 (c :: text) = utf8Octets c ++ encodeUtf8 text := List.flatMap_cons

/-- Strict decoding accepts only what encoding writes. -/
theorem encodeUtf8_of_decodeUtf8 {data : List ℕ} {text : List Char}
    (h : decodeUtf8 data = some text) : encodeUtf8 text = data := by
  have hcont : ∀ {b}, ¬(!isContinuation b) = true → 0x80 ≤ b ∧ b < 0xc0 := by
    intro b hb
    simpa [isContinuation] using hb
  fun_induction decodeUtf8 data generalizing text with
  | case1 =>
    rw [← Option.some.inj h]
    rfl
  | case2 a rest ha ih =>
    obtain ⟨text', htext, rfl⟩ := Option.map_eq_some_iff.mp h
    have hc : (Char.ofNat a).toNat = a :=
      (toNat_of_scalarFrom (scalarFrom_ofNat a ha)).1
    rw [encodeUtf8_cons, ih htext, utf8Octets, hc, if_pos ha, List.singleton_append]
  | case5 a ha b rest hb hle ih =>
    obtain ⟨c, hc, hmap⟩ := Option.bind_eq_some_iff.mp h
    obtain ⟨text', htext, rfl⟩ := Option.map_eq_some_iff.mp hmap
    obtain ⟨hval, hlow⟩ := toNat_of_scalarFrom hc
    have hb := hcont hb
    rw [encodeUtf8_cons, ih htext, utf8Octets, hval, if_neg (by omega), if_pos (by omega)]
    have h1 : 0xc0 + ((a - 0xc0) * 0x40 + (b - 0x80)) / 0x40 = a := by omega
    have h2 : 0x80 + ((a - 0xc0) * 0x40 + (b - 0x80)) % 0x40 = b := by omega
    rw [h1, h2]
    rfl
  | case8 a ha b hb hle b' rest hb' hle' ih =>
    obtain ⟨c, hc, hmap⟩ := Option.bind_eq_some_iff.mp h
    obtain ⟨text', htext, rfl⟩ := Option.map_eq_some_iff.mp hmap
    obtain ⟨hval, hlow⟩ := toNat_of_scalarFrom hc
    have hb := hcont hb
    have hb' := hcont hb'
    rw [encodeUtf8_cons, ih htext, utf8Octets, hval, if_neg (by omega), if_neg (by omega),
      if_pos (by omega)]
    have h1 : 0xe0 + ((a - 0xe0) * 0x1000 + (b - 0x80) * 0x40 + (b' - 0x80)) / 0x1000 = a := by
      omega
    have h2 : 0x80 + ((a - 0xe0) * 0x1000 + (b - 0x80) * 0x40 + (b' - 0x80)) / 0x40 % 0x40 =
        b := by omega
    have h3 : 0x80 + ((a - 0xe0) * 0x1000 + (b - 0x80) * 0x40 + (b' - 0x80)) % 0x40 = b' := by
      omega
    rw [h1, h2, h3]
    rfl
  | case11 a ha b hb hle b' hb' hle' b'' rest hb'' hle'' ih =>
    obtain ⟨c, hc, hmap⟩ := Option.bind_eq_some_iff.mp h
    obtain ⟨text', htext, rfl⟩ := Option.map_eq_some_iff.mp hmap
    obtain ⟨hval, hlow⟩ := toNat_of_scalarFrom hc
    have hb := hcont hb
    have hb' := hcont hb'
    have hb'' := hcont hb''
    rw [encodeUtf8_cons, ih htext, utf8Octets, hval, if_neg (by omega), if_neg (by omega),
      if_neg (by omega)]
    set n := (a - 0xf0) * 0x40000 + (b - 0x80) * 0x1000 + (b' - 0x80) * 0x40 + (b'' - 0x80) with hn
    have h1 : 0xf0 + n / 0x40000 = a := by omega
    have h2 : 0x80 + n / 0x1000 % 0x40 = b := by omega
    have h3 : 0x80 + n / 0x40 % 0x40 = b' := by omega
    have h4 : 0x80 + n % 0x40 = b'' := by omega
    rw [h1, h2, h3, h4]
    rfl
  | case3 | case4 | case6 | case7 | case9 | case10 | case12 => cases h

/-! ## Hooks and exceptions -/

/-- How `json.loads` fails, with the exceptions of the hooks in `ε`. -/
inductive LoadError (ε : Type)
  /-- `json.JSONDecodeError`. -/
  | malformed
  /-- The `ValueError` of `int` on a text of too many digits. -/
  | digits
  /-- An exception of a hook. -/
  | raised (e : ε)
  deriving DecidableEq, Repr

/-- The hooks of `json.loads`. -/
structure Hooks (ε : Type) where
  /-- `object_pairs_hook`. -/
  pairs : List (PyStr × PyValue) → Except ε PyValue
  /-- `parse_float`. -/
  float : List Char → Except ε PyValue
  /-- `parse_constant`. -/
  constant : String → Except ε PyValue

/-- What a hook raises passes through the decoder. -/
def raising {ε α : Type} (x : Except ε α) : Except (LoadError ε) α := x.mapError .raised

/-! ## Scanning -/

def isSpace (c : Char) : Bool := c = ' ' || c = '\t' || c = '\n' || c = '\r'

def skipSpace (text : List Char) : List Char := text.dropWhile isSpace

/-- The rest of a text that starts with the given literal. -/
def strip? (literal : String) (text : List Char) : Option (List Char) :=
  if literal.toList.isPrefixOf text then some (text.drop literal.toList.length) else none

def hexValue? (c : Char) : Option ℕ :=
  if '0' ≤ c && c ≤ '9' then some (c.toNat - 48)
  else if 'a' ≤ c && c ≤ 'f' then some (c.toNat - 87)
  else if 'A' ≤ c && c ≤ 'F' then some (c.toNat - 55)
  else none

/-- The code unit that four hexadecimal digits name. -/
def codeUnit? (a b c d : Char) : Option CodePoint := do
  let a ← hexValue? a
  let b ← hexValue? b
  let c ← hexValue? c
  let d ← hexValue? d
  let n := a * 0x1000 + b * 0x100 + c * 0x10 + d
  if h : 0xd800 ≤ n ∧ n < 0xe000 then return .surrogate ⟨n - 0xd800, by omega⟩
  else return .scalar (Char.ofNat n)

/-- The character that a letter after a backslash names. -/
def escaped? (c : Char) : Option Char :=
  match c with
  | '"' => some '"'
  | '\\' => some '\\'
  | '/' => some '/'
  | 'b' => some (Char.ofNat 8)
  | 'f' => some (Char.ofNat 12)
  | 'n' => some '\n'
  | 'r' => some '\r'
  | 't' => some '\t'
  | _ => none

/-- Puts a code unit before a string: a high and a low surrogate are one scalar value. -/
def consUnit : CodePoint → PyStr → PyStr
  | .surrogate n, .surrogate m :: rest =>
    if (n : ℕ) < 0x400 ∧ 0x400 ≤ (m : ℕ) then
      .scalar (Char.ofNat (0x10000 + n * 0x400 + (m - 0x400))) :: rest
    else .surrogate n :: .surrogate m :: rest
  | c, rest => c :: rest

def joinSurrogates (units : List CodePoint) : PyStr := units.foldr consUnit []

section Scan

variable {ε : Type}

/-- The code units of a string after its opening quote, and the text after the closing one. -/
def scanUnits : List Char → Except (LoadError ε) (List CodePoint × List Char)
  | [] => .error .malformed
  | '"' :: rest => .ok ([], rest)
  | '\\' :: 'u' :: a :: b :: c :: d :: rest =>
    match codeUnit? a b c d with
    | none => .error .malformed
    | some u => (scanUnits rest).map fun s ↦ (u :: s.1, s.2)
  | '\\' :: e :: rest =>
    match escaped? e with
    | none => .error .malformed
    | some c => (scanUnits rest).map fun s ↦ (.scalar c :: s.1, s.2)
  | c :: rest =>
    if c.toNat < 0x20 ∨ c = '\\' then .error .malformed
    else (scanUnits rest).map fun s ↦ (.scalar c :: s.1, s.2)

/-- `scanstring`. -/
def scanString (text : List Char) : Except (LoadError ε) (PyStr × List Char) :=
  (scanUnits text).map fun s ↦ (joinSurrogates s.1, s.2)

/-! ### Numbers -/

/-- `(?:0|[1-9][0-9]*)` -/
def matchDigits : List Char → Option (List Char × List Char)
  | [] => none
  | c :: rest =>
    if c = '0' then some (['0'], rest)
    else if c.isDigit then some (c :: rest.takeWhile Char.isDigit, rest.dropWhile Char.isDigit)
    else none

/-- `-?(?:0|[1-9][0-9]*)` -/
def matchInteger : List Char → Option (List Char × List Char)
  | [] => none
  | c :: rest =>
    if c = '-' then (matchDigits rest).map fun s ↦ ('-' :: s.1, s.2) else matchDigits (c :: rest)

/-- `(\.[0-9]+)?` -/
def matchFraction : List Char → List Char × List Char
  | [] => ([], [])
  | c :: rest =>
    if c = '.' ∧ rest.takeWhile Char.isDigit ≠ [] then
      (c :: rest.takeWhile Char.isDigit, rest.dropWhile Char.isDigit)
    else ([], c :: rest)

/-- `[-+]?` -/
def matchSign : List Char → List Char × List Char
  | [] => ([], [])
  | c :: rest => if c = '-' ∨ c = '+' then ([c], rest) else ([], c :: rest)

/-- `([eE][-+]?[0-9]+)?` -/
def matchExponent : List Char → List Char × List Char
  | [] => ([], [])
  | c :: rest =>
    if (c = 'e' ∨ c = 'E') ∧ (matchSign rest).2.takeWhile Char.isDigit ≠ [] then
      (c :: (matchSign rest).1 ++ (matchSign rest).2.takeWhile Char.isDigit,
        (matchSign rest).2.dropWhile Char.isDigit)
    else ([], c :: rest)

/-- The integer part of a number, its fraction and exponent, and the text after it. -/
def matchNumber (text : List Char) : Option (List Char × List Char × List Char) := do
  let (integer, rest) ← matchInteger text
  let (fraction, rest) := matchFraction rest
  let (exponent, rest) := matchExponent rest
  return (integer, fraction ++ exponent, rest)

/-- The digits that `int` converts at most (`sys.int_info.default_max_str_digits`). -/
def maxStrDigits : ℕ := 4300

/-- `int(text)` on the text of an integer. -/
def parseInt (text : List Char) : Except (LoadError ε) PyValue :=
  let digits := text.filter Char.isDigit
  if maxStrDigits < digits.length then .error .digits
  else
    let n : ℤ := Nat.ofDigitChars 10 digits 0
    .ok (.int (if text.head? = some '-' then -n else n))

/-! ### Values -/

variable (hooks : Hooks ε)

/-- The values that are neither strings nor collections. -/
def scanScalar (text : List Char) : Except (LoadError ε) (PyValue × List Char) :=
  match strip? "null" text with
  | some rest => .ok (.none, rest)
  | none =>
  match strip? "true" text with
  | some rest => .ok (.bool true, rest)
  | none =>
  match strip? "false" text with
  | some rest => .ok (.bool false, rest)
  | none =>
  match strip? "NaN" text with
  | some rest => (raising (hooks.constant "NaN")).map (·, rest)
  | none =>
  match strip? "Infinity" text with
  | some rest => (raising (hooks.constant "Infinity")).map (·, rest)
  | none =>
  match strip? "-Infinity" text with
  | some rest => (raising (hooks.constant "-Infinity")).map (·, rest)
  | none =>
  match matchNumber text with
  | none => .error .malformed
  | some (integer, tail, rest) =>
    if tail = [] then (parseInt integer).map (·, rest)
    else (raising (hooks.float (integer ++ tail))).map (·, rest)

mutual

/-- `scan_once`. The bound is on the nesting of calls. -/
def scanOnce : ℕ → List Char → Except (LoadError ε) (PyValue × List Char)
  | 0, _ => .error .malformed
  | _ + 1, [] => .error .malformed
  | n + 1, c :: rest =>
    if c = '"' then (scanString rest).map fun s ↦ (.str s.1, s.2)
    else if c = '\x7b' then
      match skipSpace rest with
      | [] => .error .malformed
      | d :: rest' =>
        if d = '\x7d' then (raising (hooks.pairs [])).map (·, rest')
        else do
          let (pairs, rest) ← scanPairs n (d :: rest')
          let value ← raising (hooks.pairs pairs)
          return (value, rest)
    else if c = '[' then
      match skipSpace rest with
      | [] => .error .malformed
      | d :: rest' =>
        if d = ']' then .ok (.list [], rest')
        else (scanItems n (d :: rest')).map fun s ↦ (.list s.1, s.2)
    else scanScalar hooks (c :: rest)

/-- The items of an array, up to its closing bracket. -/
def scanItems : ℕ → List Char → Except (LoadError ε) (List PyValue × List Char)
  | 0, _ => .error .malformed
  | n + 1, text => do
    let (x, rest) ← scanOnce n text
    match skipSpace rest with
    | [] => .error .malformed
    | d :: rest =>
      if d = ']' then return ([x], rest)
      else if d = ',' then do
        let (xs, rest) ← scanItems n (skipSpace rest)
        return (x :: xs, rest)
      else .error .malformed

/-- The items of an object, up to its closing brace. -/
def scanPairs : ℕ → List Char → Except (LoadError ε) (List (PyStr × PyValue) × List Char)
  | 0, _ => .error .malformed
  | _ + 1, [] => .error .malformed
  | n + 1, c :: rest =>
    if c = '"' then do
      let (k, rest) ← scanString rest
      match skipSpace rest with
      | [] => .error .malformed
      | d :: rest =>
        if d = ':' then do
          let (x, rest) ← scanOnce n (skipSpace rest)
          match skipSpace rest with
          | [] => .error .malformed
          | d :: rest =>
            if d = '\x7d' then return ([(k, x)], rest)
            else if d = ',' then do
              let (pairs, rest) ← scanPairs n (skipSpace rest)
              return ((k, x) :: pairs, rest)
            else .error .malformed
        else .error .malformed
    else .error .malformed

end

/-- `json.loads(text, ...)`: one value, with nothing but space around it. -/
def loads (text : List Char) : Except (LoadError ε) PyValue :=
  if text.head? = some (Char.ofNat 0xfeff) then .error .malformed
  else do
    let (value, rest) ← scanOnce hooks (2 * text.length + 2) (skipSpace text)
    if skipSpace rest = [] then return value else .error .malformed

end Scan

/-! ## Strict loading -/

/-- A string as it appears in a message, with a replacement character for each surrogate. -/
def PyStr.display (s : PyStr) : String :=
  String.ofList (s.map fun c ↦ c.char?.getD (Char.ofNat 0xfffd))

/-- The loop of `_object_without_duplicates`, with the items it has put into the result. -/
def collectItems {ε : Type} (duplicate : PyStr → ε) (result : List (PyStr × PyValue)) :
    List (PyStr × PyValue) → Except ε (List (PyStr × PyValue))
  | [] => .ok result
  | f :: rest =>
    if f.1 ∈ result.map Prod.fst then .error (duplicate f.1)
    else collectItems duplicate (result ++ [f]) rest

/-- `_object_without_duplicates`, with the exception for a key that is there already. -/
def objectWithoutDuplicates {ε : Type} (duplicate : PyStr → ε) (pairs : List (PyStr × PyValue)) :
    Except ε PyValue :=
  (collectItems duplicate [] pairs).map fun result ↦ .dict (result.map fun f ↦ (.str f.1, f.2))

/-- The hooks of `strict_json_loads`. -/
def strictHooks : Hooks Exn where
  pairs := objectWithoutDuplicates fun key ↦
    ⟨.canonicalizationError, "duplicate JSON key: " ++ key.display⟩
  float _ := .error ⟨.canonicalizationError, "floating-point JSON values are not permitted"⟩
  constant value :=
    .error ⟨.canonicalizationError, "non-finite JSON value is not permitted: " ++ value⟩

/-- What `strict_json_loads` makes of an exception of the decoder. -/
def strictError : LoadError Exn → Exn
  | .malformed => ⟨.canonicalizationError, "JSON is malformed or contains trailing data"⟩
  | .digits => ⟨.valueError, "Exceeds the limit (4300 digits) for integer string conversion"⟩
  | .raised e => e

/-- The text that `strict_json_loads` decodes. -/
def strictText (data : List ℕ) : Except Exn (List Char) :=
  match decodeUtf8 data with
  | none => .error ⟨.canonicalizationError, "JSON is not valid UTF-8"⟩
  | some text => .ok text

/-- `strict_json_loads` on bytes. -/
def strictJsonLoads [Platform] (data : List ℕ) (requireCanonical : Bool) : Except Exn PyValue := do
  let text ← strictText data
  let value ← (loads strictHooks text).mapError strictError
  let encoded ← value.canonicalBytes
  if requireCanonical ∧ encoded ≠ encodeUtf8 text then
    .error ⟨.canonicalizationError, "JSON input is not in canonical form"⟩
  else return value

/-- The loop passes all items exactly when their keys are distinct. -/
theorem collectItems_eq_ok {ε : Type} {duplicate : PyStr → ε}
    {pairs result result' : List (PyStr × PyValue)} (hresult : (result.map Prod.fst).Nodup) :
    collectItems duplicate result pairs = .ok result' ↔
      ((result ++ pairs).map Prod.fst).Nodup ∧ result' = result ++ pairs := by
  induction pairs generalizing result with
  | nil =>
    rw [collectItems, List.append_nil]
    constructor
    · intro h
      exact ⟨hresult, (Except.ok.inj h).symm⟩
    · rintro ⟨-, rfl⟩
      rfl
  | cons f pairs ih =>
    have happend : result ++ f :: pairs = result ++ [f] ++ pairs := by simp
    rw [collectItems]
    split
    case isTrue hmem =>
      constructor
      · intro h
        cases h
      · rintro ⟨hnodup, -⟩
        rw [List.map_append, List.map_cons] at hnodup
        exact absurd rfl ((List.nodup_append.mp hnodup).2.2 _ hmem _ List.mem_cons_self)
    case isFalse hmem =>
      have hnext : ((result ++ [f]).map Prod.fst).Nodup := by
        rw [List.map_append, List.map_singleton]
        exact List.nodup_append.mpr ⟨hresult, List.nodup_singleton _, by
          rintro a ha b hb rfl
          rw [List.mem_singleton.mp hb] at ha
          exact hmem ha⟩
      rw [ih hnext, happend]

/-- A dictionary is made of items with distinct keys, in their order. -/
theorem objectWithoutDuplicates_eq_ok {ε : Type} {duplicate : PyStr → ε}
    {pairs : List (PyStr × PyValue)} {v : PyValue} :
    objectWithoutDuplicates duplicate pairs = .ok v ↔
      (pairs.map Prod.fst).Nodup ∧ v = .dict (pairs.map fun f ↦ (.str f.1, f.2)) := by
  have hempty : (([] : List (PyStr × PyValue)).map Prod.fst).Nodup := List.nodup_nil
  rw [objectWithoutDuplicates, map_eq_ok]
  constructor
  · rintro ⟨result, hresult, rfl⟩
    obtain ⟨hnodup, rfl⟩ := (collectItems_eq_ok hempty).mp hresult
    exact ⟨hnodup, rfl⟩
  · rintro ⟨hnodup, rfl⟩
    exact ⟨pairs, (collectItems_eq_ok hempty).mpr ⟨hnodup, rfl⟩, rfl⟩

/-! ## What is decoded -/

section Yields

variable {ε α β : Type} {E : ε → Prop}

/-- What holds of the result of the decoder, or of the exception of the hook that ended it. -/
def Yields (P : α → Prop) (E : ε → Prop) : Except (LoadError ε) α → Prop
  | .ok a => P a
  | .error (.raised e) => E e
  | .error .malformed | .error .digits => True

theorem Yields.bind {Q : α → Prop} {P : β → Prop} {x : Except (LoadError ε) α}
    {f : α → Except (LoadError ε) β} (hx : Yields Q E x) (hf : ∀ a, Q a → Yields P E (f a)) :
    Yields P E (x >>= f) := by
  cases x with
  | ok a => exact hf a hx
  | error e => cases e <;> exact hx

theorem Yields.map {Q : α → Prop} {P : β → Prop} {x : Except (LoadError ε) α} {f : α → β}
    (hx : Yields Q E x) (hf : ∀ a, Q a → P (f a)) : Yields P E (x.map f) := by
  cases x with
  | ok a => exact hf a hx
  | error e => cases e <;> exact hx

/-- Scanning a string calls no hook. -/
theorem yields_scanUnits (text : List Char) :
    Yields (fun _ ↦ True) E (scanUnits (ε := ε) text) := by
  fun_induction scanUnits (ε := ε) text with
  | case1 | case3 | case5 | case7 => trivial
  | case2 => trivial
  | case4 a b c d rest u hu ih => exact ih.map fun _ h ↦ h
  | case6 e rest hne c hc ih => exact ih.map fun _ h ↦ h
  | case8 c rest hq hu he hc ih => exact ih.map fun _ h ↦ h

theorem yields_scanString (text : List Char) :
    Yields (fun _ ↦ True) E (scanString (ε := ε) text) :=
  (yields_scanUnits text).map fun _ h ↦ h

/-- A property of values that the decoder builds, and of the exceptions of its hooks. -/
structure Hooks.Builds (hooks : Hooks ε) (P : PyValue → Prop) (E : ε → Prop) : Prop where
  none : P .none
  bool : ∀ b, P (.bool b)
  int : ∀ n, P (.int n)
  str : ∀ s, P (.str s)
  list : ∀ xs, (∀ x ∈ xs, P x) → P (.list xs)
  pairs : ∀ ps, (∀ f ∈ ps, P f.2) → Yields P E (raising (hooks.pairs ps))
  float : ∀ text, Yields P E (raising (hooks.float text))
  constant : ∀ name ∈ ["NaN", "Infinity", "-Infinity"], Yields P E (raising (hooks.constant name))

variable {hooks : Hooks ε} {P : PyValue → Prop}

theorem yields_scanScalar (H : hooks.Builds P E) (text : List Char) :
    Yields (fun s ↦ P s.1) E (scanScalar hooks text) := by
  unfold scanScalar
  split
  · exact H.none
  split
  · exact H.bool true
  split
  · exact H.bool false
  split
  · exact (H.constant _ (by simp)).map fun _ h ↦ h
  split
  · exact (H.constant _ (by simp)).map fun _ h ↦ h
  split
  · exact (H.constant _ (by simp)).map fun _ h ↦ h
  split
  · trivial
  case h_2 integer tail rest _ =>
    split
    · have hint : Yields P E (parseInt integer) := by
        unfold parseInt
        dsimp only
        by_cases hlen : maxStrDigits < (integer.filter Char.isDigit).length
        · rw [if_pos hlen]
          trivial
        · rw [if_neg hlen]
          exact H.int _
      exact hint.map fun _ h ↦ h
    · exact (H.float _).map fun _ h ↦ h

/-- The three scanners, by induction on the bound on their nesting. -/
theorem yields_scan (H : hooks.Builds P E) (n : ℕ) :
    (∀ text, Yields (fun s ↦ P s.1) E (scanOnce hooks n text)) ∧
    (∀ text, Yields (fun s ↦ ∀ x ∈ s.1, P x) E (scanItems hooks n text)) ∧
    ∀ text, Yields (fun s ↦ ∀ f ∈ s.1, P f.2) E (scanPairs hooks n text) := by
  induction n with
  | zero => exact ⟨fun _ ↦ trivial, fun _ ↦ trivial, fun _ ↦ trivial⟩
  | succ n ih =>
    obtain ⟨honce, hitems, hpairs⟩ := ih
    refine ⟨fun text ↦ ?_, fun text ↦ ?_, fun text ↦ ?_⟩
    · cases text with
      | nil => trivial
      | cons c rest =>
        rw [scanOnce]
        split
        · exact (yields_scanString rest).map fun s _ ↦ H.str s.1
        split
        · split
          · trivial
          split
          · exact (H.pairs [] (fun _ h ↦ absurd h List.not_mem_nil)).map fun _ h ↦ h
          -- the hook is called on the pairs, and may refuse them
          · refine (hpairs _).bind fun s hs ↦ ?_
            exact (H.pairs _ hs).bind fun v hv ↦ hv
        split
        · split
          · trivial
          split
          · exact H.list [] fun _ h ↦ absurd h List.not_mem_nil
          · exact (hitems _).map fun s hs ↦ H.list s.1 hs
        exact yields_scanScalar H _
    · unfold scanItems
      refine (honce text).bind fun s hs ↦ ?_
      dsimp only
      split
      · trivial
      split
      · exact List.forall_mem_singleton.mpr hs
      split
      · exact (hitems _).bind fun t ht ↦ List.forall_mem_cons.mpr ⟨hs, ht⟩
      trivial
    · cases text with
      | nil => trivial
      | cons c rest =>
        rw [scanPairs]
        split
        swap
        · trivial
        refine (yields_scanString _).bind fun k _ ↦ ?_
        dsimp only
        split
        · trivial
        split
        swap
        · trivial
        refine (honce _).bind fun s hs ↦ ?_
        split
        · trivial
        split
        · exact List.forall_mem_singleton.mpr hs
        split
        · exact (hpairs _).bind fun t ht ↦ List.forall_mem_cons.mpr ⟨hs, ht⟩
        trivial

/-- What holds of scalars and is kept by arrays and hooks holds of every decoded value. -/
theorem yields_loads (H : hooks.Builds P E) (text : List Char) :
    Yields P E (loads hooks text) := by
  unfold loads
  split
  · trivial
  · refine ((yields_scan H _).1 _).bind fun s hs ↦ ?_
    dsimp only
    split
    · exact hs
    · trivial

/-- The only exception of the hook is that of a key that is there already. -/
theorem yields_objectWithoutDuplicates {duplicate : PyStr → ε} (pairs : List (PyStr × PyValue))
    (h : P (.dict (pairs.map fun f ↦ (.str f.1, f.2)))) (hE : ∀ key, E (duplicate key)) :
    Yields P E (raising (objectWithoutDuplicates duplicate pairs)) := by
  have hcollect : ∀ (pairs result : List (PyStr × PyValue)) (e : ε),
      collectItems duplicate result pairs = .error e → E e := by
    intro pairs
    induction pairs with
    | nil => intro result e h; cases h
    | cons f pairs ih =>
      intro result e h
      rw [collectItems] at h
      split at h
      · cases h
        exact hE f.1
      · exact ih _ _ h
  cases hresult : objectWithoutDuplicates duplicate pairs with
  | ok v =>
    rw [(objectWithoutDuplicates_eq_ok.mp hresult).2]
    exact h
  | error e =>
    rw [objectWithoutDuplicates] at hresult
    cases hitems : collectItems duplicate [] pairs with
    | ok result => rw [hitems] at hresult; cases hresult
    | error e' =>
      rw [hitems] at hresult
      cases hresult
      exact hcollect _ _ _ hitems

end Yields

/-! ## The bound on the nesting

The scanner leaves an end of the text it is given, so each call that is nested in another one has
less text to read.
-/

section Bound

variable {ε : Type} {hooks : Hooks ε} {text rest : List Char}

theorem suffix_skipSpace (text : List Char) : skipSpace text <:+ text := List.dropWhile_suffix _

theorem strip?_suffix {literal : String} (h : strip? literal text = some rest) : rest <:+ text := by
  rw [strip?] at h
  split at h
  · exact Option.some.inj h ▸ List.drop_suffix _ _
  · cases h

theorem matchDigits_suffix {digits : List Char} (h : matchDigits text = some (digits, rest)) :
    rest <:+ text := by
  cases text with
  | nil => cases h
  | cons c text =>
    rw [matchDigits] at h
    split at h
    · cases h
      exact List.suffix_cons ..
    split at h
    · cases h
      exact (List.dropWhile_suffix _).trans (List.suffix_cons ..)
    · cases h

theorem matchInteger_suffix {integer : List Char} (h : matchInteger text = some (integer, rest)) :
    rest <:+ text := by
  cases text with
  | nil => cases h
  | cons c text =>
    rw [matchInteger] at h
    split at h
    · obtain ⟨s, hs, heq⟩ := Option.map_eq_some_iff.mp h
      cases heq
      exact (matchDigits_suffix hs).trans (List.suffix_cons ..)
    · exact matchDigits_suffix h

theorem matchFraction_suffix (text : List Char) : (matchFraction text).2 <:+ text := by
  cases text with
  | nil => exact List.suffix_rfl
  | cons c text =>
    rw [matchFraction]
    split
    · exact (List.dropWhile_suffix _).trans (List.suffix_cons ..)
    · exact List.suffix_rfl

theorem matchSign_suffix (text : List Char) : (matchSign text).2 <:+ text := by
  cases text with
  | nil => exact List.suffix_rfl
  | cons c text =>
    rw [matchSign]
    split
    · exact List.suffix_cons ..
    · exact List.suffix_rfl

theorem matchExponent_suffix (text : List Char) : (matchExponent text).2 <:+ text := by
  cases text with
  | nil => exact List.suffix_rfl
  | cons c text =>
    rw [matchExponent]
    split
    · exact ((List.dropWhile_suffix _).trans (matchSign_suffix text)).trans (List.suffix_cons ..)
    · exact List.suffix_rfl

theorem matchNumber_suffix {integer tail : List Char}
    (h : matchNumber text = some (integer, tail, rest)) : rest <:+ text := by
  obtain ⟨⟨integer', rest'⟩, hinteger, heq⟩ := Option.bind_eq_some_iff.mp h
  cases heq
  exact ((matchExponent_suffix _).trans (matchFraction_suffix _)).trans
    (matchInteger_suffix hinteger)

/-- The scanner leaves an end of the text. -/
def Leaves {α : Type} (text : List Char) : Except (LoadError ε) (α × List Char) → Prop :=
  Yields (fun s ↦ s.2 <:+ text) fun _ ↦ True

theorem leaves_map {α β : Type} (x : Except ε α) (f : α → β) (h : rest <:+ text) :
    Leaves text ((raising x).map fun a ↦ (f a, rest)) := by
  cases x with
  | ok a => exact h
  | error e => trivial

theorem leaves_scanUnits (text : List Char) : Leaves text (scanUnits (ε := ε) text) := by
  fun_induction scanUnits (ε := ε) text with
  | case1 | case3 | case5 | case7 => trivial
  | case2 rest => exact List.suffix_cons ..
  | case4 a b c d rest u hu ih =>
    refine ih.map fun s hs ↦ hs.trans ?_
    exact ⟨['\\', 'u', a, b, c, d], rfl⟩
  | case6 e rest hne c hc ih => exact ih.map fun s hs ↦ hs.trans ⟨['\\', e], rfl⟩
  | case8 c rest hq hu he hc ih => exact ih.map fun s hs ↦ hs.trans (List.suffix_cons ..)

theorem leaves_scanString (text : List Char) : Leaves text (scanString (ε := ε) text) :=
  (leaves_scanUnits text).map fun _ h ↦ h

theorem leaves_scanScalar (text : List Char) : Leaves text (scanScalar hooks text) := by
  unfold scanScalar
  split
  case h_1 h => exact strip?_suffix h
  split
  case h_1 h => exact strip?_suffix h
  split
  case h_1 h => exact strip?_suffix h
  split
  case h_1 h => exact leaves_map _ id (strip?_suffix h)
  split
  case h_1 h => exact leaves_map _ id (strip?_suffix h)
  split
  case h_1 h => exact leaves_map _ id (strip?_suffix h)
  split
  case h_1 => trivial
  case h_2 integer tail rest h =>
    split
    · cases parseInt (ε := ε) integer with
      | ok v => exact matchNumber_suffix h
      | error e => cases e <;> trivial
    · exact leaves_map _ id (matchNumber_suffix h)

/-- The three scanners, by induction on the bound. -/
theorem leaves_scan (n : ℕ) : (∀ text, Leaves text (scanOnce hooks n text)) ∧
    (∀ text, Leaves text (scanItems hooks n text)) ∧
    ∀ text, Leaves text (scanPairs hooks n text) := by
  induction n with
  | zero => exact ⟨fun _ ↦ trivial, fun _ ↦ trivial, fun _ ↦ trivial⟩
  | succ n ih =>
    obtain ⟨honce, hitems, hpairs⟩ := ih
    refine ⟨fun text ↦ ?_, fun text ↦ ?_, fun text ↦ ?_⟩
    · cases text with
      | nil => trivial
      | cons c rest =>
        rw [scanOnce]
        have hcons : rest <:+ c :: rest := List.suffix_cons ..
        split
        · exact (leaves_scanString rest).map fun s hs ↦ hs.trans hcons
        split
        · split
          case h_1 => trivial
          case h_2 d rest' hskip =>
          have hsuffix : d :: rest' <:+ c :: rest := hskip ▸ (suffix_skipSpace rest).trans hcons
          split
          · exact leaves_map _ id ((List.suffix_cons ..).trans hsuffix)
          · refine (hpairs _).bind fun s hs ↦ ?_
            exact leaves_map (hooks.pairs s.1) id (hs.trans hsuffix)
        split
        · split
          case h_1 => trivial
          case h_2 d rest' hskip =>
          have hsuffix : d :: rest' <:+ c :: rest := hskip ▸ (suffix_skipSpace rest).trans hcons
          split
          · exact (List.suffix_cons ..).trans hsuffix
          · exact (hitems _).map fun s hs ↦ hs.trans hsuffix
        exact leaves_scanScalar _
    · unfold scanItems
      -- an item, and behind it the end of the array or a comma and the other items
      refine (honce text).bind fun s hs ↦ ?_
      dsimp only
      split
      case h_1 => trivial
      case h_2 d rest hskip =>
      have hsuffix : rest <:+ text :=
        (List.suffix_cons ..).trans (hskip ▸ (suffix_skipSpace s.2).trans hs)
      split
      · exact hsuffix
      split
      · exact (hitems _).bind fun t ht ↦ (ht.trans (suffix_skipSpace rest)).trans hsuffix
      trivial
    · cases text with
      | nil => trivial
      | cons c rest =>
        rw [scanPairs]
        split
        swap
        · trivial
        -- a key, a colon, a value, and behind it the end of the object or a comma
        refine (leaves_scanString _).bind fun k hk ↦ ?_
        dsimp only
        split
        case h_1 => trivial
        case h_2 d rest₁ hskip =>
        have hrest₁ : rest₁ <:+ c :: rest := (List.suffix_cons ..).trans
          (hskip ▸ ((suffix_skipSpace k.2).trans hk).trans (List.suffix_cons ..))
        split
        swap
        · trivial
        refine (honce _).bind fun s hs ↦ ?_
        split
        case h_1 => trivial
        case h_2 d rest₂ hskip =>
        have hrest₂ : rest₂ <:+ c :: rest := (List.suffix_cons ..).trans
          (hskip ▸ (((suffix_skipSpace s.2).trans hs).trans (suffix_skipSpace rest₁)).trans hrest₁)
        split
        · exact hrest₂
        split
        · exact (hpairs _).bind fun t ht ↦ (ht.trans (suffix_skipSpace rest₂)).trans hrest₂
        trivial

/-- Where the scanner leaves an end of the text, only what is done with that matters. -/
theorem Leaves.bind_congr {α β : Type} {x : Except (LoadError ε) (α × List Char)}
    {f g : α × List Char → Except (LoadError ε) β} (hx : Leaves text x)
    (h : ∀ s : α × List Char, s.2 <:+ text → f s = g s) : (x >>= f) = (x >>= g) := by
  cases x with
  | ok s => exact h s hx
  | error e => rfl

theorem length_lt_of_skipSpace {c : Char} {left : List Char} (h : skipSpace left = c :: rest)
    (hleft : left <:+ text) : rest.length < text.length := by
  have hle := ((suffix_skipSpace left).trans hleft).length_le
  rw [h, List.length_cons] at hle
  exact hle

/-- One more than a bound that the text cannot reach is as good. -/
theorem scan_succ (n : ℕ) :
    (∀ text, 2 * text.length + 1 ≤ n → scanOnce hooks (n + 1) text = scanOnce hooks n text) ∧
    (∀ text, 2 * text.length + 2 ≤ n → scanItems hooks (n + 1) text = scanItems hooks n text) ∧
    ∀ text, 2 * text.length + 2 ≤ n → scanPairs hooks (n + 1) text = scanPairs hooks n text := by
  -- a bracket is one character and takes two turns, one here and one to scan its items
  induction n with
  | zero => refine ⟨fun text h ↦ ?_, fun text h ↦ ?_, fun text h ↦ ?_⟩ <;> omega
  | succ n ih =>
    obtain ⟨honce, hitems, hpairs⟩ := ih
    refine ⟨fun text h ↦ ?_, fun text h ↦ ?_, fun text h ↦ ?_⟩
    · cases text with
      | nil => rfl
      | cons c rest =>
        rw [List.length_cons] at h
        rw [scanOnce, scanOnce]
        split
        · rfl
        split
        · split
          case h_1 => rfl
          case h_2 d rest' hskip =>
          have hlt := length_lt_of_skipSpace hskip List.suffix_rfl
          rw [hpairs (d :: rest') (by rw [List.length_cons]; omega)]
        split
        · split
          case h_1 => rfl
          case h_2 d rest' hskip =>
          have hlt := length_lt_of_skipSpace hskip List.suffix_rfl
          rw [hitems (d :: rest') (by rw [List.length_cons]; omega)]
        rfl
    · unfold scanItems
      rw [honce text (by omega)]
      refine ((leaves_scan n).1 text).bind_congr fun s hs ↦ ?_
      dsimp only
      split
      case h_1 => rfl
      case h_2 d rest hskip =>
      have hlt := length_lt_of_skipSpace hskip hs
      have hle := (suffix_skipSpace rest).length_le
      rw [hitems (skipSpace rest) (by omega)]
    · cases text with
      | nil => rfl
      | cons c rest =>
        rw [List.length_cons] at h
        rw [scanPairs, scanPairs]
        split
        swap
        · rfl
        refine (leaves_scanString rest).bind_congr fun k hk ↦ ?_
        dsimp only
        split
        case h_1 => rfl
        case h_2 d rest₁ hskip =>
        have hlt₁ := length_lt_of_skipSpace hskip hk
        have hle₁ := (suffix_skipSpace rest₁).length_le
        split
        swap
        · rfl
        rw [honce (skipSpace rest₁) (by omega)]
        refine ((leaves_scan n).1 (skipSpace rest₁)).bind_congr fun s hs ↦ ?_
        split
        case h_1 => rfl
        case h_2 d rest₂ hskip =>
        have hlt₂ := length_lt_of_skipSpace hskip hs
        have hle₂ := (suffix_skipSpace rest₂).length_le
        rw [hpairs (skipSpace rest₂) (by omega)]

/-- No text reaches the bound that `loads` sets: a greater one changes nothing. -/
theorem scanOnce_eq_of_le {n : ℕ} (h : 2 * text.length + 1 ≤ n) :
    scanOnce hooks n text = scanOnce hooks (2 * text.length + 1) text := by
  induction n, h using Nat.le_induction with
  | base => rfl
  | succ n hn ih => exact ((scan_succ n).1 text hn).trans ih

end Bound
end EventHorizon
