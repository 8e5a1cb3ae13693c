import EventHorizon.Canonical.Loads
import Mathlib.Data.List.TakeWhile

/-!
# Reading back the text of a value

`dumps` is the text that `spell` writes in UTF-8, and the scanner of `EventHorizon.Canonical.Loads`
reads back each part of it whatever follows. Only a number has to be followed by something that does
not continue it.
-/

namespace EventHorizon

/-! ## The text of a value -/

/-- A character inside a JSON string. -/
def dumpsChar (c : Char) : List Char :=
  match c with
  | '"' => ['\\', '"']
  | '\\' => ['\\', '\\']
  | '\n' => ['\\', 'n']
  | '\r' => ['\\', 'r']
  | '\t' => ['\\', 't']
  | c =>
    if c.toNat = 8 then ['\\', 'b']
    else if c.toNat = 12 then ['\\', 'f']
    else if c.toNat < 0x20 then
      ['\\', 'u', '0', '0', Sha256.hexDigit (c.toNat / 16), Sha256.hexDigit (c.toNat % 16)]
    else [c]

def dumpsString (s : String) : List Char := '"' :: s.toList.flatMap dumpsChar ++ ['"']

def dumpsInt (n : ℤ) : List Char :=
  if n < 0 then '-' :: Nat.toDigits 10 n.natAbs else Nat.toDigits 10 n.natAbs

mutual

/-- `json.dumps` of a canonical tree, as text. -/
def dumps : Json → List Char
  | .null => "null".toList
  | .bool true => "true".toList
  | .bool false => "false".toList
  | .int n => dumpsInt n
  | .float f => f.text.toList
  | .str s => dumpsString s
  | .arr [] => "[]".toList
  | .arr (x :: xs) => '[' :: dumps x ++ dumpsItems xs ++ [']']
  | .obj [] => ['\x7b', '\x7d']
  | .obj ((k, x) :: xs) => '\x7b' :: dumpsString k ++ ':' :: dumps x ++ dumpsFields xs ++ ['\x7d']

def dumpsItems : List Json → List Char
  | [] => []
  | x :: xs => ',' :: dumps x ++ dumpsItems xs

def dumpsFields : List (String × Json) → List Char
  | [] => []
  | (k, x) :: xs => ',' :: dumpsString k ++ ':' :: dumps x ++ dumpsFields xs

end

theorem utf8Octets_of_lt {c : Char} (h : c.toNat < 0x80) : utf8Octets c = [c.toNat] := by
  rw [utf8Octets, if_pos h]

/-- ASCII text is encoded octet by octet. -/
theorem encodeUtf8_of_lt {text : List Char} (h : ∀ c ∈ text, c.toNat < 0x80) :
    encodeUtf8 text = text.map Char.toNat := by
  induction text with
  | nil => rfl
  | cons c text ih =>
    rw [encodeUtf8_cons, utf8Octets_of_lt (h c List.mem_cons_self),
      ih fun d hd ↦ h d (List.mem_cons_of_mem _ hd)]
    rfl

theorem encodeUtf8_append (s t : List Char) :
    encodeUtf8 (s ++ t) = encodeUtf8 s ++ encodeUtf8 t := List.flatMap_append

/-- A property of the ASCII characters is checked character by character. -/
theorem of_ascii {P : Char → Prop} (h : ∀ n < 0x80, P (Char.ofNat n)) {c : Char}
    (hc : c.toNat < 0x80) : P c := by
  have hn := h c.toNat hc
  rwa [Char.ofNat_toNat] at hn

theorem dumpsChar_of_le {c : Char} (h : 0x80 ≤ c.toNat) : dumpsChar c = [c] := by
  unfold dumpsChar
  split
  iterate 5 exact absurd h (by decide)
  rw [if_neg (by omega), if_neg (by omega), if_neg (by omega)]

theorem spellChar_of_le {c : Char} (h : 0x80 ≤ c.toNat) : spellChar c = utf8Octets c := by
  unfold spellChar
  split
  iterate 5 exact absurd h (by decide)
  rw [if_neg (by omega), if_neg (by omega), if_neg (by omega)]

theorem spellChar_eq (c : Char) : spellChar c = encodeUtf8 (dumpsChar c) := by
  rcases Nat.lt_or_ge c.toNat 0x80 with h | h
  · exact of_ascii (P := fun c ↦ spellChar c = encodeUtf8 (dumpsChar c)) (by decide +kernel) h
  · rw [spellChar_of_le h, dumpsChar_of_le h, encodeUtf8_cons]
    exact (List.append_nil _).symm

theorem spellString_eq (s : String) : spellString s = encodeUtf8 (dumpsString s) := by
  have hflat : s.toList.flatMap spellChar = encodeUtf8 (s.toList.flatMap dumpsChar) := by
    rw [encodeUtf8, List.flatMap_assoc]
    exact List.flatMap_congr fun c _ ↦ spellChar_eq c
  rw [spellString, dumpsString, List.cons_append, List.cons_append, encodeUtf8_cons,
    encodeUtf8_append, hflat]
  rfl

theorem toNat_lt_of_isDigit {c : Char} (h : c.isDigit = true) : c.toNat < 0x80 := by
  rw [Char.isDigit, Bool.and_eq_true, decide_eq_true_eq, decide_eq_true_eq] at h
  exact lt_of_le_of_lt (show c.toNat ≤ 57 from h.2) (by decide)

theorem isDigit_of_mem_toDigits {n : ℕ} {c : Char} (h : c ∈ Nat.toDigits 10 n) :
    c.isDigit = true := Nat.isDigit_of_mem_toDigits (by decide) (by decide) h

theorem spellNat_eq (n : ℕ) : spellNat n = encodeUtf8 (Nat.toDigits 10 n) := by
  rw [encodeUtf8_of_lt fun c hc ↦ toNat_lt_of_isDigit (isDigit_of_mem_toDigits hc)]
  rfl

theorem spellInt_eq (n : ℤ) : spellInt n = encodeUtf8 (dumpsInt n) := by
  rw [spellInt, dumpsInt]
  split
  · rw [encodeUtf8_cons, spellNat_eq]
    rfl
  · exact spellNat_eq _

theorem asciiOctets_eq {s : String} (h : isAscii s = true) :
    asciiOctets s = encodeUtf8 s.toList := by
  rw [encodeUtf8_of_lt fun c hc ↦ of_decide_eq_true (List.all_eq_true.mp h c hc)]
  rfl

/-- The texts of the floats in a value are ASCII. -/
def Json.AsciiFloats (v : Json) : Prop :=
  (PyValue.ofJson v).Floats fun f ↦ isAscii f.text = true

mutual

/-- `spell` writes the text of `dumps` in UTF-8. -/
theorem spell_eq : ∀ v : Json, v.AsciiFloats → spell v = encodeUtf8 (dumps v)
  | .null, _ => asciiOctets_eq (by decide)
  | .bool true, _ => asciiOctets_eq (by decide)
  | .bool false, _ => asciiOctets_eq (by decide)
  | .int n, _ => spellInt_eq n
  | .float _, h => asciiOctets_eq h
  | .str s, _ => spellString_eq s
  | .arr [], _ => asciiOctets_eq (by decide)
  | .arr (x :: xs), h => by
    obtain ⟨hx, hxs⟩ := h
    simp only [spell, dumps, List.cons_append, encodeUtf8_cons, encodeUtf8_append,
      spell_eq x hx, spellItems_eq xs hxs]
    rfl
  | .obj [], _ => asciiOctets_eq (by decide)
  | .obj ((k, x) :: xs), h => by
    obtain ⟨hx, hxs⟩ := h
    simp only [spell, dumps, List.cons_append, encodeUtf8_cons, encodeUtf8_append,
      spellString_eq, spell_eq x hx, spellFields_eq xs hxs]
    rfl

theorem spellItems_eq : ∀ xs : List Json,
    PyValue.FloatsItems (fun f ↦ isAscii f.text = true) (PyValue.ofItems xs) →
    spellItems xs = encodeUtf8 (dumpsItems xs)
  | [], _ => rfl
  | x :: xs, h => by
    obtain ⟨hx, hxs⟩ := h
    simp only [spellItems, dumpsItems, List.cons_append, encodeUtf8_cons, encodeUtf8_append,
      spell_eq x hx, spellItems_eq xs hxs]
    rfl

theorem spellFields_eq : ∀ fields : List (String × Json),
    PyValue.FloatsFields (fun f ↦ isAscii f.text = true) (PyValue.ofFields fields) →
    spellFields fields = encodeUtf8 (dumpsFields fields)
  | [], _ => rfl
  | (k, x) :: xs, h => by
    obtain ⟨hx, hxs⟩ := h
    simp only [spellFields, dumpsFields, List.cons_append, encodeUtf8_cons, encodeUtf8_append,
      spellString_eq, spell_eq x hx, spellFields_eq xs hxs]
    rfl

end

/-! ## Strings are read back -/

section Scan

variable {ε : Type}

theorem codeUnit?_hexDigit : ∀ n < 0x20, codeUnit? '0' '0' (Sha256.hexDigit (n / 16))
    (Sha256.hexDigit (n % 16)) = some (.scalar (Char.ofNat n)) := by decide +kernel

theorem scanUnits_plain {c : Char} (hlow : 0x20 ≤ c.toNat) (hquote : c ≠ '"') (hslash : c ≠ '\\')
    (rest : List Char) :
    (scanUnits (c :: rest) : Except (LoadError ε) _) =
      (scanUnits rest).map fun s ↦ (.scalar c :: s.1, s.2) := by
  rw [scanUnits, if_neg]
  · rintro (h | h)
    · omega
    · exact hslash h
  · exact hquote
  · exact fun _ _ _ _ _ h ↦ absurd h hslash
  · exact fun _ _ h ↦ absurd h hslash

/-- The scanner reads back one character of a string at a time. -/
theorem scanUnits_dumpsChar (c : Char) (rest : List Char) :
    (scanUnits (dumpsChar c ++ rest) : Except (LoadError ε) _) =
      (scanUnits rest).map fun s ↦ (.scalar c :: s.1, s.2) := by
  unfold dumpsChar
  split
  iterate 5 rfl
  case h_6 hquote hslash _ _ _ =>
  split
  case isTrue h =>
    rw [← Char.ofNat_toNat c, h]
    rfl
  split
  case isTrue h =>
    rw [← Char.ofNat_toNat c, h]
    rfl
  split
  case isTrue h =>
    have hunit := codeUnit?_hexDigit c.toNat h
    rw [Char.ofNat_toNat] at hunit
    simp only [List.cons_append, List.nil_append]
    rw [scanUnits, hunit]
  case isFalse h => exact scanUnits_plain (by omega) hquote hslash rest

theorem scanUnits_flatMap (cs rest : List Char) :
    (scanUnits (cs.flatMap dumpsChar ++ '"' :: rest) : Except (LoadError ε) _) =
      .ok (cs.map .scalar, rest) := by
  induction cs with
  | nil => rfl
  | cons c cs ih =>
    rw [List.flatMap_cons, List.append_assoc, scanUnits_dumpsChar, ih]
    rfl

theorem joinSurrogates_scalar (cs : List Char) :
    joinSurrogates (cs.map .scalar) = cs.map .scalar := by
  induction cs with
  | nil => rfl
  | cons c cs ih =>
    rw [List.map_cons, joinSurrogates, List.foldr_cons, ← joinSurrogates, ih, consUnit]
    exact fun _ _ _ h ↦ nomatch h

/-- A string is read back after its opening quote. -/
theorem scanString_flatMap (s : String) (rest : List Char) :
    (scanString (s.toList.flatMap dumpsChar ++ '"' :: rest) : Except (LoadError ε) _) =
      .ok (.ofString s, rest) := by
  rw [scanString, scanUnits_flatMap]
  exact congrArg (fun t ↦ Except.ok (t, rest)) (joinSurrogates_scalar s.toList)

/-! ## Numbers are read back -/

/-- A character that may stand in a number. -/
def isNumberChar (c : Char) : Bool :=
  c.isDigit || c = '.' || c = 'e' || c = 'E' || c = '+' || c = '-'

/-- The text does not continue a number. -/
def Ends (rest : List Char) : Prop := ∀ c ∈ rest.head?, isNumberChar c = false

theorem takeWhile_append_of_ends {p : Char → Bool} (hp : ∀ c, p c = true → isNumberChar c = true)
    {rest : List Char} (h : Ends rest) (xs : List Char) :
    (xs ++ rest).takeWhile p = xs.takeWhile p ∧
      (xs ++ rest).dropWhile p = xs.dropWhile p ++ rest := by
  induction xs with
  | nil =>
    cases rest with
    | nil => exact ⟨rfl, rfl⟩
    | cons c rest =>
      have hc : p c = false := by
        by_contra hne
        rw [Bool.not_eq_false] at hne
        exact absurd (hp c hne) (by rw [h c rfl]; simp)
      simp [hc]
  | cons x xs ih =>
    simp only [List.cons_append, List.takeWhile_cons, List.dropWhile_cons]
    cases p x with
    | true => simp [ih]
    | false => simp

theorem isNumberChar_of_isDigit {c : Char} (h : c.isDigit = true) : isNumberChar c = true := by
  simp [isNumberChar, h]

section Ends

variable {rest : List Char} (h : Ends rest)

include h

theorem takeWhile_isDigit_append (xs : List Char) :
    (xs ++ rest).takeWhile Char.isDigit = xs.takeWhile Char.isDigit :=
  (takeWhile_append_of_ends (fun _ ↦ isNumberChar_of_isDigit) h xs).1

theorem dropWhile_isDigit_append (xs : List Char) :
    (xs ++ rest).dropWhile Char.isDigit = xs.dropWhile Char.isDigit ++ rest :=
  (takeWhile_append_of_ends (fun _ ↦ isNumberChar_of_isDigit) h xs).2

/-- What follows a number has no part in it. -/
theorem ne_of_ends {c d : Char} {rest' : List Char} (hrest : rest = c :: rest')
    (hd : isNumberChar d = true) : c ≠ d := by
  rintro rfl
  have hc := h c (by rw [hrest]; rfl)
  rw [hc] at hd
  cases hd

theorem isDigit_of_ends {c : Char} {rest' : List Char} (hrest : rest = c :: rest') :
    c.isDigit = false := by
  by_contra hne
  rw [Bool.not_eq_false] at hne
  exact ne_of_ends h hrest (isNumberChar_of_isDigit hne) rfl

theorem matchDigits_append (xs : List Char) :
    matchDigits (xs ++ rest) = (matchDigits xs).map fun s ↦ (s.1, s.2 ++ rest) := by
  cases xs with
  | nil =>
    cases hrest : rest with
    | nil => rfl
    | cons c rest' =>
      have h0 : c ≠ '0' := ne_of_ends h hrest (by decide)
      have hdigit := isDigit_of_ends h hrest
      simp [matchDigits, h0, hdigit]
  | cons x xs =>
    rw [List.cons_append, matchDigits, matchDigits, takeWhile_isDigit_append h,
      dropWhile_isDigit_append h]
    split
    · rfl
    · split <;> rfl

theorem matchInteger_append (xs : List Char) :
    matchInteger (xs ++ rest) = (matchInteger xs).map fun s ↦ (s.1, s.2 ++ rest) := by
  cases xs with
  | nil =>
    cases hrest : rest with
    | nil => rfl
    | cons c rest' =>
      have hsign : c ≠ '-' := ne_of_ends h hrest (by decide)
      have hnone := matchDigits_append h []
      rw [hrest] at hnone
      simp only [List.nil_append, matchInteger, if_neg hsign]
      exact hnone
  | cons x xs =>
    rw [List.cons_append, matchInteger, matchInteger, matchDigits_append h, ← List.cons_append,
      matchDigits_append h]
    split
    · rw [Option.map_map, Option.map_map]
      rfl
    · rfl

theorem matchFraction_append (xs : List Char) :
    matchFraction (xs ++ rest) = ((matchFraction xs).1, (matchFraction xs).2 ++ rest) := by
  cases xs with
  | nil =>
    cases hrest : rest with
    | nil => rfl
    | cons c rest' =>
      have hpoint : c ≠ '.' := ne_of_ends h hrest (by decide)
      simp [matchFraction, hpoint]
  | cons x xs =>
    rw [List.cons_append, matchFraction, matchFraction, takeWhile_isDigit_append h,
      dropWhile_isDigit_append h]
    split <;> rfl

theorem matchSign_append (xs : List Char) :
    matchSign (xs ++ rest) = ((matchSign xs).1, (matchSign xs).2 ++ rest) := by
  cases xs with
  | nil =>
    cases hrest : rest with
    | nil => rfl
    | cons c rest' =>
      have hminus : c ≠ '-' := ne_of_ends h hrest (by decide)
      have hplus : c ≠ '+' := ne_of_ends h hrest (by decide)
      simp [matchSign, hminus, hplus]
  | cons x xs =>
    rw [List.cons_append, matchSign, matchSign]
    split <;> rfl

theorem matchExponent_append (xs : List Char) :
    matchExponent (xs ++ rest) = ((matchExponent xs).1, (matchExponent xs).2 ++ rest) := by
  cases xs with
  | nil =>
    cases hrest : rest with
    | nil => rfl
    | cons c rest' =>
      have hlower : c ≠ 'e' := ne_of_ends h hrest (by decide)
      have hupper : c ≠ 'E' := ne_of_ends h hrest (by decide)
      simp [matchExponent, hlower, hupper]
  | cons x xs =>
    rw [List.cons_append, matchExponent, matchExponent, matchSign_append h,
      takeWhile_isDigit_append h, dropWhile_isDigit_append h]
    split <;> rfl

/-- A number is matched in the same way whatever follows it. -/
theorem matchNumber_append (xs : List Char) :
    matchNumber (xs ++ rest) = (matchNumber xs).map fun s ↦ (s.1, s.2.1, s.2.2 ++ rest) := by
  simp only [matchNumber, matchInteger_append h, Option.bind_eq_bind, Option.bind_map,
    Option.map_bind]
  cases matchInteger xs with
  | none => rfl
  | some s =>
    simp [matchFraction_append h, matchExponent_append h]

end Ends

/-- A natural number is spelled with a digit that is not zero first, or as zero. -/
theorem toDigits_cases (n : ℕ) : n = 0 ∧ Nat.toDigits 10 n = ['0'] ∨
    ∃ c cs, Nat.toDigits 10 n = c :: cs ∧ c ≠ '0' := by
  induction n using Nat.strong_induction_on with
  | _ n ih =>
    rcases Nat.lt_or_ge n 10 with hlt | hge
    · have hsmall : ∀ n < 10, n = 0 ∨ Nat.digitChar n ≠ '0' := by decide
      rw [Nat.toDigits_of_lt_base hlt]
      rcases hsmall n hlt with rfl | hne
      · exact .inl ⟨rfl, rfl⟩
      · exact .inr ⟨_, [], rfl, hne⟩
    · right
      rw [Nat.toDigits_of_base_le (by decide) hge]
      rcases ih (n / 10) (by omega) with ⟨hzero, -⟩ | ⟨c, cs, hcs, hne⟩
      · omega
      · exact ⟨c, cs ++ [_], by rw [hcs, List.cons_append], hne⟩

theorem matchDigits_toDigits (n : ℕ) :
    matchDigits (Nat.toDigits 10 n) = some (Nat.toDigits 10 n, []) := by
  have hdigits : ∀ c ∈ Nat.toDigits 10 n, c.isDigit = true := fun c ↦ isDigit_of_mem_toDigits
  rcases toDigits_cases n with ⟨-, hzero⟩ | ⟨c, cs, hcs, hne⟩
  · rw [hzero]
    rfl
  · rw [hcs] at hdigits ⊢
    rw [List.forall_mem_cons] at hdigits
    rw [matchDigits, if_neg hne, if_pos hdigits.1, List.takeWhile_eq_self_iff.mpr hdigits.2,
      List.dropWhile_eq_nil_iff.mpr hdigits.2]

theorem matchInteger_dumpsInt (n : ℤ) : matchInteger (dumpsInt n) = some (dumpsInt n, []) := by
  rw [dumpsInt]
  split
  · rw [matchInteger, if_pos rfl, matchDigits_toDigits]
    rfl
  · have hmatch := matchDigits_toDigits n.natAbs
    rcases toDigits_cases n.natAbs with ⟨-, hzero⟩ | ⟨c, cs, hcs, -⟩
    · rw [hzero]
      rfl
    · rw [hcs] at hmatch ⊢
      have hc : c.isDigit = true := isDigit_of_mem_toDigits (by rw [hcs]; exact List.mem_cons_self)
      have hsign : c ≠ '-' := by
        rintro rfl
        exact absurd hc (by decide)
      rw [matchInteger, if_neg hsign, hmatch]

theorem matchNumber_dumpsInt (n : ℤ) {rest : List Char} (h : Ends rest) :
    matchNumber (dumpsInt n ++ rest) = some (dumpsInt n, [], rest) := by
  rw [matchNumber_append h, matchNumber, matchInteger_dumpsInt]
  rfl

/-- A number starts with a digit, after a sign or not. -/
theorem head_of_matchInteger {text : List Char} {s : List Char × List Char}
    (h : matchInteger text = some s) :
    ∃ c rest, c.isDigit = true ∧ (text = c :: rest ∨ text = '-' :: c :: rest) := by
  have hhead : ∀ {text : List Char} {s : List Char × List Char}, matchDigits text = some s →
      ∃ c rest, c.isDigit = true ∧ text = c :: rest := by
    intro text s h
    cases text with
    | nil => cases h
    | cons c rest =>
      rw [matchDigits] at h
      split at h
      case isTrue hc =>
        subst hc
        exact ⟨'0', rest, rfl, rfl⟩
      split at h
      case isTrue hc => exact ⟨c, rest, hc, rfl⟩
      case isFalse => cases h
  cases text with
  | nil => cases h
  | cons c rest =>
    rw [matchInteger] at h
    split at h
    case isTrue hc =>
      obtain ⟨s', hs, -⟩ := Option.map_eq_some_iff.mp h
      obtain ⟨d, rest', hd, rfl⟩ := hhead hs
      exact ⟨d, rest', hd, .inr (by rw [hc])⟩
    case isFalse =>
      obtain ⟨d, rest', hd, heq⟩ := hhead h
      exact ⟨d, rest', hd, .inl heq⟩

theorem parseInt_dumpsInt {n : ℤ} (h : n.natAbs ≤ maxSafeInteger) :
    (parseInt (dumpsInt n) : Except (LoadError ε) _) = .ok (.int n) := by
  have hdigits : (Nat.toDigits 10 n.natAbs).filter Char.isDigit = Nat.toDigits 10 n.natAbs :=
    List.filter_eq_self.mpr fun c ↦ isDigit_of_mem_toDigits
  have hlen : (Nat.toDigits 10 n.natAbs).length ≤ 16 :=
    (Nat.length_toDigits_le_iff (by decide) (by decide)).mpr
      (lt_of_le_of_lt h (by decide))
  have hmax : ¬maxStrDigits < (Nat.toDigits 10 n.natAbs).length := by
    rw [maxStrDigits]
    omega
  rw [dumpsInt]
  split
  case isTrue hneg =>
    have hfilter : ('-' :: Nat.toDigits 10 n.natAbs).filter Char.isDigit =
        Nat.toDigits 10 n.natAbs := by
      rw [List.filter_cons_of_neg (by decide), hdigits]
    rw [parseInt, hfilter, if_neg hmax, Nat.ofDigitChars_ten_toDigits]
    simp only [List.head?_cons, if_true]
    exact congrArg (fun m ↦ Except.ok (PyValue.int m)) (by omega)
  case isFalse hpos =>
    have hhead : (Nat.toDigits 10 n.natAbs).head? ≠ some '-' := by
      intro hhead
      exact absurd (isDigit_of_mem_toDigits (List.mem_of_head? hhead)) (by decide)
    rw [parseInt, hdigits, if_neg hmax, Nat.ofDigitChars_ten_toDigits]
    simp only [if_neg hhead]
    exact congrArg (fun m ↦ Except.ok (PyValue.int m)) (by omega)

/-- A text that starts with another character than the literal does not start with it. -/
theorem strip?_eq_none {literal : String} {c d : Char} {cs rest : List Char}
    (hlit : literal.toList = c :: cs) (hne : c ≠ d) : strip? literal (d :: rest) = none := by
  rw [strip?, hlit, List.isPrefixOf_cons_cons, beq_eq_false_iff_ne.mpr hne, Bool.false_and]
  rfl

section Values

variable (hooks : Hooks ε)

/-- Where a number is matched there is no literal. -/
theorem scanScalar_of_matchNumber {text integer tail rest : List Char}
    (h : matchNumber text = some (integer, tail, rest)) :
    scanScalar hooks text = if tail = [] then (parseInt integer).map (·, rest)
      else (raising (hooks.float (integer ++ tail))).map (·, rest) := by
  obtain ⟨s, hs, -⟩ := Option.bind_eq_some_iff.mp h
  obtain ⟨c, rest', hc, htext⟩ := head_of_matchInteger hs
  have hne : ∀ d : Char, d.isDigit = false → d ≠ c := by
    rintro d hd rfl
    rw [hd] at hc
    cases hc
  have hnone : ∀ literal d cs, literal.toList = d :: cs → d.isDigit = false → d ≠ '-' →
      strip? literal text = none := by
    intro literal d cs hlit hd hminus
    rcases htext with rfl | rfl
    · exact strip?_eq_none hlit (hne d hd)
    · exact strip?_eq_none hlit hminus
  have hinf : strip? "-Infinity" text = none := by
    rcases htext with rfl | rfl
    · exact strip?_eq_none rfl (hne '-' (by decide))
    · have hne' : 'I' ≠ c := hne 'I' (by decide)
      simp [strip?, hne']
  simp only [scanScalar, hnone "null" 'n' _ rfl (by decide) (by decide),
    hnone "true" 't' _ rfl (by decide) (by decide),
    hnone "false" 'f' _ rfl (by decide) (by decide),
    hnone "NaN" 'N' _ rfl (by decide) (by decide),
    hnone "Infinity" 'I' _ rfl (by decide) (by decide), hinf, h]

theorem skipSpace_cons {c : Char} (h : isSpace c = false) (rest : List Char) :
    skipSpace (c :: rest) = c :: rest := by
  rw [skipSpace, List.dropWhile_cons_of_neg (by simp [h])]

/-- A character that values start with and that neither closes nor separates anything. -/
def isOpening (c : Char) : Bool :=
  !isSpace c && c != ']' && c != '\x7d' && c.toNat < 0x80

theorem isOpening_of_isDigit {c : Char} (h : c.isDigit = true) : isOpening c = true := by
  have hall : ∀ n < 0x80, (Char.ofNat n).isDigit = true → isOpening (Char.ofNat n) = true := by
    decide +kernel
  exact of_ascii (P := fun c ↦ c.isDigit = true → isOpening c = true) hall
    (toNat_lt_of_isDigit h) h

theorem opening_of_matchNumber {text : List Char} {s : List Char × List Char × List Char}
    (h : matchNumber text = some s) : ∃ c rest, text = c :: rest ∧ isOpening c = true := by
  obtain ⟨s', hs, -⟩ := Option.bind_eq_some_iff.mp h
  obtain ⟨c, rest, hc, htext⟩ := head_of_matchInteger hs
  rcases htext with rfl | rfl
  · exact ⟨c, rest, rfl, isOpening_of_isDigit hc⟩
  · exact ⟨'-', c :: rest, rfl, by decide⟩

/-- A number is scanned as one: it is neither a string nor a collection. -/
theorem scanOnce_of_matchNumber {n : ℕ} {text : List Char} {s : List Char × List Char × List Char}
    (h : matchNumber text = some s) : scanOnce hooks (n + 1) text = scanScalar hooks text := by
  obtain ⟨s', hs, -⟩ := Option.bind_eq_some_iff.mp h
  obtain ⟨c, rest, hc, htext⟩ := head_of_matchInteger hs
  have hne : ∀ d : Char, d.isDigit = false → c ≠ d := by
    rintro d hd rfl
    rw [hd] at hc
    cases hc
  rcases htext with rfl | rfl
  · rw [scanOnce, if_neg (hne _ (by decide)), if_neg (hne _ (by decide)),
      if_neg (hne _ (by decide))]
  · rw [scanOnce, if_neg (by decide), if_neg (by decide), if_neg (by decide)]

/-! ## Values are read back -/

/-- The text of a number with a fraction or an exponent. -/
def IsFloatText (text : List Char) : Prop :=
  ∃ integer tail, matchNumber text = some (integer, tail, []) ∧ tail ≠ [] ∧ text = integer ++ tail

/-- The hooks read back what was written: the items of a dictionary, and the floats of a kind. -/
structure Hooks.Reads (G : FloatValue → Prop) : Prop where
  pairs : ∀ items : List (PyStr × PyValue), (items.map Prod.fst).Nodup →
    hooks.pairs items = .ok (.dict (items.map fun f ↦ (.str f.1, f.2)))
  float : ∀ f, G f → IsFloatText f.text.toList ∧ hooks.float f.text.toList = .ok (.float f)

mutual

/-- The values that are read back: integers are in range, floats are of the kind that the hooks
read, and the keys of an object are distinct. -/
def Readable (G : FloatValue → Prop) : Json → Prop
  | .null | .bool _ | .str _ => True
  | .int n => n.natAbs ≤ maxSafeInteger
  | .float f => G f
  | .arr xs => ReadableItems G xs
  | .obj fields => (fields.map Prod.fst).Nodup ∧ ReadableFields G fields

def ReadableItems (G : FloatValue → Prop) : List Json → Prop
  | [] => True
  | x :: xs => Readable G x ∧ ReadableItems G xs

def ReadableFields (G : FloatValue → Prop) : List (String × Json) → Prop
  | [] => True
  | (_, x) :: xs => Readable G x ∧ ReadableFields G xs

end

variable {hooks} {G : FloatValue → Prop}

/-- Every value starts with an opening character. -/
theorem dumps_opening (H : hooks.Reads G) {v : Json} (hv : Readable G v) :
    ∃ c rest, dumps v = c :: rest ∧ isOpening c = true := by
  cases v with
  | null => exact ⟨_, _, rfl, by decide⟩
  | bool b => cases b <;> exact ⟨_, _, rfl, by decide⟩
  | int n =>
    have hn := matchNumber_dumpsInt n (show Ends [] from fun c hc ↦ nomatch hc)
    rw [List.append_nil] at hn
    exact opening_of_matchNumber hn
  | float f =>
    obtain ⟨⟨integer, tail, hmatch, -⟩, -⟩ := H.float f hv
    exact opening_of_matchNumber hmatch
  | str s => exact ⟨_, _, rfl, by decide⟩
  | arr xs => cases xs <;> exact ⟨_, _, rfl, by decide⟩
  | obj fields => cases fields <;> exact ⟨_, _, rfl, by decide⟩

theorem ends_cons {c : Char} {rest : List Char} (h : isNumberChar c = false) :
    Ends (c :: rest) := by
  intro d hd
  rwa [← Option.some.inj hd]

theorem skipSpace_dumps (H : hooks.Reads G) {v : Json} (hv : Readable G v) (rest : List Char) :
    ∃ c rest', skipSpace (dumps v ++ rest) = c :: rest' ∧ dumps v ++ rest = c :: rest' ∧
      c ≠ ']' ∧ c ≠ '\x7d' ∧ c.toNat < 0x80 := by
  obtain ⟨c, rest', hdumps, hc⟩ := dumps_opening H hv
  rw [isOpening, Bool.and_eq_true, Bool.and_eq_true, Bool.and_eq_true, Bool.not_eq_true',
    bne_iff_ne, bne_iff_ne, decide_eq_true_eq] at hc
  refine ⟨c, rest' ++ rest, ?_, by rw [hdumps, List.cons_append], hc.1.1.2, hc.1.2, hc.2⟩
  rw [hdumps, List.cons_append, skipSpace_cons hc.1.1.1]

theorem readableItems_iff {xs : List Json} : ReadableItems G xs ↔ ∀ x ∈ xs, Readable G x := by
  induction xs with
  | nil => simp [ReadableItems]
  | cons x xs ih => simp [ReadableItems, ih]

theorem readableFields_iff {fields : List (String × Json)} :
    ReadableFields G fields ↔ ∀ f ∈ fields, Readable G f.2 := by
  induction fields with
  | nil => simp [ReadableFields]
  | cons f fields ih => simp [ReadableFields, ih]

/-- The value is scanned from its text, whatever follows. -/
def Scans (hooks : Hooks ε) (v : Json) : Prop :=
  ∀ (n : ℕ) (rest : List Char), (dumps v).length < n → Ends rest →
    scanOnce hooks n (dumps v ++ rest) = .ok (PyValue.ofJson v, rest)

theorem scanItems_dumps (H : hooks.Reads G) (rest : List Char) {xs : List Json} :
    ∀ {x : Json} {n : ℕ}, (∀ y ∈ x :: xs, Readable G y ∧ Scans hooks y) →
      (dumps x).length + (dumpsItems xs).length + 1 < n →
      scanItems hooks n (dumps x ++ (dumpsItems xs ++ ']' :: rest)) =
        .ok (PyValue.ofItems (x :: xs), rest) := by
  induction xs with
  | nil =>
    intro x n hx hn
    obtain ⟨n, rfl⟩ : ∃ m, n = m + 1 := ⟨n - 1, by omega⟩
    have hends : Ends (']' :: rest) := ends_cons (by decide)
    rw [scanItems, dumpsItems, List.nil_append,
      (hx x List.mem_cons_self).2 n _ (by omega) hends]
    rfl
  | cons y ys ih =>
    intro x n hx hn
    obtain ⟨n, rfl⟩ : ∃ m, n = m + 1 := ⟨n - 1, by omega⟩
    rw [dumpsItems] at hn ⊢
    simp only [List.cons_append, List.append_assoc, List.length_cons, List.length_append] at hn ⊢
    have hends : Ends (',' :: (dumps y ++ (dumpsItems ys ++ ']' :: rest))) := ends_cons (by decide)
    have hrest := ih (fun z hz ↦ hx z (List.mem_cons_of_mem _ hz)) (show _ < n by omega)
    obtain ⟨c, rest', hskip, hdumps, -⟩ :=
      skipSpace_dumps H (hx y (by simp)).1 (dumpsItems ys ++ ']' :: rest)
    rw [scanItems, (hx x List.mem_cons_self).2 n _ (by omega) hends]
    refine bind_eq_ok.mpr ⟨_, rfl, ?_⟩
    simp only [skipSpace_cons (show isSpace ',' = false by decide),
      if_neg (show ¬(',' = ']') by decide), if_true, hskip, ← hdumps, hrest]
    rfl

/-- What is read after a field. -/
def scanAfterField (hooks : Hooks ε) (n : ℕ) (f : PyStr × PyValue) :
    List Char → Except (LoadError ε) (List (PyStr × PyValue) × List Char)
  | [] => .error .malformed
  | d :: rest =>
    if d = '\x7d' then return ([f], rest)
    else if d = ',' then do
      let (pairs, rest) ← scanPairs hooks n (skipSpace rest)
      return (f :: pairs, rest)
    else .error .malformed

theorem scanPairs_dumps (H : hooks.Reads G) (rest : List Char) {fields : List (String × Json)} :
    ∀ {k : String} {x : Json} {n : ℕ},
      (∀ f ∈ (k, x) :: fields, Readable G f.2 ∧ Scans hooks f.2) →
      (dumpsString k).length + (dumps x).length + (dumpsFields fields).length + 1 < n →
      scanPairs hooks n
      (dumpsString k ++ ':' :: (dumps x ++ (dumpsFields fields ++ '\x7d' :: rest))) =
        .ok (((k, x) :: fields).map fun f ↦ (PyStr.ofString f.1, PyValue.ofJson f.2), rest) := by
  -- What a field reads, up to the character after its value.
  have hfield : ∀ {k : String} {x : Json} {n : ℕ} {after : List Char}, Readable G x →
      Scans hooks x → (dumps x).length < n → Ends after →
      scanPairs hooks (n + 1) (dumpsString k ++ ':' :: (dumps x ++ after)) =
        scanAfterField hooks n (PyStr.ofString k, PyValue.ofJson x) (skipSpace after) := by
    intro k x n after hx hscan hn hends
    obtain ⟨c, rest', hskip, hdumps, -⟩ := skipSpace_dumps H hx after
    rw [dumpsString, List.cons_append, List.cons_append, List.append_assoc, List.singleton_append,
      scanPairs, if_pos rfl, scanString_flatMap]
    simp only [bind, Except.bind, skipSpace_cons (show isSpace ':' = false by decide), if_true,
      hskip]
    rw [← hdumps, hscan n after hn hends]
    all_goals rfl
  induction fields with
  | nil =>
    intro k x n hx hn
    obtain ⟨n, rfl⟩ : ∃ m, n = m + 1 := ⟨n - 1, by omega⟩
    have hends : Ends ('\x7d' :: rest) := ends_cons (by decide)
    have hx' : Readable G x ∧ Scans hooks x := hx (k, x) List.mem_cons_self
    rw [dumpsFields, List.nil_append, hfield hx'.1 hx'.2 (by omega) hends,
      skipSpace_cons (show isSpace '\x7d' = false by decide)]
    rfl
  | cons f fields ih =>
    obtain ⟨l, y⟩ := f
    intro k x n hx hn
    obtain ⟨n, rfl⟩ : ∃ m, n = m + 1 := ⟨n - 1, by omega⟩
    have hx' : Readable G x ∧ Scans hooks x := hx (k, x) List.mem_cons_self
    rw [dumpsFields] at hn ⊢
    simp only [List.cons_append, List.append_assoc, List.length_cons, List.length_append] at hn ⊢
    have hends : Ends (',' :: (dumpsString l ++
        ':' :: (dumps y ++ (dumpsFields fields ++ '\x7d' :: rest)))) := ends_cons (by decide)
    have hrest := ih (fun z hz ↦ hx z (List.mem_cons_of_mem _ hz)) (show _ < n by omega)
    have hquote : ∀ after, skipSpace (dumpsString l ++ after) = dumpsString l ++ after := by
      intro after
      exact skipSpace_cons (show isSpace '"' = false by decide) _
    rw [hfield hx'.1 hx'.2 (by omega) hends]
    simp only [scanAfterField, skipSpace_cons (show isSpace ',' = false by decide),
      if_neg (show ¬(',' = '\x7d') by decide), if_true, hquote, hrest]
    rfl

/-- A value is read back from its text. -/
theorem scans_of_readable (H : hooks.Reads G) (v : Json) :
    Readable G v → Scans hooks v := by
  induction v using Json.induction with
  | null | bool b =>
    intro _ n rest hn _
    obtain ⟨n, rfl⟩ : ∃ m, n = m + 1 := ⟨n - 1, by omega⟩
    first
    | rfl
    | cases b <;> rfl
  | int m =>
    intro hm n rest hn hrest
    obtain ⟨n, rfl⟩ : ∃ m, n = m + 1 := ⟨n - 1, by omega⟩
    -- the rest does not go on with a digit, so the number ends where its text does
    have hmatch := matchNumber_dumpsInt m hrest
    rw [dumps, scanOnce_of_matchNumber hooks hmatch, scanScalar_of_matchNumber hooks hmatch,
      if_pos rfl, parseInt_dumpsInt hm]
    rfl
  | float f =>
    intro hf n rest hn hrest
    obtain ⟨n, rfl⟩ : ∃ m, n = m + 1 := ⟨n - 1, by omega⟩
    obtain ⟨⟨integer, tail, hmatch, htail, htext⟩, hfloat⟩ := H.float f hf
    have happend := matchNumber_append hrest f.text.toList
    rw [hmatch] at happend
    rw [dumps, scanOnce_of_matchNumber hooks happend, scanScalar_of_matchNumber hooks happend,
      if_neg htail, ← htext, hfloat]
    rfl
  | str s =>
    intro _ n rest hn _
    obtain ⟨n, rfl⟩ : ∃ m, n = m + 1 := ⟨n - 1, by omega⟩
    rw [dumps, dumpsString, List.cons_append, List.cons_append, List.append_assoc,
      List.singleton_append, scanOnce, if_pos rfl, scanString_flatMap]
    rfl
  | arr xs ih =>
    intro hxs n rest hn _
    obtain ⟨n, rfl⟩ : ∃ m, n = m + 1 := ⟨n - 1, by omega⟩
    cases xs with
    | nil => rfl
    | cons x xs =>
      have hall : ∀ y ∈ x :: xs, Readable G y ∧ Scans hooks y := fun y hy ↦
        have hy' := readableItems_iff.mp hxs y hy
        ⟨hy', ih y hy hy'⟩
      -- the text of the first item does not begin with the bracket that would end the array
      obtain ⟨c, rest', hskip, hdumps, hne, -⟩ :=
        skipSpace_dumps H (hall x List.mem_cons_self).1 (dumpsItems xs ++ ']' :: rest)
      rw [dumps] at hn ⊢
      simp only [List.cons_append, List.append_assoc, List.nil_append, List.length_cons,
        List.length_append, List.length_nil] at hn ⊢
      have hitems := scanItems_dumps H rest hall (show _ < n by omega)
      rw [scanOnce, if_neg (by decide), if_neg (by decide), if_pos rfl, hskip]
      simp only [if_neg hne]
      rw [← hdumps, hitems]
      rfl
  | obj fields ih =>
    intro hfields n rest hn _
    obtain ⟨n, rfl⟩ : ∃ m, n = m + 1 := ⟨n - 1, by omega⟩
    cases fields with
    | nil =>
      have hempty : hooks.pairs [] = .ok (.dict []) := H.pairs [] List.nodup_nil
      rw [dumps, List.cons_append, scanOnce, if_neg (by decide), if_pos rfl]
      simp only [List.cons_append, List.nil_append,
        skipSpace_cons (show isSpace '\x7d' = false by decide), if_true, hempty]
      rfl
    | cons f fields =>
      obtain ⟨k, x⟩ := f
      obtain ⟨hkeys, hfields⟩ := hfields
      have hall : ∀ f ∈ (k, x) :: fields, Readable G f.2 ∧ Scans hooks f.2 := fun f hf ↦
        have hf' := readableFields_iff.mp hfields f hf
        ⟨hf', ih f hf hf'⟩
      have hnodup : ((((k, x) :: fields).map fun f ↦
          (PyStr.ofString f.1, PyValue.ofJson f.2)).map Prod.fst).Nodup := by
        rw [List.map_map]
        have hmap := hkeys.map PyStr.ofString_injective
        rwa [List.map_map] at hmap
      have hquote : ∀ after, skipSpace (dumpsString k ++ after) = '"' :: (k.toList.flatMap dumpsChar
          ++ ['"'] ++ after) := fun after ↦ skipSpace_cons (show isSpace '"' = false by decide) _
      rw [dumps] at hn ⊢
      simp only [List.cons_append, List.append_assoc, List.nil_append, List.length_cons,
        List.length_append, List.length_nil] at hn ⊢
      have hpairs := scanPairs_dumps H rest hall (show _ < n by omega)
      rw [scanOnce, if_neg (by decide), if_pos rfl, hquote]
      simp only [if_neg (show ¬('"' = '\x7d') by decide)]
      -- what follows the brace is the first field, and `scanPairs` reads from its quote
      rw [show ('"' :: (k.toList.flatMap dumpsChar ++ ['"'] ++
        ':' :: (dumps x ++ (dumpsFields fields ++ '\x7d' :: rest)))) =
        dumpsString k ++ ':' :: (dumps x ++ (dumpsFields fields ++ '\x7d' :: rest)) from rfl,
        hpairs]
      simp only [bind, Except.bind]
      rw [H.pairs _ hnodup, PyValue.ofJson, PyValue.ofFields_eq_map, List.map_map]
      rfl

/-- `json.loads` reads a value back from its text. -/
theorem loads_dumps (H : hooks.Reads G) {v : Json} (hv : Readable G v) {space : List Char}
    (hspace : skipSpace space = []) (hends : Ends space) :
    loads hooks (dumps v ++ space) = .ok (PyValue.ofJson v) := by
  obtain ⟨c, rest, hskip, hdumps, -, -, hc⟩ := skipSpace_dumps H hv space
  have hbom : (dumps v ++ space).head? ≠ some (Char.ofNat 0xfeff) := by
    rw [hdumps, List.head?_cons]
    intro heq
    rw [Option.some.inj heq] at hc
    exact absurd hc (by decide)
  have hscan := scans_of_readable H v hv (2 * (dumps v ++ space).length + 2) space
    (by rw [List.length_append]; omega) hends
  rw [loads, if_neg hbom, hskip, ← hdumps, hscan]
  simp only [bind, Except.bind, hspace, if_true]
  rfl

end Values

end Scan

end EventHorizon
