import EventHorizon.Canonical.Sha256

/-!
# Canonical bytes and digests

`canonical_bytes` spells the canonical form of a value as `json.dumps` does with sorted keys,
compact separators and `ensure_ascii=False`, in UTF-8. A digest is the SHA-256 of these bytes.
-/

namespace EventHorizon

/-! ## Spelling -/

/-- The UTF-8 octets of a character. -/
def utf8Octets (c : Char) : List ℕ :=
  let n := c.toNat
  if n < 0x80 then [n]
  else if n < 0x800 then [0xc0 + n / 0x40, 0x80 + n % 0x40]
  else if n < 0x10000 then [0xe0 + n / 0x1000, 0x80 + n / 0x40 % 0x40, 0x80 + n % 0x40]
  else [0xf0 + n / 0x40000, 0x80 + n / 0x1000 % 0x40, 0x80 + n / 0x40 % 0x40, 0x80 + n % 0x40]

/-- The octets of text that is plain ASCII. -/
def asciiOctets (s : String) : List ℕ := s.toList.map Char.toNat

/-- A character inside a JSON string: quotes, backslashes and control characters are escaped. -/
def spellChar (c : Char) : List ℕ :=
  match c with
  | '"' => asciiOctets "\\\""
  | '\\' => asciiOctets "\\\\"
  | '\n' => asciiOctets "\\n"
  | '\r' => asciiOctets "\\r"
  | '\t' => asciiOctets "\\t"
  | c =>
    if c.toNat = 8 then asciiOctets "\\b"
    else if c.toNat = 12 then asciiOctets "\\f"
    else if c.toNat < 0x20 then
      asciiOctets "\\u00" ++
        [(Sha256.hexDigit (c.toNat / 16)).toNat, (Sha256.hexDigit (c.toNat % 16)).toNat]
    else utf8Octets c

def spellString (s : String) : List ℕ := 0x22 :: s.toList.flatMap spellChar ++ [0x22]

def spellNat (n : ℕ) : List ℕ := (Nat.toDigits 10 n).map Char.toNat

def spellInt (n : ℤ) : List ℕ :=
  if n < 0 then 0x2d :: spellNat n.natAbs else spellNat n.natAbs

mutual

/-- `json.dumps` of a canonical tree. -/
def spell : Json → List ℕ
  | .null => asciiOctets "null"
  | .bool true => asciiOctets "true"
  | .bool false => asciiOctets "false"
  | .int n => spellInt n
  | .float f => asciiOctets f.text
  | .str s => spellString s
  | .arr [] => asciiOctets "[]"
  | .arr (x :: xs) => 0x5b :: spell x ++ spellItems xs ++ [0x5d]
  | .obj [] => asciiOctets "\x7b\x7d"
  | .obj ((k, x) :: xs) => 0x7b :: spellString k ++ 0x3a :: spell x ++ spellFields xs ++ [0x7d]

def spellItems : List Json → List ℕ
  | [] => []
  | x :: xs => 0x2c :: spell x ++ spellItems xs

def spellFields : List (String × Json) → List ℕ
  | [] => []
  | (k, x) :: xs => 0x2c :: spellString k ++ 0x3a :: spell x ++ spellFields xs

end

section Digest

variable [Platform]

/-- `canonical_bytes`. -/
def canonicalBytes (v : Json) : Except Exn (List ℕ) := (canonical v).map spell

/-- `digest`. -/
def digest (v : Json) : Except Exn String := (canonicalBytes v).map Platform.sha256

end Digest

/-- The digest of a small object, as the interpreter computes it. -/
example : @digest pythonPlatform (.obj [("b", .arr [.int (-1), .bool true]), ("a", .str "x\n")]) =
    .ok "41d9504d9086f42dfed06393e06fbc8fe961ee86285ebcc1e1dd43043cac6694" := by decide +kernel

end EventHorizon
