import EventHorizon.Canonical.Json

/-!
# SHA-256

The digest of `hashlib.sha256`, following FIPS 180-4, on lists of octets. Words are natural
numbers below `2 ^ 32`, so that the kernel evaluates the compression function on its own numerals;
the message schedule is a window of its sixteen latest words.

No theorem of the development depends on this function: they hold for every `Platform`. It is what
the concrete runs are evaluated with.
-/

namespace EventHorizon

namespace Sha256

/-- The eight words of a hash value. -/
structure Words where
  a : ℕ
  b : ℕ
  c : ℕ
  d : ℕ
  e : ℕ
  f : ℕ
  g : ℕ
  h : ℕ
  deriving DecidableEq

def constants : List ℕ := [
  0x428a2f98, 0x71374491, 0xb5c0fbcf, 0xe9b5dba5, 0x3956c25b, 0x59f111f1, 0x923f82a4, 0xab1c5ed5,
  0xd807aa98, 0x12835b01, 0x243185be, 0x550c7dc3, 0x72be5d74, 0x80deb1fe, 0x9bdc06a7, 0xc19bf174,
  0xe49b69c1, 0xefbe4786, 0x0fc19dc6, 0x240ca1cc, 0x2de92c6f, 0x4a7484aa, 0x5cb0a9dc, 0x76f988da,
  0x983e5152, 0xa831c66d, 0xb00327c8, 0xbf597fc7, 0xc6e00bf3, 0xd5a79147, 0x06ca6351, 0x14292967,
  0x27b70a85, 0x2e1b2138, 0x4d2c6dfc, 0x53380d13, 0x650a7354, 0x766a0abb, 0x81c2c92e, 0x92722c85,
  0xa2bfe8a1, 0xa81a664b, 0xc24b8b70, 0xc76c51a3, 0xd192e819, 0xd6990624, 0xf40e3585, 0x106aa070,
  0x19a4c116, 0x1e376c08, 0x2748774c, 0x34b0bcb5, 0x391c0cb3, 0x4ed8aa4a, 0x5b9cca4f, 0x682e6ff3,
  0x748f82ee, 0x78a5636f, 0x84c87814, 0x8cc70208, 0x90befffa, 0xa4506ceb, 0xbef9a3f7, 0xc67178f2]

def initial : Words where
  a := 0x6a09e667
  b := 0xbb67ae85
  c := 0x3c6ef372
  d := 0xa54ff53a
  e := 0x510e527f
  f := 0x9b05688c
  g := 0x1f83d9ab
  h := 0x5be0cd19

def word (n : ℕ) : ℕ := n % 0x100000000

def rotateRight (n s : ℕ) : ℕ :=
  Nat.lor (Nat.shiftRight n s) (word (Nat.shiftLeft n (32 - s)))

def upperSigma0 (x : ℕ) : ℕ :=
  Nat.xor (Nat.xor (rotateRight x 2) (rotateRight x 13)) (rotateRight x 22)

def upperSigma1 (x : ℕ) : ℕ :=
  Nat.xor (Nat.xor (rotateRight x 6) (rotateRight x 11)) (rotateRight x 25)

def lowerSigma0 (x : ℕ) : ℕ :=
  Nat.xor (Nat.xor (rotateRight x 7) (rotateRight x 18)) (Nat.shiftRight x 3)

def lowerSigma1 (x : ℕ) : ℕ :=
  Nat.xor (Nat.xor (rotateRight x 17) (rotateRight x 19)) (Nat.shiftRight x 10)

def choose (x y z : ℕ) : ℕ := Nat.xor (Nat.land x y) (Nat.land (Nat.xor x 0xffffffff) z)

def majority (x y z : ℕ) : ℕ :=
  Nat.xor (Nat.xor (Nat.land x y) (Nat.land x z)) (Nat.land y z)

/-- One round for each remaining constant, over the window of schedule words. -/
def rounds : List ℕ → List ℕ → Words → Words
  | k :: ks, [w0, w1, w2, w3, w4, w5, w6, w7, w8, w9, w10, w11, w12, w13, w14, w15], s =>
    let t₁ := word (s.h + upperSigma1 s.e + choose s.e s.f s.g + k + w0)
    let t₂ := word (upperSigma0 s.a + majority s.a s.b s.c)
    let w16 := word (lowerSigma1 w14 + w9 + lowerSigma0 w1 + w0)
    rounds ks [w1, w2, w3, w4, w5, w6, w7, w8, w9, w10, w11, w12, w13, w14, w15, w16]
      ⟨word (t₁ + t₂), s.a, s.b, s.c, word (s.d + t₁), s.e, s.f, s.g⟩
  | _, _, s => s

def compress (s : Words) (block : List ℕ) : Words :=
  let r := rounds constants block s
  ⟨word (s.a + r.a), word (s.b + r.b), word (s.c + r.c), word (s.d + r.d),
    word (s.e + r.e), word (s.f + r.f), word (s.g + r.g), word (s.h + r.h)⟩

/-- Big-endian words of a list of octets. -/
def toWords : List ℕ → List ℕ
  | a :: b :: c :: d :: rest => (a * 0x1000000 + b * 0x10000 + c * 0x100 + d) :: toWords rest
  | _ => []

def compressBlocks : ℕ → List ℕ → Words → Words
  | 0, _, s => s
  | n + 1, words, s => compressBlocks n (words.drop 16) (compress s (words.take 16))

/-- The message, a one bit, zeros, and the length in bits as eight octets. -/
def pad (message : List ℕ) : List ℕ :=
  let bits := message.length * 8
  message ++ 0x80 :: List.replicate ((119 - message.length % 64) % 64) 0 ++
    [bits / 0x100000000000000 % 256, bits / 0x1000000000000 % 256, bits / 0x10000000000 % 256,
      bits / 0x100000000 % 256, bits / 0x1000000 % 256, bits / 0x10000 % 256,
      bits / 0x100 % 256, bits % 256]

def hash (message : List ℕ) : Words :=
  let padded := pad message
  compressBlocks (padded.length / 64) (toWords padded) initial

def hexDigit (n : ℕ) : Char := "0123456789abcdef".toList.getD n '0'

def hexWord (w : ℕ) : List Char :=
  [hexDigit (w / 0x10000000 % 16), hexDigit (w / 0x1000000 % 16), hexDigit (w / 0x100000 % 16),
    hexDigit (w / 0x10000 % 16), hexDigit (w / 0x1000 % 16), hexDigit (w / 0x100 % 16),
    hexDigit (w / 0x10 % 16), hexDigit (w % 16)]

/-- `hashlib.sha256(message).hexdigest()`. -/
def hexdigest (message : List ℕ) : String :=
  let s := hash message
  String.ofList (hexWord s.a ++ hexWord s.b ++ hexWord s.c ++ hexWord s.d ++ hexWord s.e ++
    hexWord s.f ++ hexWord s.g ++ hexWord s.h)

theorem isLowerHex_hexDigit (n : ℕ) : isLowerHex (hexDigit n) = true := by
  have hdigit : ∀ n < 16, isLowerHex (hexDigit n) = true := by decide
  rcases Nat.lt_or_ge n 16 with h | h
  · exact hdigit n h
  · rw [hexDigit, List.getD_eq_getElem?_getD, List.getElem?_eq_none h]
    decide

theorem isDigest_hexdigest (message : List ℕ) : isDigest (hexdigest message) = true := by
  simp [isDigest, hexdigest, hexWord, isLowerHex_hexDigit]

/-- The FIPS 180-4 example on the three letters `abc`. -/
example : hexdigest [0x61, 0x62, 0x63] =
    "ba7816bf8f01cfea414140de5dae2223b00361a396177a9cb410ff61f20015ad" := by decide +kernel

end Sha256

/-- The standard library of the interpreter on the values that the concrete runs use: strings of
code points below U+0300 are all in normal form C. -/
@[reducible] def pythonPlatform : Platform where
  isNfc s := s.toList.all fun c ↦ c.toNat < 0x300
  sha256 := Sha256.hexdigest
  isNfc_of_isAscii s h := List.all_eq_true.mpr fun c hc ↦ by
    have hlt : c.toNat < 128 := of_decide_eq_true (List.all_eq_true.mp h c hc)
    exact decide_eq_true (by omega)
  isDigest_sha256 := Sha256.isDigest_hexdigest

end EventHorizon
