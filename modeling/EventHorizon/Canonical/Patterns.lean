import Mathlib.Data.String.Basic

/-!
# Text patterns

The regular expressions the code matches whole strings against, as decidable predicates on their
characters.
-/

namespace EventHorizon

/-- Every character is below U+0080. -/
def isAscii (s : String) : Bool := s.toList.all fun c ↦ c.toNat < 128

def isLowerHex (c : Char) : Bool := ('0' ≤ c && c ≤ '9') || ('a' ≤ c && c ≤ 'f')

/-- `[0-9a-f]{64}`. -/
def isDigest (s : String) : Bool := s.toList.length == 64 && s.toList.all isLowerHex

/-- `cap_[0-9a-f]{24}`. -/
def isCapabilityId (s : String) : Bool :=
  s.toList.take 4 == "cap_".toList && s.toList.length == 28 && (s.toList.drop 4).all isLowerHex

/-- `[a-z0-9]`. -/
def isLowerAlnum (c : Char) : Bool := ('a' ≤ c && c ≤ 'z') || ('0' ≤ c && c ≤ '9')

/-- `[a-z0-9][a-z0-9._:-]{0,127}`. -/
def isScope (s : String) : Bool :=
  match s.toList with
  | [] => false
  | c :: cs =>
    isLowerAlnum c && cs.length ≤ 127 &&
      cs.all fun d ↦ isLowerAlnum d || d == '.' || d == '_' || d == ':' || d == '-'

/-- `ed25519:[0-9a-f]{32}`. -/
def isKeyId (s : String) : Bool :=
  s.toList.take 8 == "ed25519:".toList && s.toList.length == 40 &&
    (s.toList.drop 8).all isLowerHex

/-- The base64url alphabet in the order of its values. -/
def base64UrlAlphabet : List Char :=
  "ABCDEFGHIJKLMNOPQRSTUVWXYZabcdefghijklmnopqrstuvwxyz0123456789-_".toList

/-- `[A-Za-z0-9_-]{86}`. -/
def isSignature (s : String) : Bool :=
  s.toList.length == 86 && s.toList.all fun c ↦ c ∈ base64UrlAlphabet

end EventHorizon
