import Mathlib.Data.List.Basic
import Mathlib.Data.List.Nodup

/-!
# Base 64 without padding

Octets are cut into groups of six bits, most significant first, and each group is written as a
symbol of an alphabet of 64. Three octets become four symbols; one or two octets at the end become
two or three, the last of them with zero bits. `octets_sextets` is the round trip on numbers, and
`decode_encode` that on symbols.
-/

namespace EventHorizon.Base64

/-! ## Numbers -/

/-- The groups of six bits of a list of octets. -/
def sextets : List ℕ → List ℕ
  | x :: y :: z :: rest =>
    x / 4 :: (x % 4 * 16 + y / 16) :: (y % 16 * 4 + z / 64) :: z % 64 :: sextets rest
  | [x, y] => [x / 4, x % 4 * 16 + y / 16, y % 16 * 4]
  | [x] => [x / 4, x % 4 * 16]
  | [] => []

/-- The octets that a list of groups of six bits spells. Bits that do not fill an octet are
dropped. -/
def octets : List ℕ → List ℕ
  | a :: b :: c :: d :: rest =>
    (a * 4 + b / 16) :: (b % 16 * 16 + c / 4) :: (c % 4 * 64 + d) :: octets rest
  | [a, b, c] => [a * 4 + b / 16, b % 16 * 16 + c / 4]
  | [a, b] => [a * 4 + b / 16]
  | [_] => []
  | [] => []

theorem octets_sextets : ∀ {bytes : List ℕ}, (∀ x ∈ bytes, x < 256) → octets (sextets bytes) = bytes
  | x :: y :: z :: rest, h => by
    simp only [List.forall_mem_cons] at h
    obtain ⟨hx, hy, hz, h⟩ := h
    rw [sextets, octets, octets_sextets h]
    congr 1
    · omega
    congr 1
    · omega
    congr 1
    omega
  | [x, y], h => by
    simp only [List.forall_mem_cons] at h
    obtain ⟨hx, hy, -⟩ := h
    rw [sextets, octets]
    congr 1
    · omega
    congr 1
    omega
  | [x], h => by
    have hx := h x List.mem_cons_self
    rw [sextets, octets]
    congr 1
    omega
  | [], _ => rfl

theorem sextets_lt : ∀ {bytes : List ℕ}, (∀ x ∈ bytes, x < 256) → ∀ n ∈ sextets bytes, n < 64
  | x :: y :: z :: rest, h => by
    simp only [List.forall_mem_cons] at h
    obtain ⟨hx, hy, hz, h⟩ := h
    simp only [sextets, List.forall_mem_cons]
    exact ⟨by omega, by omega, by omega, by omega, sextets_lt h⟩
  | [x, y], h => by
    simp only [List.forall_mem_cons] at h
    obtain ⟨hx, hy, -⟩ := h
    simp only [sextets, List.forall_mem_cons]
    exact ⟨by omega, by omega, by omega, by simp⟩
  | [x], h => by
    have hx := h x List.mem_cons_self
    simp only [sextets, List.forall_mem_cons]
    exact ⟨by omega, by omega, by simp⟩
  | [], _ => by simp [sextets]

theorem length_sextets : ∀ bytes : List ℕ, (sextets bytes).length = (bytes.length * 4 + 2) / 3
  | x :: y :: z :: rest => by
    simp only [sextets, List.length_cons, length_sextets rest]
    omega
  | [x, y] => by simp [sextets]
  | [x] => by simp [sextets]
  | [] => rfl

/-! ## Symbols -/

section Symbols

variable {α : Type*} [DecidableEq α] [Inhabited α] (alphabet : List α)

/-- The spelling of a list of octets. -/
def encode (bytes : List ℕ) : List α :=
  (sextets bytes).map fun n ↦ alphabet[n]?.getD default

omit [Inhabited α] in
/-- The octets of a spelling, or nothing when it is not one. -/
def decode (symbols : List α) : Option (List ℕ) :=
  if symbols.length % 4 = 1 ∨ ∃ s ∈ symbols, s ∉ alphabet then none
  else some (octets (symbols.map alphabet.idxOf))

omit [DecidableEq α] in
theorem length_encode (bytes : List ℕ) :
    (encode alphabet bytes).length = (bytes.length * 4 + 2) / 3 := by
  rw [encode, List.length_map, length_sextets]

variable {alphabet} {bytes : List ℕ}

omit [DecidableEq α] in
theorem mem_alphabet_of_mem_encode (hlen : alphabet.length = 64) (h : ∀ x ∈ bytes, x < 256) :
    ∀ s ∈ encode alphabet bytes, s ∈ alphabet := by
  intro s hs
  obtain ⟨n, hn, rfl⟩ := List.mem_map.mp hs
  have hlt : n < alphabet.length := hlen ▸ sextets_lt h n hn
  rw [List.getElem?_eq_getElem hlt, Option.getD_some]
  exact List.getElem_mem hlt

/-- What was spelled is read back. -/
theorem decode_encode (hnodup : alphabet.Nodup) (hlen : alphabet.length = 64)
    (h : ∀ x ∈ bytes, x < 256) : decode alphabet (encode alphabet bytes) = some bytes := by
  have hread : (encode alphabet bytes).map alphabet.idxOf = sextets bytes := by
    rw [encode, List.map_map]
    refine (List.map_congr_left fun n hn ↦ ?_).trans (List.map_id _)
    have hlt : n < alphabet.length := hlen ▸ sextets_lt h n hn
    rw [Function.comp_apply, List.getElem?_eq_getElem hlt, Option.getD_some]
    exact hnodup.idxOf_getElem n hlt
  rw [decode, if_neg, hread, octets_sextets h]
  rw [not_or, length_encode]
  refine ⟨by omega, ?_⟩
  rintro ⟨s, hs, hnot⟩
  exact hnot (mem_alphabet_of_mem_encode hlen h s hs)

end Symbols

end EventHorizon.Base64
