import EventHorizon.Canonical.Access
import EventHorizon.Canonical.Encodable
import EventHorizon.Library.Table
import EventHorizon.Protocol.Frames

/-!
# Lines of JSON

A text file with a JSON value on each line, padded with spaces. Files that are opened as text are
decoded, their line ends are translated, and they are split after each line feed; the canonical text
of a value has neither line feeds nor carriage returns in it, and `json.loads` without hooks reads
it back with whatever space follows.

A `float` is read back when `float(text)` gives it for its own text, which the interpreter
guarantees for the finite ones: `Genuine` says so, and `Proper` values have such floats and distinct
keys.
-/

namespace EventHorizon

open Protocol (FloatReader)

/-! ## The default hooks -/

section Hooks

variable [FloatReader]

/-- `dict(pairs)`: an item takes the place of an earlier one with its key. -/
def dictOfPairs (pairs : List (PyStr × PyValue)) : PyValue :=
  .dict (pairs.foldl (fun items f ↦ Table.put items (.str f.1) f.2) [])

/-- `json.loads` without hooks. -/
def defaultHooks : Hooks Exn where
  pairs ps := .ok (dictOfPairs ps)
  float text := .ok (.float (FloatReader.ofText text))
  constant name := .ok (.float (FloatReader.ofText name.toList))

/-- The text of the `float` is that of a number and is read as this `float`. -/
structure FloatValue.Genuine (f : FloatValue) : Prop where
  number : ∀ c ∈ f.text.toList, isNumberChar c = true
  isFloatText : IsFloatText f.text.toList
  ofText : FloatReader.ofText f.text.toList = f

end Hooks

/-- Items with distinct keys stay as they are. -/
theorem dictOfPairs_of_nodup {pairs : List (PyStr × PyValue)} (h : (pairs.map Prod.fst).Nodup) :
    dictOfPairs pairs = .dict (pairs.map fun f ↦ (.str f.1, f.2)) := by
  have hkeys : ((pairs.map fun f ↦ (PyKey.str f.1, f.2)).map Prod.fst).Nodup := by
    have hinj : Function.Injective PyKey.str := fun _ _ h ↦ PyKey.str.inj h
    have hmap := h.map hinj
    rw [List.map_map] at hmap ⊢
    exact hmap
  have hfold := Table.foldl_put (t := []) hkeys
  rw [List.foldl_map, List.nil_append] at hfold
  exact congrArg PyValue.dict hfold

theorem defaultHooks_reads [FloatReader] : defaultHooks.Reads FloatValue.Genuine where
  pairs _ h := congrArg Except.ok (dictOfPairs_of_nodup h)
  float _ h := ⟨h.isFloatText, congrArg (fun f ↦ Except.ok (PyValue.float f)) h.ofText⟩

/-! ## Values that the interpreter can hold -/

/-- The keys of each dictionary in the value are distinct, and its finite floats are read back. -/
structure PyValue.Proper [FloatReader] (v : PyValue) : Prop where
  distinct : v.Distinct
  floats : v.Floats fun f ↦ f.isFinite = true → f.Genuine

section Canonical

variable [Platform]

namespace PyValue

/-- What has a canonical form has finite floats only. -/
theorem floats_of_canonicalValue {G : FloatValue → Prop} (v : PyValue) :
    ∀ {d : ℕ} {c : Json}, v.Floats (fun f ↦ f.isFinite = true → G f) → v.canonicalValue d = .ok c →
      v.Floats G := by
  have hlist : ∀ {xs : List PyValue} {d : ℕ} {c : Json},
      (∀ x ∈ xs, ∀ {d : ℕ} {c : Json}, x.Floats (fun f ↦ f.isFinite = true → G f) →
        x.canonicalValue d = .ok c → x.Floats G) →
      FloatsItems (fun f ↦ f.isFinite = true → G f) xs →
      (PyValue.list xs).canonicalValue d = .ok c → FloatsItems G xs := by
    intro xs d c ih hfloat hc
    obtain ⟨-, -, hitems⟩ := canonicalizes_list.mp ⟨c, hc⟩
    refine floatsItems_iff.mpr fun x hx ↦ ?_
    obtain ⟨c', hc'⟩ := hitems x hx
    exact ih x hx (floatsItems_iff.mp hfloat x hx) hc'
  induction v using PyValue.induction with
  | none | bool | int | str | other =>
    intros
    trivial
  | float f =>
    intro d c hf hc
    have hcanonical : (ofJson (.float f)).Canonicalizes d := ⟨c, hc⟩
    exact hf (canonicalizes_float.mp (canonicalizes_ofJson.mp hcanonical)).2.1
  | list xs ih | tuple xs ih =>
    intro d c hfloat hc
    exact hlist ih hfloat hc
  | dict items ih =>
    intro d c hfloat hc
    obtain ⟨-, -, hitems⟩ := canonicalizes_dict.mp ⟨c, hc⟩
    refine floatsFields_iff.mpr fun f hf ↦ ?_
    obtain ⟨c', hc'⟩ := (hitems f hf).2.2
    exact ih f hf (floatsFields_iff.mp hfloat f hf) hc'

end PyValue

end Canonical

/-! ## Text on one line -/

/-- The character is no control character. -/
def IsPrintable (c : Char) : Prop := 0x20 ≤ c.toNat

theorem isPrintable_hexDigit : ∀ n < 16, IsPrintable (Sha256.hexDigit n) := by
  unfold IsPrintable
  decide

theorem isPrintable_of_isNumberChar {c : Char} (h : isNumberChar c = true) : IsPrintable c := by
  have hcases : c.isDigit = true ∨ c = '.' ∨ c = 'e' ∨ c = 'E' ∨ c = '+' ∨ c = '-' := by
    simpa [isNumberChar, or_assoc] using h
  rcases hcases with hdigit | rfl | rfl | rfl | rfl | rfl
  · have hlow : ('0' : Char).toNat ≤ c.toNat := by
      have hle := (Bool.and_eq_true _ _ ▸ hdigit : _ ∧ _).1
      exact UInt32.le_iff_toNat_le.mp (of_decide_eq_true hle)
    exact le_trans (by decide) hlow
  all_goals
    unfold IsPrintable
    decide

theorem isPrintable_of_mem_dumpsChar {c c' : Char} (h : c' ∈ dumpsChar c) : IsPrintable c' := by
  have hescape : ∀ {xs : List Char}, xs.all (fun x ↦ 0x20 ≤ x.toNat) = true → c' ∈ xs →
      IsPrintable c' :=
    fun hxs hmem ↦ show 0x20 ≤ c'.toNat from of_decide_eq_true (List.all_eq_true.mp hxs c' hmem)
  unfold dumpsChar at h
  split at h
  · exact hescape (by decide) h
  · exact hescape (by decide) h
  · exact hescape (by decide) h
  · exact hescape (by decide) h
  · exact hescape (by decide) h
  split at h
  · exact hescape (by decide) h
  split at h
  · exact hescape (by decide) h
  split at h
  case isTrue hlow =>
    simp only [List.mem_cons, List.not_mem_nil, or_false] at h
    rcases h with rfl | rfl | rfl | rfl | rfl | rfl
    · exact (by decide : 0x20 ≤ '\\'.toNat)
    · exact (by decide : 0x20 ≤ 'u'.toNat)
    · exact (by decide : 0x20 ≤ '0'.toNat)
    · exact (by decide : 0x20 ≤ '0'.toNat)
    · exact isPrintable_hexDigit _ (by omega)
    · exact isPrintable_hexDigit _ (by omega)
  case isFalse hlow =>
    rw [List.mem_singleton.mp h]
    exact not_lt.mp hlow

theorem isPrintable_of_mem_dumpsString {s : String} {c : Char} (h : c ∈ dumpsString s) :
    IsPrintable c := by
  have hquote : IsPrintable '"' := (by decide : 0x20 ≤ '"'.toNat)
  rcases List.mem_append.mp h with h | h
  · rcases List.mem_cons.mp h with rfl | h
    · exact hquote
    · obtain ⟨c', -, h⟩ := List.mem_flatMap.mp h
      exact isPrintable_of_mem_dumpsChar h
  · rw [List.mem_singleton.mp h]
    exact hquote

theorem isPrintable_of_mem_dumpsInt {n : ℤ} {c : Char} (h : c ∈ dumpsInt n) : IsPrintable c := by
  have hdigits : c ∈ Nat.toDigits 10 n.natAbs → IsPrintable c := fun h ↦
    isPrintable_of_isNumberChar (isNumberChar_of_isDigit (isDigit_of_mem_toDigits h))
  rw [dumpsInt] at h
  split at h
  · rcases List.mem_cons.mp h with rfl | h
    · exact (by decide : 0x20 ≤ '-'.toNat)
    · exact hdigits h
  · exact hdigits h

theorem mem_dumpsItems {xs : List Json} {c : Char} (h : c ∈ dumpsItems xs) :
    c = ',' ∨ ∃ x ∈ xs, c ∈ dumps x := by
  induction xs with
  | nil => cases h
  | cons x xs ih =>
    rw [dumpsItems, List.cons_append, List.mem_cons, List.mem_append] at h
    rcases h with rfl | h | h
    · exact .inl rfl
    · exact .inr ⟨x, List.mem_cons_self, h⟩
    · exact (ih h).imp_right fun ⟨y, hy, hc⟩ ↦ ⟨y, List.mem_cons_of_mem x hy, hc⟩

theorem mem_dumpsFields {fields : List (String × Json)} {c : Char} (h : c ∈ dumpsFields fields) :
    c = ',' ∨ c = ':' ∨ ∃ f ∈ fields, c ∈ dumpsString f.1 ∨ c ∈ dumps f.2 := by
  induction fields with
  | nil => cases h
  | cons f fields ih =>
    obtain ⟨k, x⟩ := f
    simp only [dumpsFields, List.cons_append, List.mem_cons, List.mem_append] at h
    rcases h with rfl | (h | rfl | h) | h
    · exact .inl rfl
    · exact .inr (.inr ⟨(k, x), List.mem_cons_self, .inl h⟩)
    · exact .inr (.inl rfl)
    · exact .inr (.inr ⟨(k, x), List.mem_cons_self, .inr h⟩)
    · exact (ih h).imp_right (Or.imp_right fun ⟨g, hg, hc⟩ ↦ ⟨g, List.mem_cons_of_mem _ hg, hc⟩)

/-- The text of a value is on one line. -/
theorem isPrintable_of_mem_dumps {G : FloatValue → Prop}
    (hG : ∀ f, G f → ∀ c ∈ f.text.toList, IsPrintable c) (v : Json) :
    Readable G v → ∀ c ∈ dumps v, IsPrintable c := by
  have hliteral : ∀ {xs : List Char} {c : Char}, xs.all (fun x ↦ 0x20 ≤ x.toNat) = true →
      c ∈ xs → IsPrintable c :=
    fun {_ c} hxs hmem ↦ show 0x20 ≤ c.toNat from
      of_decide_eq_true (List.all_eq_true.mp hxs c hmem)
  induction v using Json.induction with
  | null => exact fun _ c hc ↦ hliteral (by decide) hc
  | bool b =>
    intro _ c hc
    cases b with
    | true => exact hliteral (by decide) hc
    | false => exact hliteral (by decide) hc
  | int n => exact fun _ c hc ↦ isPrintable_of_mem_dumpsInt hc
  | float f => exact fun hf c hc ↦ hG f hf c hc
  | str s => exact fun _ c hc ↦ isPrintable_of_mem_dumpsString hc
  | arr xs ih =>
    intro hread c hc
    have hall : ∀ x ∈ xs, ∀ c ∈ dumps x, IsPrintable c := fun x hx ↦
      ih x hx (readableItems_iff.mp hread x hx)
    cases xs with
    | nil => exact hliteral (by decide) hc
    | cons x xs =>
      simp only [dumps, List.cons_append, List.mem_cons, List.mem_append, List.not_mem_nil,
        or_false] at hc
      rcases hc with rfl | (h | h) | rfl
      · exact (by decide : 0x20 ≤ '['.toNat)
      · exact hall x List.mem_cons_self c h
      · rcases mem_dumpsItems h with rfl | ⟨y, hy, h⟩
        · exact (by decide : 0x20 ≤ ','.toNat)
        · exact hall y (List.mem_cons_of_mem x hy) c h
      · exact (by decide : 0x20 ≤ ']'.toNat)
  | obj fields ih =>
    intro hread c hc
    have hall : ∀ f ∈ fields, ∀ c ∈ dumps f.2, IsPrintable c := fun f hf ↦
      ih f hf (readableFields_iff.mp hread.2 f hf)
    cases fields with
    | nil => exact hliteral (by decide) hc
    | cons f fields =>
      obtain ⟨k, x⟩ := f
      simp only [dumps, List.cons_append, List.mem_cons, List.mem_append, List.not_mem_nil,
        or_false] at hc
      rcases hc with rfl | ((h | rfl | h) | h) | rfl
      · exact (by decide : 0x20 ≤ '\x7b'.toNat)
      · exact isPrintable_of_mem_dumpsString h
      · exact (by decide : 0x20 ≤ ':'.toNat)
      · exact hall (k, x) List.mem_cons_self c h
      · rcases mem_dumpsFields h with rfl | rfl | ⟨g, hg, h | h⟩
        · exact (by decide : 0x20 ≤ ','.toNat)
        · exact (by decide : 0x20 ≤ ':'.toNat)
        · exact isPrintable_of_mem_dumpsString h
        · exact hall g (List.mem_cons_of_mem _ hg) c h
      · exact (by decide : 0x20 ≤ '\x7d'.toNat)

/-! ## Lines of a file -/

/-- Universal newlines: `\r\n` and `\r` become `\n`. -/
def translateNewlines : List Char → List Char
  | [] => []
  | '\r' :: '\n' :: rest => '\n' :: translateNewlines rest
  | c :: rest => (if c = '\r' then '\n' else c) :: translateNewlines rest

/-- The text after each line feed is a line of its own. -/
def splitLines : List Char → List (List Char)
  | [] => []
  | c :: rest =>
    if c = '\n' then [c] :: splitLines rest
    else
      match splitLines rest with
      | [] => [[c]]
      | line :: lines => (c :: line) :: lines

/-- A printable text with a line feed after it. -/
def IsLine (line : List Char) : Prop :=
  ∃ body, line = body ++ ['\n'] ∧ ∀ c ∈ body, IsPrintable c

theorem translateNewlines_of_notMem {text : List Char} (h : '\r' ∉ text) :
    translateNewlines text = text := by
  fun_induction translateNewlines text with
  | case1 => rfl
  | case2 rest ih => exact absurd List.mem_cons_self h
  | case3 c rest _ ih =>
    rw [List.mem_cons, not_or] at h
    rw [if_neg (Ne.symm h.1), ih h.2]

theorem splitLines_line {body : List Char} (h : '\n' ∉ body) (rest : List Char) :
    splitLines (body ++ '\n' :: rest) = (body ++ ['\n']) :: splitLines rest := by
  induction body with
  | nil => rw [List.nil_append, splitLines, if_pos rfl, List.nil_append]
  | cons c body ih =>
    rw [List.mem_cons, not_or] at h
    rw [List.cons_append, splitLines, if_neg (Ne.symm h.1), ih h.2, List.cons_append]

theorem notMem_of_isPrintable {text : List Char} {c : Char} (hc : c.toNat < 0x20)
    (h : ∀ c ∈ text, IsPrintable c) : c ∉ text := fun hmem ↦ by
  have hle : 0x20 ≤ c.toNat := h c hmem
  omega

theorem splitLines_flatten {lines : List (List Char)} (h : ∀ line ∈ lines, IsLine line) :
    splitLines lines.flatten = lines := by
  induction lines with
  | nil => rfl
  | cons line lines ih =>
    obtain ⟨⟨body, rfl, hbody⟩, hlines⟩ := List.forall_mem_cons.mp h
    rw [List.flatten_cons, List.append_assoc, List.singleton_append,
      splitLines_line (notMem_of_isPrintable (by decide) hbody), ih hlines]

/-- The lines of a text file; a file that is not UTF-8 cannot be read. -/
def linesOf (file : List ℕ) : Option (List (List Char)) :=
  (decodeUtf8 file).map fun text ↦ splitLines (translateNewlines text)

/-- Lines that were written are read. -/
theorem linesOf_flatten {lines : List (List Char)} (h : ∀ line ∈ lines, IsLine line) :
    linesOf (encodeUtf8 lines.flatten) = some lines := by
  have hreturn : '\r' ∉ lines.flatten := by
    intro hmem
    obtain ⟨line, hline, hmem⟩ := List.mem_flatten.mp hmem
    obtain ⟨body, rfl, hbody⟩ := h line hline
    rcases List.mem_append.mp hmem with hmem | hmem
    · exact notMem_of_isPrintable (by decide) hbody hmem
    · exact absurd (List.mem_singleton.mp hmem) (by decide)
  rw [linesOf, decodeUtf8_encodeUtf8, Option.map_some, translateNewlines_of_notMem hreturn,
    splitLines_flatten h]

/-! ## Padded values -/

section Padded

variable [Platform] [FloatReader]

/-- The text of a value with spaces and a line feed after it. -/
def paddedLine (c : Json) (spaces : ℕ) : List Char :=
    dumps c ++ (List.replicate spaces ' ' ++ ['\n'])

omit [Platform] in
theorem FloatValue.Genuine.isAscii {f : FloatValue} (h : f.Genuine) : isAscii f.text = true := by
  refine List.all_eq_true.mpr fun c hc ↦ decide_eq_true ?_
  have hnumber := h.number c hc
  have hcases : c.isDigit = true ∨ c = '.' ∨ c = 'e' ∨ c = 'E' ∨ c = '+' ∨ c = '-' := by
    simpa [isNumberChar, or_assoc] using hnumber
  rcases hcases with hdigit | rfl | rfl | rfl | rfl | rfl
  · exact toNat_lt_of_isDigit hdigit
  all_goals decide

namespace PyValue

variable {v : PyValue} {c : Json} {d spaces : ℕ}

theorem Proper.readable (h : v.Proper) (hc : v.canonicalValue d = .ok c) :
    Readable FloatValue.Genuine c :=
  readable_of_canonicalValue v h.distinct (floats_of_canonicalValue v h.floats hc) hc

/-- The octets of a canonical value are those of its text. -/
theorem Proper.spell_eq (h : v.Proper) (hc : v.canonicalValue d = .ok c) :
    spell c = encodeUtf8 (dumps c) :=
  EventHorizon.spell_eq c
    (asciiFloats_of_readable (fun _ hf ↦ FloatValue.Genuine.isAscii hf) c (h.readable hc))

theorem Proper.isLine_paddedLine (h : v.Proper) (hc : v.canonicalValue d = .ok c) :
    IsLine (paddedLine c spaces) := by
  refine ⟨dumps c ++ List.replicate spaces ' ', by rw [paddedLine, List.append_assoc], ?_⟩
  intro x hx
  rcases List.mem_append.mp hx with hx | hx
  · exact isPrintable_of_mem_dumps
      (fun f hf c hc ↦ isPrintable_of_isNumberChar (FloatValue.Genuine.number hf c hc)) c
      (h.readable hc) x hx
  · rw [List.eq_of_mem_replicate hx]
    exact (by decide : 0x20 ≤ ' '.toNat)

/-- `json.loads` reads the value from its line, tuples as lists. -/
theorem Proper.loads_paddedLine (h : v.Proper) (hc : v.canonicalValue d = .ok c) :
    loads defaultHooks (paddedLine c spaces) = .ok v.listed := by
  have hspace : skipSpace (List.replicate spaces ' ' ++ ['\n']) = [] := by
    refine List.dropWhile_eq_nil_iff.mpr fun x hx ↦ ?_
    rcases List.mem_append.mp hx with hx | hx
    · rw [List.eq_of_mem_replicate hx]
      rfl
    · rw [List.mem_singleton.mp hx]
      rfl
  have hends : Ends (List.replicate spaces ' ' ++ ['\n']) := by
    intro x hx
    cases spaces with
    | zero =>
      cases hx
      rfl
    | succ n =>
      cases hx
      rfl
  rw [paddedLine, loads_dumps defaultHooks_reads (h.readable hc) hspace hends,
    listed_of_canonicalValue v d c hc]

end PyValue

end Padded

end EventHorizon
