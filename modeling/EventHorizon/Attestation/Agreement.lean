import EventHorizon.Attestation.Canonical

/-!
# The two canonical forms agree

TypeScript and Python make the same bytes of a value within the limits, or both refuse it, unless a
string of the value has a lone surrogate, which only Python refuses, or a key is `__proto__`, which
TypeScript drops.
-/

namespace EventHorizon.Attestation

section

-- the equations are made here once, not in each of the proofs that follow
attribute [local simp] JsValue.toPython JsValue.toPythonItems JsValue.toPythonFields
  JsValue.Distinct JsValue.DistinctItems JsValue.DistinctFields JsValue.Texts JsValue.TextsItems
  JsValue.TextsFields JsValue.normalize JsValue.normalizeItems JsValue.normalizeFields
  JsValue.serialize JsValue.serializeItems JsValue.serializeFields

end

/-! ## Strings -/

namespace JsString

/-- The code units of a code point. -/
def codeUnits : CodePoint → List UInt16
  | .surrogate n => [.ofNat (0xd800 + n)]
  | .scalar c =>
    if c.toNat < 0x10000 then [.ofNat c.toNat]
    else [.ofNat (0xd800 + (c.toNat - 0x10000) / 0x400),
      .ofNat (0xdc00 + (c.toNat - 0x10000) % 0x400)]

theorem codeUnits_loneUnit (u : UInt16) : codeUnits (loneUnit u) = [u] := by
  have hu := u.toNat_lt
  rw [loneUnit]
  split
  case isTrue h =>
    have hn : 0xd800 + (u.toNat - 0xd800) = u.toNat := by omega
    rw [codeUnits, hn, UInt16.ofNat_toNat]
  case isFalse h =>
    have hvalid : u.toNat.isValidChar := by
      rw [Nat.isValidChar]
      omega
    have hn : (Char.ofNat u.toNat).toNat = u.toNat := by
      rw [Char.ofNat, dif_pos hvalid]
      rfl
    rw [codeUnits, hn, if_pos (by omega), UInt16.ofNat_toNat]

/-- A code unit before a string is a code unit before the code units of the string. -/
theorem flatMap_consUnit (u : UInt16) (s : PyStr) :
    (consUnit (loneUnit u) s).flatMap codeUnits = u :: s.flatMap codeUnits := by
  have hcons : (loneUnit u :: s).flatMap codeUnits = u :: s.flatMap codeUnits := by
    rw [List.flatMap_cons, codeUnits_loneUnit]
    rfl
  cases hunit : loneUnit u with
  | scalar c =>
    rw [consUnit, ← hunit]
    · exact hcons
    · simp
  | surrogate n =>
    have hu : u = .ofNat (0xd800 + n) := by
      have hunits := codeUnits_loneUnit u
      rw [hunit, codeUnits] at hunits
      exact (List.singleton_inj.mp hunits).symm
    rcases s with _ | ⟨c | m, rest⟩
    · rw [consUnit, ← hunit]
      · exact hcons
      · simp
    · rw [consUnit, ← hunit]
      · exact hcons
      · simp
    · rw [consUnit]
      split
      case isFalse =>
        rw [← hunit]
        exact hcons
      case isTrue hpair =>
        -- a high and a low surrogate: one code point, and again the two units
        have hm := m.isLt
        have hvalid : Nat.isValidChar (0x10000 + n * 0x400 + (m - 0x400)) :=
          .inr ⟨by omega, by omega⟩
        have hn : (Char.ofNat (0x10000 + n * 0x400 + (m - 0x400))).toNat =
            0x10000 + n * 0x400 + (m - 0x400) := by
          rw [Char.ofNat, dif_pos hvalid]
          rfl
        have hhigh : (0x10000 + n * 0x400 + (m - 0x400) - 0x10000) / 0x400 = (n : ℕ) := by omega
        have hlow : 0xdc00 + (0x10000 + n * 0x400 + (m - 0x400) - 0x10000) % 0x400 =
            0xd800 + (m : ℕ) := by omega
        rw [List.flatMap_cons, List.flatMap_cons, hu]
        simp only [codeUnits, hn, hhigh, hlow]
        rw [if_neg (by omega)]
        rfl

theorem codePoints_injective : Function.Injective codePoints := by
  have hunits : ∀ s : JsString, (codePoints s).flatMap codeUnits = s := by
    intro s
    induction s with
    | nil => rfl
    | cons u s ih =>
      have hcons : codePoints (u :: s) = consUnit (loneUnit u) (codePoints s) := rfl
      rw [hcons, flatMap_consUnit, ih]
  intro s t h
  rw [← hunits s, h, hunits t]

/-- A well-formed string is the string of a text. -/
theorem codePoints_eq (s : JsString) (h : s.isWellFormed = true) :
    ∃ t : String, s.codePoints = .ofString t := by
  obtain ⟨t, ht⟩ := Option.isSome_iff_exists.mp h
  exact ⟨t, PyStr.eq_ofString_of_text? ht⟩

theorem byteLength_eq {s : JsString} {t : String} (h : s.codePoints = .ofString t) :
    s.byteLength = t.utf8ByteSize := by
  have hsum : ∀ cs : List Char, ((cs.map CodePoint.scalar).map octets).sum =
      (String.ofList cs).utf8ByteSize := by
    intro cs
    induction cs with
    | nil => rfl
    | cons c cs ih =>
      rw [List.map_cons, List.map_cons, List.sum_cons, ih, String.ofList_cons,
        String.utf8ByteSize_append, String.utf8ByteSize_singleton]
      rfl
  rw [byteLength, h, PyStr.ofString, hsum, String.ofList_toList]

end JsString

/-! ## The order of keys -/

/-- The loop compares as lists are ordered. -/
theorem comparePoints_pos (left right : List ℕ) :
    0 < comparePoints left right ↔ right < left := by
  induction left generalizing right with
  | nil =>
    have hle : ¬0 < comparePoints [] right := by
      rw [comparePoints]
      · simp
      · simp
    exact iff_of_false hle (List.not_lt_nil right)
  | cons l left ih =>
    cases right with
    | nil =>
      have hlt : 0 < comparePoints (l :: left) [] := by
        rw [comparePoints]
        · simp
        · simp
      exact iff_of_true hlt (List.nil_lt_cons l left)
    | cons r right =>
      rw [comparePoints, List.cons_lt_cons_iff, ← ih]
      split
      case isTrue hne => omega
      case isFalse heq => omega

theorem compareUnicodeCodePoints_le_zero (left right : JsString) :
    compareUnicodeCodePoints left right ≤ 0 ↔ left.codePoints.codes ≤ right.codePoints.codes := by
  rw [← not_lt, compareUnicodeCodePoints, comparePoints_pos, not_lt]

/-- The keys of an object in the order of the items of its dictionary. -/
theorem sortItems_codePoints {β γ : Type} (g : β → γ) (fields : List (JsString × β)) :
    PyValue.sortItems (fields.map fun f ↦ (PyKey.str f.1.codePoints, g f.2)) =
      (sortKeys fields).map fun f ↦ (PyKey.str f.1.codePoints, g f.2) := by
  rw [PyValue.sortItems, sortKeys, List.map_insertionSort _ (fun f g ↦ f.1.codes ≤ g.1.codes)]
  exact fun f _ g _ ↦ compareUnicodeCodePoints_le_zero f.1 g.1

theorem sortKeys_map {β γ : Type} (g : β → γ) (fields : List (JsString × β)) :
    sortKeys (fields.map fun f ↦ (f.1, g f.2)) = (sortKeys fields).map fun f ↦ (f.1, g f.2) := by
  rw [sortKeys, sortKeys,
    List.map_insertionSort _ (fun f g ↦ compareUnicodeCodePoints f.1 g.1 ≤ 0)]
  exact fun _ _ _ _ ↦ Iff.rfl

theorem perm_sortKeys {β : Type} (fields : List (JsString × β)) : (sortKeys fields).Perm fields :=
  List.perm_insertionSort _ fields

theorem pairwise_sortKeys {β : Type} (fields : List (JsString × β)) :
    (sortKeys fields).Pairwise fun f g ↦ f.1.codePoints.codes ≤ g.1.codePoints.codes := by
  have hsort : sortKeys fields =
      fields.insertionSort fun f g ↦ f.1.codePoints.codes ≤ g.1.codePoints.codes := by
    rw [sortKeys]
    congr 1
    funext f g
    exact propext (compareUnicodeCodePoints_le_zero f.1 g.1)
  have : Std.Total (α := JsString × β) fun f g ↦ f.1.codePoints.codes ≤ g.1.codePoints.codes :=
    ⟨fun f g ↦ le_total f.1.codePoints.codes g.1.codePoints.codes⟩
  have : IsTrans (JsString × β) fun f g ↦ f.1.codePoints.codes ≤ g.1.codePoints.codes :=
    ⟨fun _ _ _ h h' ↦ le_trans h h'⟩
  rw [hsort]
  exact List.pairwise_insertionSort _ fields

theorem sortKeys_of_pairwise {β : Type} {fields : List (JsString × β)}
    (h : fields.Pairwise fun f g ↦ f.1.codePoints.codes ≤ g.1.codePoints.codes) :
    sortKeys fields = fields :=
  (h.imp fun hle ↦ (compareUnicodeCodePoints_le_zero _ _).mpr hle).insertionSort_eq

/-! ## Escapes -/

theorem stringifyPoint_scalar (c : Char) : stringifyPoint (.scalar c) = dumpsChar c := by
  rcases Nat.lt_or_ge c.toNat 0x80 with h | h
  · exact of_ascii (P := fun c ↦ stringifyPoint (.scalar c) = dumpsChar c) (by decide +kernel) h
  · rw [dumpsChar_of_le h, stringifyPoint]
    iterate 8 rw [if_neg (by omega)]

theorem stringify_eq {s : JsString} {t : String} (h : s.codePoints = .ofString t) :
    stringify s = dumpsString t := by
  rw [stringify, dumpsString, h, PyStr.ofString, List.flatMap_map]
  exact congrArg (fun text ↦ '"' :: text ++ ['"'])
    (List.flatMap_congr fun c _ ↦ stringifyPoint_scalar c)

/-! ## Decisions -/

section Decisions

variable {ε α β : Type}

/-- A computation gives the value when the condition holds, and raises when it does not. -/
def Decides (x : Except ε α) (P : Prop) (a : α) : Prop :=
  (P → x = .ok a) ∧ (¬P → ∃ e, x = .error e)

theorem decides_bind {x : Except ε α} {f : α → Except ε β} {P Q : Prop} {a : α} {b : β}
    (hx : Decides x P a) (hf : Decides (f a) Q b) : Decides (x >>= f) (P ∧ Q) b := by
  by_cases hP : P
  · have hfa : (x >>= f) = f a := by rw [hx.1 hP]; rfl
    rw [hfa]
    exact ⟨fun h ↦ hf.1 h.2, fun h ↦ hf.2 fun hQ ↦ h ⟨hP, hQ⟩⟩
  · obtain ⟨e, he⟩ := hx.2 hP
    rw [he]
    exact ⟨fun h ↦ absurd h.1 hP, fun _ ↦ ⟨e, rfl⟩⟩

theorem Decides.map {x : Except ε α} {P : Prop} {a : α} (h : Decides x P a)
    (f : α → β) : Decides (x.map f) P (f a) :=
  ⟨fun hP ↦ by rw [h.1 hP]; rfl, fun hP ↦ by
    obtain ⟨e, he⟩ := h.2 hP
    exact ⟨e, by rw [he]; rfl⟩⟩

theorem decides_guard {p : Prop} [Decidable p] {e : ε} {x : Except ε α} {P : Prop} {a : α}
    (h : Decides x P a) : Decides (if p then .error e else x) (¬p ∧ P) a := by
  split
  case isTrue hp => exact ⟨fun h ↦ absurd hp h.1, fun _ ↦ ⟨e, rfl⟩⟩
  case isFalse hp => exact ⟨fun hP ↦ h.1 hP.2, fun hP ↦ h.2 fun hp' ↦ hP ⟨hp, hp'⟩⟩

theorem decides_ok (a : α) : Decides (.ok a : Except ε α) True a :=
  ⟨fun _ ↦ rfl, fun h ↦ absurd trivial h⟩

theorem Decides.congr {x : Except ε α} {P Q : Prop} {a : α} (h : Decides x P a)
    (hiff : P ↔ Q) : Decides x Q a :=
    ⟨fun hQ ↦ h.1 (hiff.mpr hQ), fun hQ ↦ h.2 fun hP ↦ hQ (hiff.mp hP)⟩

end Decisions

/-! ## Limits -/

namespace JsValue

theorem toPythonItems_eq_map (items : List JsValue) : toPythonItems items = items.map toPython := by
  induction items with
  | nil => rfl
  | cons x xs ih => rw [toPythonItems, ih, List.map_cons]

theorem toPythonFields_eq_map (fields : List (JsString × JsValue)) :
    toPythonFields fields = fields.map fun f ↦ (.str f.1.codePoints, toPython f.2) := by
  induction fields with
  | nil => rfl
  | cons f fields ih => rw [toPythonFields, ih, List.map_cons]

theorem distinctItems_iff {items : List JsValue} : DistinctItems items ↔
    ∀ x ∈ items, x.Distinct := by
  induction items with
  | nil => simp [DistinctItems]
  | cons x xs ih => simp [DistinctItems, ih]

theorem distinctFields_iff {fields : List (JsString × JsValue)} :
    DistinctFields fields ↔ ∀ f ∈ fields, f.2.Distinct := by
  induction fields with
  | nil => simp [DistinctFields]
  | cons f fields ih => simp [DistinctFields, ih]

theorem textsItems_iff {P K : JsString → Prop} {items : List JsValue} :
    TextsItems P K items ↔ ∀ x ∈ items, x.Texts P K := by
  induction items with
  | nil => simp [TextsItems]
  | cons x xs ih => simp [TextsItems, ih]

theorem textsFields_iff {P K : JsString → Prop} {fields : List (JsString × JsValue)} :
    TextsFields P K fields ↔ ∀ f ∈ fields, K f.1 ∧ f.2.Texts P K := by
  induction fields with
  | nil => simp [TextsFields]
  | cons f fields ih => simp [TextsFields, ih, and_assoc]

/-- No string and no key of the value has a lone surrogate. -/
def WellFormed (v : JsValue) : Prop :=
    v.Texts (fun s ↦ s.isWellFormed = true) fun s ↦ s.isWellFormed = true

/-- No object of the value has the key `__proto__`. -/
def ProtoFree (v : JsValue) : Prop := v.Texts (fun _ ↦ True) (· ≠ protoKey)

/-- The keys of the Python value are distinct too. -/
theorem Distinct.toPython {v : JsValue} (h : v.Distinct) : v.toPython.Distinct := by
  induction v using JsValue.induction with
  | null | boolean | number | string => trivial
  | array items ih =>
    rw [JsValue.toPython, PyValue.Distinct, toPythonItems_eq_map, PyValue.distinctItems_iff]
    rintro y hy
    obtain ⟨x, hx, rfl⟩ := List.mem_map.mp hy
    exact ih x hx (distinctItems_iff.mp h x hx)
  | object fields ih =>
    rw [JsValue.toPython, PyValue.Distinct, toPythonFields_eq_map, PyValue.distinctFields_iff,
      List.map_map]
    refine ⟨?_, ?_⟩
    · have hkeys := h.1.map (f := fun k : JsString ↦ PyKey.str k.codePoints) fun k l hkl ↦
        JsString.codePoints_injective (PyKey.str.inj hkl)
      rwa [List.map_map] at hkeys
    · rintro g hg
      obtain ⟨f, hf, rfl⟩ := List.mem_map.mp hg
      exact ih f hf (distinctFields_iff.mp h.2 f hf)

theorem floatFree_toPython (v : JsValue) : v.toPython.FloatFree := by
  induction v using JsValue.induction with
  | null | boolean | number | string => trivial
  | array items ih =>
    rw [toPython, PyValue.FloatFree, PyValue.Floats, toPythonItems_eq_map, PyValue.floatsItems_iff]
    rintro y hy
    obtain ⟨x, hx, rfl⟩ := List.mem_map.mp hy
    exact ih x hx
  | object fields ih =>
    rw [toPython, PyValue.FloatFree, PyValue.Floats, toPythonFields_eq_map,
      PyValue.floatsFields_iff]
    rintro g hg
    obtain ⟨f, hf, rfl⟩ := List.mem_map.mp hg
    exact ih f hf

section Limits

/-- A string within the limits, and as `N` requires. -/
def TextWithin (N : JsString → Prop) (s : JsString) : Prop :=
  N s ∧ s.byteLength ≤ maxCanonicalStringBytes

mutual

/-- A value within the limits, when it is so many levels down. Its strings and keys are as `N`
requires. -/
def Within (N : JsString → Prop) (depth : ℕ) : JsValue → Prop
  | .null | .boolean _ => depth ≤ maxCanonicalDepth
  | .number n => depth ≤ maxCanonicalDepth ∧ n.natAbs ≤ maxSafeInteger
  | .string s => depth ≤ maxCanonicalDepth ∧ TextWithin N s
  | .array items => depth ≤ maxCanonicalDepth ∧ items.length ≤ maxCanonicalItems ∧
      WithinItems N (depth + 1) items
  | .object fields => depth ≤ maxCanonicalDepth ∧ fields.length ≤ maxCanonicalItems ∧
      WithinFields N (depth + 1) fields

def WithinItems (N : JsString → Prop) (depth : ℕ) : List JsValue → Prop
  | [] => True
  | x :: xs => Within N depth x ∧ WithinItems N depth xs

def WithinFields (N : JsString → Prop) (depth : ℕ) : List (JsString × JsValue) → Prop
  | [] => True
  | (k, x) :: xs =>
    (depth ≤ maxCanonicalDepth ∧ TextWithin N k) ∧ Within N depth x ∧ WithinFields N depth xs

end

section

-- the equations are made here once, not in each of the proofs that follow
attribute [local simp] Within WithinItems WithinFields

end

variable {N : JsString → Prop}

theorem withinItems_iff {d : ℕ} {items : List JsValue} :
    WithinItems N d items ↔ ∀ x ∈ items, x.Within N d := by
  induction items with
  | nil => simp [WithinItems]
  | cons x xs ih => simp [WithinItems, ih]

theorem withinFields_iff {d : ℕ} {fields : List (JsString × JsValue)} :
    WithinFields N d fields ↔
      ∀ f ∈ fields, (d ≤ maxCanonicalDepth ∧ TextWithin N f.1) ∧ f.2.Within N d := by
  induction fields with
  | nil => simp [WithinFields]
  | cons f fields ih => simp [WithinFields, ih, and_assoc]

/-- The limits, and what is required of the texts. -/
theorem within_iff (v : JsValue) :
    ∀ d, v.Within N d ↔ v.Within (fun _ ↦ True) d ∧ v.Texts N N := by
  induction v using JsValue.induction with
  | null | boolean | number => exact fun d ↦ (and_iff_left trivial).symm
  | string s =>
    intro d
    simp only [Within, TextWithin, Texts]
    tauto
  | array items ih =>
    intro d
    have hitems : (∀ x ∈ items, x.Within N (d + 1)) ↔
        (∀ x ∈ items, x.Within (fun _ ↦ True) (d + 1)) ∧ ∀ x ∈ items, x.Texts N N := by
      rw [← forall₂_and]
      exact forall₂_congr fun x hx ↦ ih x hx (d + 1)
    rw [Within, Within, Texts, withinItems_iff, withinItems_iff, textsItems_iff, hitems, and_assoc,
      and_assoc]
  | object fields ih =>
    intro d
    have hfields : (∀ f ∈ fields, (d + 1 ≤ maxCanonicalDepth ∧ TextWithin N f.1) ∧
          f.2.Within N (d + 1)) ↔
        (∀ f ∈ fields, (d + 1 ≤ maxCanonicalDepth ∧ TextWithin (fun _ ↦ True) f.1) ∧
          f.2.Within (fun _ ↦ True) (d + 1)) ∧ ∀ f ∈ fields, N f.1 ∧ f.2.Texts N N := by
      rw [← forall₂_and]
      refine forall₂_congr fun f hf ↦ ?_
      rw [ih f hf (d + 1), TextWithin, TextWithin]
      tauto
    rw [Within, Within, Texts, withinFields_iff, withinFields_iff, textsFields_iff, hfields,
      and_assoc, and_assoc]

end Limits

/-- `value.normalize('NFC') === value`. -/
def NodeNormal [JavaScript] (s : JsString) : Prop := JavaScript.isNfc s = true

/-- `unicodedata.normalize("NFC", value) == value`. -/
def PythonNormal [Platform] (s : JsString) : Prop := s.codePoints.isNfc = true

instance [JavaScript] (s : JsString) : Decidable (NodeNormal s) :=
  inferInstanceAs (Decidable (_ = true))

instance [Platform] (s : JsString) : Decidable (PythonNormal s) :=
  inferInstanceAs (Decidable (_ = true))

mutual

/-- The copy that `normalize` makes of a value within the limits. -/
def copy : JsValue → JsValue
  | .array items => .array (copyItems items)
  | .object fields => .object ((sortKeys (copyFields fields)).filter fun f ↦ f.1 ≠ protoKey)
  | .null => .null
  | .boolean b => .boolean b
  | .number n => .number n
  | .string s => .string s

def copyItems : List JsValue → List JsValue
  | [] => []
  | x :: xs => copy x :: copyItems xs

def copyFields : List (JsString × JsValue) → List (JsString × JsValue)
  | [] => []
  | (k, x) :: xs => (k, copy x) :: copyFields xs

end

section

-- the equations are made here once, not in each of the proofs that follow
attribute [local simp] copy copyItems copyFields

end

theorem copyItems_eq_map (items : List JsValue) : copyItems items = items.map copy := by
  induction items with
  | nil => rfl
  | cons x xs ih => rw [copyItems, ih, List.map_cons]

theorem copyFields_eq_map (fields : List (JsString × JsValue)) :
    copyFields fields = fields.map fun f ↦ (f.1, copy f.2) := by
  induction fields with
  | nil => rfl
  | cons f fields ih => rw [copyFields, ih, List.map_cons]

section Normalize

variable [JavaScript] {d : ℕ}

theorem decides_normalizeString (s : JsString) :
    Decides (normalizeString d s) (d ≤ maxCanonicalDepth ∧ TextWithin NodeNormal s) s := by
  refine (decides_guard (decides_guard (decides_guard (decides_ok s)))).congr ?_
  rw [TextWithin, NodeNormal, Bool.not_eq_true', Bool.not_eq_false, not_lt, not_lt, and_true]

theorem decides_normalizeItems {items : List JsValue}
    (h : ∀ x ∈ items, Decides (x.normalize d) (x.Within NodeNormal d) x.copy) :
    Decides (normalizeItems d items) (WithinItems NodeNormal d items) (copyItems items) := by
  induction items with
  | nil => exact decides_ok []
  | cons x xs ih =>
    obtain ⟨hx, hxs⟩ := List.forall_mem_cons.mp h
    refine (decides_bind hx (decides_bind (ih hxs) (decides_ok (x.copy :: copyItems xs)))).congr ?_
    rw [WithinItems, and_true]

/-- The loop over the keys, in whatever order they are. -/
theorem decides_normalizeEntries {fields : List (JsString × JsValue)}
    (h : ∀ f ∈ fields, Decides (f.2.normalize d) (f.2.Within NodeNormal d) f.2.copy) :
    Decides (normalizeEntries d (fields.map fun f ↦ (f.1, normalize d f.2)))
      (WithinFields NodeNormal d fields)
      ((fields.map fun f ↦ (f.1, copy f.2)).filter fun f ↦ f.1 ≠ protoKey) := by
  induction fields with
  | nil => exact decides_ok []
  | cons f fields ih =>
    obtain ⟨hf, hfields⟩ := List.forall_mem_cons.mp h
    have hassign : assign f.1 f.2.copy
        ((fields.map fun f ↦ (f.1, copy f.2)).filter fun f ↦ f.1 ≠ protoKey) =
        (((f :: fields).map fun f ↦ (f.1, copy f.2)).filter fun f ↦ f.1 ≠ protoKey) := by
      rw [assign, List.map_cons, List.filter_cons]
      by_cases hproto : f.1 = protoKey
      · simp [hproto]
      · simp [hproto]
    rw [← hassign]
    refine (decides_bind (decides_normalizeString f.1) (decides_bind hf
      (decides_bind (ih hfields) (decides_ok (assign f.1 f.2.copy _))))).congr ?_
    rw [WithinFields, and_true]

/-- `normalize` copies the values within the limits and raises on the others. -/
theorem decides_normalize (v : JsValue) :
    ∀ d, Decides (v.normalize d) (v.Within NodeNormal d) v.copy := by
  induction v using JsValue.induction with
  | null | boolean =>
    exact fun d ↦ (decides_guard (decides_ok _)).congr (by rw [Within, not_lt, and_true])
  | number n =>
    exact fun d ↦ (decides_guard (decides_guard (decides_ok _))).congr
      (by rw [Within, not_lt, not_lt, and_true])
  | string s => exact fun d ↦ (decides_normalizeString s).map _
  | array items ih =>
    intro d
    refine (decides_guard (decides_guard
      ((decides_normalizeItems fun x hx ↦ ih x hx (d + 1)).map JsValue.array))).congr ?_
    rw [Within, not_lt, not_lt]
  | object fields ih =>
    intro d
    have hfields : normalizeFields (d + 1) fields =
        fields.map fun f ↦ (f.1, normalize (d + 1) f.2) := by
      clear ih
      induction fields with
      | nil => rfl
      | cons f fields ih => rw [normalizeFields, ih, List.map_cons]
    have hentries := @decides_normalizeEntries _ _ (sortKeys fields)
      fun f hf ↦ ih f ((perm_sortKeys fields).mem_iff.mp hf) (d + 1)
    have hwithin : WithinFields NodeNormal (d + 1) (sortKeys fields) ↔
        WithinFields NodeNormal (d + 1) fields := by
      simp only [withinFields_iff, (perm_sortKeys fields).mem_iff]
    rw [normalize, hfields, sortKeys_map, copy, copyFields_eq_map, sortKeys_map]
    refine (decides_guard (decides_guard (hentries.map JsValue.object))).congr ?_
    rw [Within, not_lt, not_lt, hwithin]

end Normalize

/-! ## The Python side -/

section Python

variable [Platform] {d : ℕ}

/-- The text that Python makes of a string. -/
theorem canonicalText_iff {s : JsString} {t : String} : s.codePoints.canonicalText d = .ok t ↔
    (d ≤ maxCanonicalDepth ∧ TextWithin PythonNormal s) ∧ s.codePoints = .ofString t := by
  have hcanonical : ∀ t : String, s.codePoints = .ofString t →
      (s.codePoints.canonicalText d = .ok t ↔ d ≤ maxCanonicalDepth ∧
      TextWithin PythonNormal s) := by
    intro t ht
    rw [TextWithin, PythonNormal, JsString.byteLength_eq ht, ht, PyValue.canonicalText_ofString,
      canonicalString]
    have hdepth : EventHorizon.maxCanonicalDepth = maxCanonicalDepth := rfl
    have hbytes : EventHorizon.maxCanonicalStringBytes = maxCanonicalStringBytes := rfl
    rw [hdepth, hbytes, PyStr.isNfc_ofString]
    split
    case isTrue h => exact iff_of_false (fun h ↦ by cases h) fun hle ↦ by omega
    split
    case isTrue h hnfc =>
      refine iff_of_false (fun h ↦ by cases h) fun hle ↦ ?_
      rw [hle.2.1] at hnfc
      cases hnfc
    split
    case isTrue h => exact iff_of_false (fun h ↦ by cases h) fun hle ↦ by omega
    case isFalse h hnfc hlen =>
      refine iff_of_true rfl ⟨by omega, ?_, by omega⟩
      simpa using hnfc
  constructor
  · intro h
    have ht := PyValue.canonicalText_eq_ok h
    exact ⟨(hcanonical t ht).mp h, ht⟩
  · rintro ⟨hwithin, ht⟩
    exact (hcanonical t ht).mpr hwithin

theorem exists_canonicalText {s : JsString} : (∃ t, s.codePoints.canonicalText d = .ok t) ↔
    (d ≤ maxCanonicalDepth ∧ TextWithin PythonNormal s) ∧ s.isWellFormed = true := by
  constructor
  · rintro ⟨t, ht⟩
    obtain ⟨hwithin, ht⟩ := canonicalText_iff.mp ht
    refine ⟨hwithin, ?_⟩
    rw [JsString.isWellFormed, ht, PyStr.text?_ofString]
    rfl
  · rintro ⟨hwithin, hwell⟩
    obtain ⟨t, ht⟩ := s.codePoints_eq hwell
    exact ⟨t, canonicalText_iff.mpr ⟨hwithin, ht⟩⟩

theorem canonicalItems_eq_ok {items : List JsValue} {out : List Json} :
    PyValue.canonicalItems d (toPythonItems items) = .ok out ↔
      List.Forall₂ (fun x c ↦ x.toPython.canonicalValue d = .ok c) items out := by
  induction items generalizing out with
  | nil =>
    rw [toPythonItems, PyValue.canonicalItems, List.forall₂_nil_left_iff, Except.ok.injEq, eq_comm]
  | cons x xs ih =>
    rw [toPythonItems, PyValue.canonicalItems, bind_eq_ok, List.forall₂_cons_left_iff]
    constructor
    · rintro ⟨c, hc, h⟩
      obtain ⟨cs, hcs, h⟩ := bind_eq_ok.mp h
      exact ⟨c, cs, hc, ih.mp hcs, (Except.ok.inj h).symm⟩
    · rintro ⟨c, cs, hc, hcs, rfl⟩
      exact ⟨c, hc, bind_eq_ok.mpr ⟨cs, ih.mpr hcs, rfl⟩⟩

theorem canonicalEntries_eq_ok {fields : List (JsString × JsValue)} {out : List (String × Json)} :
    PyValue.canonicalEntries d (fields.map fun f ↦
        (PyKey.str f.1.codePoints, f.2.toPython.canonicalValue d)) = .ok out ↔
      List.Forall₂ (fun f o ↦ f.1.codePoints.canonicalText d = .ok o.1 ∧
        f.2.toPython.canonicalValue d = .ok o.2) fields out := by
  induction fields generalizing out with
  | nil =>
    rw [List.map_nil, PyValue.canonicalEntries, List.forall₂_nil_left_iff, Except.ok.injEq, eq_comm]
  | cons f fields ih =>
    rw [List.map_cons, PyValue.canonicalEntries, bind_eq_ok, List.forall₂_cons_left_iff]
    constructor
    · rintro ⟨k, hk, h⟩
      obtain ⟨c, hc, h⟩ := bind_eq_ok.mp h
      obtain ⟨rest, hrest, h⟩ := bind_eq_ok.mp h
      exact ⟨(k, c), rest, ⟨hk, hc⟩, ih.mp hrest, (Except.ok.inj h).symm⟩
    · rintro ⟨⟨k, c⟩, rest, ⟨hk, hc⟩, hrest, rfl⟩
      exact ⟨k, hk, bind_eq_ok.mpr ⟨c, hc, bind_eq_ok.mpr ⟨rest, ih.mpr hrest, rfl⟩⟩⟩

omit [Platform] in
theorem exists_forall₂ {α β : Type} {R : α → β → Prop} {xs : List α} :
    (∃ ys, List.Forall₂ R xs ys) ↔ ∀ x ∈ xs, ∃ y, R x y := by
  induction xs with
  | nil => simp
  | cons x xs ih =>
    simp only [List.forall₂_cons_left_iff, List.forall_mem_cons, ← ih]
    constructor
    · rintro ⟨-, y, ys, hy, hys, -⟩
      exact ⟨⟨y, hy⟩, ys, hys⟩
    · rintro ⟨⟨y, hy⟩, ys, hys⟩
      exact ⟨_, y, ys, hy, hys, rfl⟩

/-- Python's form of an object. -/
theorem canonicalValue_object_eq_ok {fields : List (JsString × JsValue)} {c : Json} :
    (toPython (.object fields)).canonicalValue d = .ok c ↔
      d ≤ maxCanonicalDepth ∧ fields.length ≤ maxCanonicalItems ∧ ∃ out, c = .obj out ∧
        List.Forall₂ (fun f o ↦ f.1.codePoints.canonicalText (d + 1) = .ok o.1 ∧
          f.2.toPython.canonicalValue (d + 1) = .ok o.2) (sortKeys fields) out := by
  have hany : ((toPythonFields fields).any fun f ↦ f.1 = .other) = false := by
    rw [toPythonFields_eq_map, List.any_map]
    simp
  have hsort : PyValue.sortItems (PyValue.canonicalFields (d + 1) (toPythonFields fields)) =
      (sortKeys fields).map fun f ↦
        (PyKey.str f.1.codePoints, f.2.toPython.canonicalValue (d + 1)) := by
    rw [PyValue.canonicalFields_eq_map, toPythonFields_eq_map, List.map_map]
    exact sortItems_codePoints (fun x ↦ x.toPython.canonicalValue (d + 1)) fields
  rw [toPython, PyValue.canonicalValue, hany, hsort, toPythonFields_eq_map, List.length_map]
  have hdepth : EventHorizon.maxCanonicalDepth = maxCanonicalDepth := rfl
  have hitems : EventHorizon.maxCanonicalItems = maxCanonicalItems := rfl
  rw [hdepth, hitems, if_neg Bool.false_ne_true]
  split
  case isTrue h => exact iff_of_false nofun fun hc ↦ by omega
  split
  case isTrue h => exact iff_of_false nofun fun hc ↦ by omega
  case isFalse h h' =>
    rw [map_eq_ok]
    constructor
    · rintro ⟨out, hout, rfl⟩
      exact ⟨by omega, by omega, out, rfl, canonicalEntries_eq_ok.mp hout⟩
    · rintro ⟨-, -, out, rfl, hout⟩
      exact ⟨out, canonicalEntries_eq_ok.mpr hout, rfl⟩

/-- Python's form of an array. -/
theorem canonicalValue_array_eq_ok {items : List JsValue} {c : Json} :
    (toPython (.array items)).canonicalValue d = .ok c ↔
      d ≤ maxCanonicalDepth ∧ items.length ≤ maxCanonicalItems ∧ ∃ out, c = .arr out ∧
        List.Forall₂ (fun x c ↦ x.toPython.canonicalValue (d + 1) = .ok c) items out := by
  rw [toPython, PyValue.canonicalValue, toPythonItems_eq_map, List.length_map,
    ← toPythonItems_eq_map]
  have hdepth : EventHorizon.maxCanonicalDepth = maxCanonicalDepth := rfl
  have hitems : EventHorizon.maxCanonicalItems = maxCanonicalItems := rfl
  rw [hdepth, hitems]
  split
  case isTrue h => exact iff_of_false nofun fun hc ↦ by omega
  split
  case isTrue h => exact iff_of_false nofun fun hc ↦ by omega
  case isFalse h h' =>
    rw [map_eq_ok]
    constructor
    · rintro ⟨out, hout, rfl⟩
      exact ⟨by omega, by omega, out, rfl, canonicalItems_eq_ok.mp hout⟩
    · rintro ⟨-, -, out, rfl, hout⟩
      exact ⟨out, canonicalItems_eq_ok.mpr hout, rfl⟩

/-- Python accepts the values within the limits that have no lone surrogate. -/
theorem exists_canonicalValue (v : JsValue) : ∀ d,
    (∃ c, v.toPython.canonicalValue d = .ok c) ↔ v.Within PythonNormal d ∧ v.WellFormed := by
  have hdepth : EventHorizon.maxCanonicalDepth = maxCanonicalDepth := rfl
  have hsafe : EventHorizon.maxSafeInteger = maxSafeInteger := rfl
  induction v using JsValue.induction with
  | null | boolean =>
    intro d
    simp only [toPython, PyValue.canonicalValue, Within, WellFormed, Texts, and_true, hdepth]
    split
    case isTrue h => exact iff_of_false (fun ⟨c, hc⟩ ↦ nomatch hc) (by omega)
    case isFalse h => exact iff_of_true ⟨_, rfl⟩ (by omega)
  | number n =>
    intro d
    simp only [toPython, PyValue.canonicalValue, Within, WellFormed, Texts, and_true, hdepth, hsafe]
    split
    case isTrue h => exact iff_of_false (fun ⟨c, hc⟩ ↦ nomatch hc) (by omega)
    split
    case isTrue h => exact iff_of_false (fun ⟨c, hc⟩ ↦ nomatch hc) (by omega)
    case isFalse h => exact iff_of_true ⟨_, rfl⟩ (by omega)
  | string s =>
    intro d
    rw [toPython, PyValue.canonicalValue, Within, WellFormed, Texts, ← exists_canonicalText]
    constructor
    · rintro ⟨c, hc⟩
      obtain ⟨t, ht, -⟩ := map_eq_ok.mp hc
      exact ⟨t, ht⟩
    · rintro ⟨t, ht⟩
      exact ⟨.str t, map_eq_ok.mpr ⟨t, ht, rfl⟩⟩
  | array items ih =>
    intro d
    -- an array has a canonical form when each of its items has one
    have hitems : (∃ out, List.Forall₂ (fun x c ↦ x.toPython.canonicalValue (d + 1) = .ok c) items
        out) ↔ ∀ x ∈ items, x.Within PythonNormal (d + 1) ∧ x.WellFormed := by
      rw [exists_forall₂]
      exact forall₂_congr fun x hx ↦ ih x hx (d + 1)
    simp only [canonicalValue_array_eq_ok, Within, WellFormed, Texts, withinItems_iff,
      textsItems_iff] at hitems ⊢
    constructor
    · rintro ⟨c, hd, hlen, out, -, hout⟩
      have hall := hitems.mp ⟨out, hout⟩
      exact ⟨⟨hd, hlen, fun x hx ↦ (hall x hx).1⟩, fun x hx ↦ (hall x hx).2⟩
    · rintro ⟨⟨hd, hlen, hwithin⟩, hwell⟩
      obtain ⟨out, hout⟩ := hitems.mpr fun x hx ↦ ⟨hwithin x hx, hwell x hx⟩
      exact ⟨_, hd, hlen, out, rfl, hout⟩
  | object fields ih =>
    intro d
    -- the order in which the keys are visited does not matter for that
    have hfields : (∃ out, List.Forall₂ (fun (f : JsString × JsValue) (o : String × Json) ↦
        f.1.codePoints.canonicalText (d + 1) = .ok o.1 ∧
          f.2.toPython.canonicalValue (d + 1) = .ok o.2) (sortKeys fields) out) ↔
        ∀ f ∈ fields, ((d + 1 ≤ maxCanonicalDepth ∧ TextWithin PythonNormal f.1) ∧
          f.1.isWellFormed = true) ∧ f.2.Within PythonNormal (d + 1) ∧ f.2.WellFormed := by
      rw [exists_forall₂]
      simp only [(perm_sortKeys fields).mem_iff]
      refine forall₂_congr fun f hf ↦ ?_
      rw [← exists_canonicalText, ← ih f hf (d + 1)]
      exact ⟨fun ⟨o, hk, hc⟩ ↦ ⟨⟨o.1, hk⟩, o.2, hc⟩, fun ⟨⟨k, hk⟩, c, hc⟩ ↦ ⟨(k, c), hk, hc⟩⟩
    simp only [canonicalValue_object_eq_ok, Within, WellFormed, Texts, withinFields_iff,
      textsFields_iff] at hfields ⊢
    constructor
    · rintro ⟨c, hd, hlen, out, -, hout⟩
      have hall := hfields.mp ⟨out, hout⟩
      exact ⟨⟨hd, hlen, fun f hf ↦ ⟨(hall f hf).1.1, (hall f hf).2.1⟩⟩,
        fun f hf ↦ ⟨(hall f hf).1.2, (hall f hf).2.2⟩⟩
    · rintro ⟨⟨hd, hlen, hwithin⟩, hwell⟩
      obtain ⟨out, hout⟩ := hfields.mpr fun f hf ↦
        ⟨⟨(hwithin f hf).1, (hwell f hf).1⟩, (hwithin f hf).2, (hwell f hf).2⟩
      exact ⟨_, hd, hlen, out, rfl, hout⟩

/-! ## The same text -/

omit [Platform] in
theorem joinComma_cons (x : List Char) (xs : List (List Char)) :
    joinComma (x :: xs) = x ++ xs.flatMap fun y ↦ ',' :: y := by
  induction xs generalizing x with
  | nil => simp [joinComma, List.intercalate]
  | cons y ys ih =>
    have hrest := ih y
    rw [joinComma, List.intercalate] at hrest ⊢
    rw [List.intersperse_cons_cons, List.flatten_cons, List.flatten_cons, hrest, List.flatMap_cons]
    simp

omit [Platform] in
theorem dumps_arr (xs : List Json) :
    dumps (.arr xs) = '[' :: joinComma (xs.map dumps) ++ [']'] := by
  have hitems : ∀ xs, dumpsItems xs = (xs.map dumps).flatMap fun y ↦ ',' :: y := by
    intro xs
    induction xs with
    | nil => rfl
    | cons x xs ih => rw [dumpsItems, ih, List.map_cons, List.flatMap_cons]
  cases xs with
  | nil => rfl
  | cons x xs =>
    rw [dumps, hitems, List.map_cons, joinComma_cons, List.cons_append, List.cons_append]

omit [Platform] in
theorem dumps_obj (fields : List (String × Json)) : dumps (.obj fields) =
    '\x7b' :: joinComma (fields.map fun f ↦ dumpsString f.1 ++ ':' :: dumps f.2) ++ ['\x7d'] := by
  have hfields : ∀ fields : List (String × Json), dumpsFields fields =
      (fields.map fun f ↦ dumpsString f.1 ++ ':' :: dumps f.2).flatMap fun y ↦ ',' :: y := by
    intro fields
    induction fields with
    | nil => rfl
    | cons f fields ih =>
      rw [dumpsFields, ih, List.map_cons, List.flatMap_cons]
      simp
  cases fields with
  | nil => rfl
  | cons f fields =>
    rw [dumps, hfields, List.map_cons, joinComma_cons]
    simp

omit [Platform] in
theorem serializeItems_eq_map (items : List JsValue) :
    serializeItems items = items.map serialize := by
  induction items with
  | nil => rfl
  | cons x xs ih => rw [serializeItems, ih, List.map_cons]

omit [Platform] in
theorem serializeFields_eq_map (fields : List (JsString × JsValue)) :
    serializeFields fields = fields.map fun f ↦ (f.1, serialize f.2) := by
  induction fields with
  | nil => rfl
  | cons f fields ih => rw [serializeFields, ih, List.map_cons]

omit [Platform] in
/-- The keys of the copy are sorted already. -/
theorem serialize_copy_object (fields : List (JsString × JsValue)) :
    (copy (.object fields)).serialize = '\x7b' :: joinComma
      (((sortKeys fields).filter fun f ↦ f.1 ≠ protoKey).map fun f ↦
        stringify f.1 ++ ':' :: f.2.copy.serialize) ++ ['\x7d'] := by
  have hcopy : copy (.object fields) = .object (((sortKeys fields).filter fun f ↦
      f.1 ≠ protoKey).map fun f ↦ (f.1, f.2.copy)) := by
    rw [copy, copyFields_eq_map, sortKeys_map, List.filter_map]
    rfl
  have hsorted : sortKeys ((sortKeys fields).filter fun f ↦ f.1 ≠ protoKey) =
      (sortKeys fields).filter fun f ↦ f.1 ≠ protoKey :=
    sortKeys_of_pairwise ((pairwise_sortKeys fields).filter _)
  rw [hcopy, serialize, serializeFields_eq_map, List.map_map]
  have hmap := sortKeys_map (fun x : JsValue ↦ x.copy.serialize)
    ((sortKeys fields).filter fun f ↦ f.1 ≠ protoKey)
  rw [hsorted] at hmap
  refine congrArg (fun texts ↦ '\x7b' :: joinComma texts ++ ['\x7d']) ?_
  refine (congrArg _ hmap).trans ?_
  rw [List.map_map]
  rfl

/-- Both languages write the same text of a value without the key `__proto__`. -/
theorem serialize_copy (v : JsValue) : ∀ {d : ℕ} {c : Json}, v.ProtoFree →
    v.toPython.canonicalValue d = .ok c → v.copy.serialize = dumps c := by
  induction v using JsValue.induction with
  | null =>
    intro d c _ hc
    rw [toPython, PyValue.canonicalValue] at hc
    split at hc
    · cases hc
    · cases hc
      rfl
  | boolean b =>
    intro d c _ hc
    rw [toPython, PyValue.canonicalValue] at hc
    split at hc
    · cases hc
    · cases hc
      cases b <;> rfl
  | number n =>
    intro d c _ hc
    rw [toPython, PyValue.canonicalValue] at hc
    split at hc
    · cases hc
    split at hc
    · cases hc
    · cases hc
      rfl
  | string s =>
    intro d c _ hc
    rw [toPython, PyValue.canonicalValue] at hc
    obtain ⟨t, ht, rfl⟩ := map_eq_ok.mp hc
    rw [copy, serialize, dumps, stringify_eq (PyValue.canonicalText_eq_ok ht)]
  | array items ih =>
    intro d c hproto hc
    obtain ⟨-, -, out, rfl, hout⟩ := canonicalValue_array_eq_ok.mp hc
    have htexts : (items.map copy).map serialize = out.map dumps := by
      have hfree := textsItems_iff.mp hproto
      clear hc hproto
      induction hout with
      | nil => rfl
      | @cons x c xs cs hx _ ih' =>
        rw [List.map_cons, List.map_cons, List.map_cons,
          ih x List.mem_cons_self (hfree x List.mem_cons_self) hx,
          ih' (fun y hy ↦ ih y (List.mem_cons_of_mem _ hy))
            fun y hy ↦ hfree y (List.mem_cons_of_mem _ hy)]
    rw [copy, serialize, serializeItems_eq_map, copyItems_eq_map, dumps_arr, htexts]
  | object fields ih =>
    intro d c hproto hc
    obtain ⟨-, -, out, rfl, hout⟩ := canonicalValue_object_eq_ok.mp hc
    have hfree := textsFields_iff.mp hproto
    -- without the key `__proto__` no assignment of the loop is lost
    have hfilter : ((sortKeys fields).filter fun f ↦ f.1 ≠ protoKey) = sortKeys fields :=
      List.filter_eq_self.mpr fun f hf ↦
        decide_eq_true (hfree f ((perm_sortKeys fields).mem_iff.mp hf)).1
    have htexts : ∀ {xs : List (JsString × JsValue)} {out : List (String × Json)},
        (∀ f ∈ xs, f ∈ fields) →
        List.Forall₂ (fun f o ↦ f.1.codePoints.canonicalText (d + 1) = .ok o.1 ∧
          f.2.toPython.canonicalValue (d + 1) = .ok o.2) xs out →
        (xs.map fun f ↦ stringify f.1 ++ ':' :: f.2.copy.serialize) =
          out.map fun f ↦ dumpsString f.1 ++ ':' :: dumps f.2 := by
      intro xs out hmem hout
      induction hout with
      | nil => rfl
      | @cons f o xs out hf _ ih' =>
        obtain ⟨hfields, hmem⟩ := List.forall_mem_cons.mp hmem
        rw [List.map_cons, List.map_cons, stringify_eq (PyValue.canonicalText_eq_ok hf.1),
          ih f hfields (hfree f hfields).2 hf.2, ih' hmem]
    rw [serialize_copy_object, hfilter, dumps_obj,
      htexts (fun f hf ↦ (perm_sortKeys fields).mem_iff.mp hf) hout]

end Python

/-! ## The copy of a value -/

theorem copy_object (fields : List (JsString × JsValue)) : copy (.object fields) =
    .object (((sortKeys fields).filter fun f ↦ f.1 ≠ protoKey).map fun f ↦ (f.1, f.2.copy)) := by
  rw [copy, copyFields_eq_map, sortKeys_map, List.filter_map]
  rfl

theorem mem_of_mem_copy {fields : List (JsString × JsValue)} {f : JsString × JsValue}
    (h : f ∈ (sortKeys fields).filter fun f ↦ f.1 ≠ protoKey) : f ∈ fields ∧ f.1 ≠ protoKey := by
  obtain ⟨hmem, hne⟩ := List.mem_filter.mp h
  exact ⟨(perm_sortKeys fields).mem_iff.mp hmem, of_decide_eq_true hne⟩

theorem copy_copy (v : JsValue) : v.copy.copy = v.copy := by
  induction v using JsValue.induction with
  | null | boolean | number | string => rfl
  | array items ih =>
    rw [copy, copy, copyItems_eq_map, copyItems_eq_map, List.map_map]
    exact congrArg JsValue.array (List.map_congr_left ih)
  | object fields ih =>
    have hsorted : sortKeys ((sortKeys fields).filter fun f ↦ f.1 ≠ protoKey) =
        (sortKeys fields).filter fun f ↦ f.1 ≠ protoKey :=
      sortKeys_of_pairwise ((pairwise_sortKeys fields).filter _)
    rw [copy_object, copy_object, sortKeys_map, hsorted, List.filter_map, List.map_map]
    refine congrArg JsValue.object ?_
    have hfilter : (((sortKeys fields).filter fun f ↦ f.1 ≠ protoKey).filter
        ((fun f ↦ decide (f.1 ≠ protoKey)) ∘ fun f : JsString × JsValue ↦ (f.1, f.2.copy))) =
        (sortKeys fields).filter fun f ↦ f.1 ≠ protoKey :=
      List.filter_eq_self.mpr fun f hf ↦ decide_eq_true (mem_of_mem_copy hf).2
    rw [hfilter]
    exact List.map_congr_left fun f hf ↦ Prod.ext rfl (ih f (mem_of_mem_copy hf).1)

theorem Distinct.copy {v : JsValue} (h : v.Distinct) : v.copy.Distinct := by
  induction v using JsValue.induction with
  | null | boolean | number | string => trivial
  | array items ih =>
    rw [JsValue.copy, Distinct, copyItems_eq_map, distinctItems_iff]
    rintro y hy
    obtain ⟨x, hx, rfl⟩ := List.mem_map.mp hy
    exact ih x hx (distinctItems_iff.mp h x hx)
  | object fields ih =>
    rw [copy_object, Distinct, distinctFields_iff, List.map_map]
    refine ⟨?_, ?_⟩
    · have hkeys := ((perm_sortKeys fields).map Prod.fst).nodup_iff.mpr h.1
      exact hkeys.sublist (List.Sublist.map Prod.fst List.filter_sublist)
    · rintro g hg
      obtain ⟨f, hf, rfl⟩ := List.mem_map.mp hg
      have hmem := (mem_of_mem_copy hf).1
      exact ih f hmem (distinctFields_iff.mp h.2 f hmem)

theorem Texts.copy {P K : JsString → Prop} {v : JsValue} (h : v.Texts P K) : v.copy.Texts P K := by
  induction v using JsValue.induction with
  | null | boolean | number => trivial
  | string => exact h
  | array items ih =>
    rw [JsValue.copy, Texts, copyItems_eq_map, textsItems_iff]
    rintro y hy
    obtain ⟨x, hx, rfl⟩ := List.mem_map.mp hy
    exact ih x hx (textsItems_iff.mp h x hx)
  | object fields ih =>
    rw [copy_object, Texts, textsFields_iff]
    rintro g hg
    obtain ⟨f, hf, rfl⟩ := List.mem_map.mp hg
    have hmem := (mem_of_mem_copy hf).1
    have hf' := textsFields_iff.mp h f hmem
    exact ⟨hf'.1, ih f hmem hf'.2⟩

theorem protoFree_copy (v : JsValue) : v.copy.ProtoFree := by
  induction v using JsValue.induction with
  | null | boolean | number | string => trivial
  | array items ih =>
    rw [copy, ProtoFree, Texts, copyItems_eq_map, textsItems_iff]
    rintro y hy
    obtain ⟨x, hx, rfl⟩ := List.mem_map.mp hy
    exact ih x hx
  | object fields ih =>
    rw [copy_object, ProtoFree, Texts, textsFields_iff]
    rintro g hg
    obtain ⟨f, hf, rfl⟩ := List.mem_map.mp hg
    exact ⟨(mem_of_mem_copy hf).2, ih f (mem_of_mem_copy hf).1⟩

theorem Within.copy {N : JsString → Prop} {v : JsValue} :
    ∀ {d : ℕ}, v.Within N d → v.copy.Within N d := by
  induction v using JsValue.induction with
  | null | boolean | number | string => exact id
  | array items ih =>
    rintro d ⟨hd, hlen, h⟩
    rw [JsValue.copy, Within, copyItems_eq_map, List.length_map, withinItems_iff]
    refine ⟨hd, hlen, ?_⟩
    rintro y hy
    obtain ⟨x, hx, rfl⟩ := List.mem_map.mp hy
    exact ih x hx (withinItems_iff.mp h x hx)
  | object fields ih =>
    rintro d ⟨hd, hlen, h⟩
    rw [copy_object, Within, List.length_map, withinFields_iff]
    refine ⟨hd, ?_, ?_⟩
    · have hfilter := List.length_filter_le (fun f : JsString × JsValue ↦ decide (f.1 ≠ protoKey))
        (sortKeys fields)
      rw [(perm_sortKeys fields).length_eq] at hfilter
      exact hfilter.trans hlen
    · rintro g hg
      obtain ⟨f, hf, rfl⟩ := List.mem_map.mp hg
      have hmem := (mem_of_mem_copy hf).1
      have hf' := withinFields_iff.mp h f hmem
      exact ⟨hf'.1, ih f hmem hf'.2⟩

end JsValue

end EventHorizon.Attestation

namespace EventHorizon.PyValue

mutual

/-- Every key of every dictionary in the value is as required. -/
def Keys (K : PyKey → Prop) : PyValue → Prop
  | .list xs => KeysItems K xs
  | .tuple xs => KeysItems K xs
  | .dict items => KeysFields K items
  | .none | .bool _ | .int _ | .float _ | .str _ | .other _ => True

def KeysItems (K : PyKey → Prop) : List PyValue → Prop
  | [] => True
  | x :: xs => Keys K x ∧ KeysItems K xs

def KeysFields (K : PyKey → Prop) : List (PyKey × PyValue) → Prop
  | [] => True
  | (k, x) :: xs => K k ∧ Keys K x ∧ KeysFields K xs

end

section

-- the equations are made here once, not in each of the proofs that follow
attribute [local simp] Keys KeysItems KeysFields

end

variable {K : PyKey → Prop}

theorem keysItems_iff {xs : List PyValue} : KeysItems K xs ↔ ∀ x ∈ xs, x.Keys K := by
  induction xs with
  | nil => simp [KeysItems]
  | cons x xs ih => simp [KeysItems, ih]

theorem keysFields_iff {items : List (PyKey × PyValue)} :
    KeysFields K items ↔ ∀ f ∈ items, K f.1 ∧ f.2.Keys K := by
  induction items with
  | nil => simp [KeysFields]
  | cons f items ih => simp [KeysFields, ih, and_assoc]

/-- The order of items does not matter for the keys. -/
theorem keys_listed (v : PyValue) : v.listed.Keys K ↔ v.Keys K := by
  induction v using PyValue.induction with
  | none | bool | int | float | str | other => exact Iff.rfl
  | list xs ih | tuple xs ih =>
    rw [listed, Keys, Keys, listedItems_eq_map, keysItems_iff, keysItems_iff]
    simp only [List.forall_mem_map]
    exact forall₂_congr ih
  | dict items ih =>
    rw [listed, Keys, Keys, listedFields_eq_map, keysFields_iff, keysFields_iff]
    simp only [mem_sortItems, List.forall_mem_map]
    exact forall₂_congr fun f hf ↦ and_congr_right fun _ ↦ ih f hf

end EventHorizon.PyValue

namespace EventHorizon.Attestation

/-- The key `__proto__` is the same string in Python. -/
theorem JsValue.keys_toPython (v : JsValue) :
    v.toPython.Keys (· ≠ .str protoKey.codePoints) ↔ v.ProtoFree := by
  induction v using JsValue.induction with
  | null | boolean | number | string => exact Iff.rfl
  | array items ih =>
    rw [toPython, PyValue.Keys, ProtoFree, Texts, toPythonItems_eq_map, PyValue.keysItems_iff,
      textsItems_iff]
    simp only [List.forall_mem_map]
    exact forall₂_congr ih
  | object fields ih =>
    rw [toPython, PyValue.Keys, ProtoFree, Texts, toPythonFields_eq_map, PyValue.keysFields_iff,
      textsFields_iff]
    simp only [List.forall_mem_map]
    refine forall₂_congr fun f hf ↦ and_congr (not_congr ⟨fun h ↦ ?_, fun h ↦ by rw [h]⟩) (ih f hf)
    exact JsString.codePoints_injective (PyKey.str.inj h)

/-! ## Agreement -/

section Agreement

variable [JavaScript] [Platform]

namespace JsValue

/-- Both languages make the same bytes of a value, or both refuse it. -/
def Agrees (v : JsValue) : Prop :=
  match v.canonicalBytes, v.toPython.canonicalBytes with
  | .ok b, .ok b' => b = b'
  | .error _, .error _ => True
  | _, _ => False

/-- The value is within the limits of both languages. -/
def Limited (v : JsValue) : Prop := v.Within (fun _ ↦ True) 0

/-- The strings and keys are in the normal form of both languages, none has a lone surrogate, and no
key is `__proto__`. -/
structure Shared (v : JsValue) : Prop where
  node : v.Texts NodeNormal NodeNormal
  python : v.Texts PythonNormal PythonNormal
  wellFormed : v.WellFormed
  protoFree : v.ProtoFree

/-- Some string or key is not in the normal form of TypeScript, and some one is not in that of
Python or has a lone surrogate. -/
structure Refused (v : JsValue) : Prop where
  node : ¬v.Texts NodeNormal NodeNormal
  python : ¬(v.Texts PythonNormal PythonNormal ∧ v.WellFormed)

variable {v : JsValue}

omit [Platform] in
theorem canonicalBytes_of_within (h : v.Within NodeNormal 0) :
    v.canonicalBytes = .ok (encodeUtf8 v.copy.serialize) := by
  rw [canonicalBytes, (decides_normalize v 0).1 h]
  rfl

omit [Platform] in
theorem exists_canonicalBytes_error (h : ¬v.Within NodeNormal 0) :
    ∃ e, v.canonicalBytes = .error e := by
  obtain ⟨e, he⟩ := (decides_normalize v 0).2 h
  exact ⟨e, by rw [canonicalBytes, he]; rfl⟩

omit [Platform] in
theorem within_of_canonicalBytes {b : List ℕ} (h : v.canonicalBytes = .ok b) :
    v.Within NodeNormal 0 := by
  by_contra hnot
  obtain ⟨e, he⟩ := exists_canonicalBytes_error hnot
  rw [he] at h
  cases h

omit [JavaScript] in
/-- Python's bytes are the text of the value in UTF-8. -/
theorem toPython_canonicalBytes (hdist : v.Distinct) (hwithin : v.Within PythonNormal 0)
    (hwell : v.WellFormed) : ∃ c, v.toPython.canonicalValue 0 = .ok c ∧
      v.toPython.canonicalBytes = .ok (encodeUtf8 (dumps c)) := by
  obtain ⟨c, hc⟩ := (exists_canonicalValue v 0).mpr ⟨hwithin, hwell⟩
  have hread := PyValue.readable_of_canonicalValue v.toPython hdist.toPython v.floatFree_toPython hc
  refine ⟨c, hc, ?_⟩
  rw [PyValue.canonicalBytes, hc,
    ← spell_eq c (asciiFloats_of_readable (fun _ hf ↦ hf.elim) c hread)]
  rfl

omit [JavaScript] in
theorem toPython_canonicalBytes_error (h : ¬(v.Within PythonNormal 0 ∧ v.WellFormed)) :
    ∃ e, v.toPython.canonicalBytes = .error e := by
  cases hc : v.toPython.canonicalValue 0 with
  | error e => exact ⟨e, by rw [PyValue.canonicalBytes, hc]; rfl⟩
  | ok c => exact absurd ((exists_canonicalValue v 0).mp ⟨c, hc⟩) h

omit [JavaScript] in
/-- Python's bytes of a value without the key `__proto__` are the text that TypeScript makes of its
copy. -/
theorem toPython_canonicalBytes_eq (hdist : v.Distinct) (hwithin : v.Within PythonNormal 0)
    (hwell : v.WellFormed) (hproto : v.ProtoFree) :
    v.toPython.canonicalBytes = .ok (encodeUtf8 v.copy.serialize) := by
  obtain ⟨c, hc, hbytes⟩ := toPython_canonicalBytes hdist hwithin hwell
  rw [serialize_copy v hproto hc, hbytes]

/-- A value that both languages take has the same bytes in both exactly when no key is
`__proto__`. -/
theorem agrees_iff_protoFree (hdist : v.Distinct) (hnode : v.Within NodeNormal 0)
    (hpython : v.Within PythonNormal 0) (hwell : v.WellFormed) : v.Agrees ↔ v.ProtoFree := by
  have htypescript := canonicalBytes_of_within hnode
  by_cases hproto : v.ProtoFree
  · refine iff_of_true ?_ hproto
    rw [Agrees, htypescript, toPython_canonicalBytes_eq hdist hpython hwell hproto]
  · -- the bytes are those of the copy, which Python reads back without the key
    obtain ⟨c, hc, hbytes⟩ := toPython_canonicalBytes hdist hpython hwell
    refine iff_of_false ?_ hproto
    rw [Agrees, htypescript, hbytes]
    intro (heq : encodeUtf8 v.copy.serialize = encodeUtf8 (dumps c))
    have hcopy := toPython_canonicalBytes_eq hdist.copy hpython.copy (Texts.copy hwell)
      (protoFree_copy v)
    rw [copy_copy, heq] at hcopy
    have hlisted := (canonicalBytes_eq_iff hdist.toPython v.floatFree_toPython
      hdist.copy.toPython v.copy.floatFree_toPython hbytes).mp hcopy
    have hkeys := (PyValue.keys_listed (K := (· ≠ .str protoKey.codePoints)) v.copy.toPython).mpr
      (v.copy.keys_toPython.mpr (protoFree_copy v))
    rw [hlisted, PyValue.keys_listed] at hkeys
    exact hproto (v.keys_toPython.mp hkeys)

/-- TypeScript and Python agree on a value exactly when it is outside the limits of both, each of
them refuses a text of it, or both take its texts and no key is `__proto__`. -/
theorem agrees_iff (hdist : v.Distinct) : v.Agrees ↔ (v.Limited → v.Shared ∨ v.Refused) := by
  have hnode := v.within_iff (N := NodeNormal) 0
  have hpython := v.within_iff (N := PythonNormal) 0
  by_cases hlimited : v.Limited
  swap
  · obtain ⟨e, he⟩ := exists_canonicalBytes_error fun h ↦ hlimited (hnode.mp h).1
    obtain ⟨e', he'⟩ := toPython_canonicalBytes_error fun h ↦ hlimited (hpython.mp h.1).1
    refine iff_of_true ?_ fun h ↦ absurd h hlimited
    rw [Agrees, he, he']
    trivial
  -- outside the limits both refuse; within them each language looks at the texts for itself
  by_cases htypescript : v.Texts NodeNormal NodeNormal
  · have hwithin := hnode.mpr ⟨hlimited, htypescript⟩
    by_cases hboth : v.Texts PythonNormal PythonNormal ∧ v.WellFormed
    · rw [agrees_iff_protoFree hdist hwithin (hpython.mpr ⟨hlimited, hboth.1⟩) hboth.2]
      constructor
      · exact fun hproto _ ↦ .inl ⟨htypescript, hboth.1, hboth.2, hproto⟩
      · intro h
        obtain h | h := h hlimited
        · exact h.protoFree
        · exact absurd htypescript h.node
    · obtain ⟨e, he⟩ := toPython_canonicalBytes_error
        fun h ↦ hboth ⟨(hpython.mp h.1).2, h.2⟩
      refine iff_of_false ?_ fun h ↦ ?_
      · rw [Agrees, canonicalBytes_of_within hwithin, he]
        exact id
      · obtain h | h := h hlimited
        · exact hboth ⟨h.python, h.wellFormed⟩
        · exact h.node htypescript
  · obtain ⟨e, he⟩ := exists_canonicalBytes_error fun h ↦ htypescript (hnode.mp h).2
    by_cases hboth : v.Texts PythonNormal PythonNormal ∧ v.WellFormed
    · obtain ⟨c, -, hbytes⟩ := toPython_canonicalBytes hdist
        (hpython.mpr ⟨hlimited, hboth.1⟩) hboth.2
      refine iff_of_false ?_ fun h ↦ ?_
      · rw [Agrees, he, hbytes]
        exact id
      · obtain h | h := h hlimited
        · exact htypescript h.node
        · exact h.python hboth
    · obtain ⟨e', he'⟩ := toPython_canonicalBytes_error
        fun h ↦ hboth ⟨(hpython.mp h.1).2, h.2⟩
      refine iff_of_true ?_ fun _ ↦ .inr ⟨htypescript, hboth⟩
      rw [Agrees, he, he']
      trivial

omit [JavaScript] [Platform] in
theorem texts_of_forall {P : JsString → Prop} (h : ∀ s, P s) (v : JsValue) : v.Texts P P := by
  induction v using JsValue.induction with
  | null | boolean | number => trivial
  | string s => exact h s
  | array items ih => exact textsItems_iff.mpr ih
  | object fields ih => exact textsFields_iff.mpr fun f hf ↦ ⟨h f.1, ih f hf⟩

/-- The platform with a normal form that all text is in. -/
@[reducible] def permissive (P : Platform) : Platform :=
  { P with
    isNfc := fun _ ↦ true
    isNfc_of_isAscii := fun _ _ ↦ rfl }

/-- Different values have different bytes in TypeScript, whatever the normal form of Python is:
without one, Python has the same bytes. -/
theorem listed_eq_of_canonicalBytes_eq {w : JsValue} {b : List ℕ} (hv : v.Distinct)
    (hw : w.Distinct) (hvcond : v.WellFormed ∧ v.ProtoFree) (hwcond : w.WellFormed ∧ w.ProtoFree)
    (hvb : v.canonicalBytes = .ok b) (hwb : w.canonicalBytes = .ok b) :
    v.toPython.listed = w.toPython.listed := by
  let _ := permissive ‹Platform›
  have hpython : ∀ {u : JsValue}, u.Distinct → u.WellFormed ∧ u.ProtoFree →
      u.canonicalBytes = .ok b → u.toPython.canonicalBytes = .ok b := by
    intro u hu hcond hub
    have hwithin := within_of_canonicalBytes hub
    rw [canonicalBytes_of_within hwithin] at hub
    have hpermitted : u.Within PythonNormal 0 :=
      (u.within_iff 0).mpr ⟨((u.within_iff 0).mp hwithin).1,
        texts_of_forall (fun s ↦ List.all_eq_true.mpr fun _ _ ↦ rfl) u⟩
    rw [toPython_canonicalBytes_eq hu hpermitted hcond.1 hcond.2, Except.ok.inj hub]
  exact (canonicalBytes_eq_iff hw.toPython w.floatFree_toPython hv.toPython v.floatFree_toPython
    (hpython hw hwcond hwb)).mp (hpython hv hvcond hvb)

/-- **The two encoders.** The values on which TypeScript and Python agree are told apart from the
others by what is in them, and TypeScript gives different bytes to different values, but for lone
surrogates and the key `__proto__`. -/
theorem canonicalBytes_agree_iff :
    (∀ v : JsValue, v.Distinct → (v.Agrees ↔ (v.Limited → v.Shared ∨ v.Refused))) ∧
    ∀ (v w : JsValue) (b : List ℕ), v.Distinct → w.Distinct → v.WellFormed ∧ v.ProtoFree →
      w.WellFormed ∧ w.ProtoFree → v.canonicalBytes = .ok b → w.canonicalBytes = .ok b →
      v.toPython.listed = w.toPython.listed :=
  ⟨fun _ ↦ agrees_iff, fun _ _ _ ↦ listed_eq_of_canonicalBytes_eq⟩

end JsValue

end Agreement

section Sample

namespace Sample

/-- The engine on the strings that the concrete runs use: a code point below U+0300 and a surrogate
are in normal form C. -/
@[reducible] def node : JavaScript where
  isNfc s := s.codePoints.codes.all fun n ↦ n < 0x300 || 0xd800 ≤ n && n < 0xe000

/-- The items of `{"café": ["é", -3], "b": {}}`. -/
def cafe : JsString × JsValue :=
  ([0x63, 0x61, 0x66, 0xe9], .array [.string [0xe9], .number (-3)])

def box : JsString × JsValue := ([0x62], .object [])

theorem texts {P K : JsString → Prop} (hcafe : K [0x63, 0x61, 0x66, 0xe9]) (he : P [0xe9])
    (hbox : K [0x62]) : (JsValue.object [cafe, box]).Texts P K ∧
      (JsValue.object [box, cafe]).Texts P K :=
  ⟨⟨hcafe, ⟨he, trivial, trivial⟩, hbox, trivial, trivial⟩,
    ⟨hbox, trivial, hcafe, ⟨he, trivial, trivial⟩, trivial⟩⟩

theorem distinct : (JsValue.object [cafe, box]).Distinct ∧ (JsValue.object [box, cafe]).Distinct :=
  ⟨⟨by decide, ⟨trivial, trivial, trivial⟩, ⟨List.nodup_nil, trivial⟩, trivial⟩,
    ⟨by decide, ⟨List.nodup_nil, trivial⟩, ⟨trivial, trivial, trivial⟩, trivial⟩⟩

end Sample

/-- An object with texts in both languages; the order of its keys does not matter. -/
theorem canonicalBytes_agree_iff_sample :
    let _ := Sample.node
    let _ := pythonPlatform
    (JsValue.object [Sample.cafe, Sample.box]).Agrees ∧
      (JsValue.object [Sample.cafe, Sample.box]).toPython.listed =
        (JsValue.object [Sample.box, Sample.cafe]).toPython.listed := by
  intro _ _
  obtain ⟨hdistinct, hdistinct'⟩ := Sample.distinct
  obtain ⟨hwell, hwell'⟩ := Sample.texts (P := fun s ↦ s.isWellFormed = true)
    (K := fun s ↦ s.isWellFormed = true) (by decide +kernel) (by decide +kernel) (by decide +kernel)
  obtain ⟨hproto, hproto'⟩ := Sample.texts (P := fun _ ↦ True) (K := (· ≠ protoKey))
    (by decide +kernel) trivial (by decide +kernel)
  obtain ⟨hnode, -⟩ := Sample.texts (P := JsValue.NodeNormal) (K := JsValue.NodeNormal)
    (by decide +kernel) (by decide +kernel) (by decide +kernel)
  obtain ⟨hpython, -⟩ := Sample.texts (P := JsValue.PythonNormal) (K := JsValue.PythonNormal)
    (by decide +kernel) (by decide +kernel) (by decide +kernel)
  have hbytes : (JsValue.object [Sample.cafe, Sample.box]).canonicalBytes =
      .ok (encodeUtf8 "\x7b\"b\":\x7b\x7d,\"café\":[\"é\",-3]\x7d".toList) := by
    decide +kernel
  have hbytes' : (JsValue.object [Sample.box, Sample.cafe]).canonicalBytes =
      .ok (encodeUtf8 "\x7b\"b\":\x7b\x7d,\"café\":[\"é\",-3]\x7d".toList) := by
    decide +kernel
  exact ⟨(JsValue.canonicalBytes_agree_iff.1 _ hdistinct).mpr fun _ ↦
      .inl ⟨hnode, hpython, hwell, hproto⟩,
    JsValue.canonicalBytes_agree_iff.2 _ _ _ hdistinct hdistinct' ⟨hwell, hproto⟩
      ⟨hwell', hproto'⟩ hbytes hbytes'⟩

/-- TypeScript accepts a lone surrogate, and has the same bytes for an object with the key
`__proto__` and for the empty object. -/
theorem not_agrees :
    let _ := Sample.node
    let _ := pythonPlatform
    ¬((∀ v : JsValue, v.Distinct → v.Agrees) ∧ ∀ (v w : JsValue) (b : List ℕ), v.Distinct →
      w.Distinct → v.canonicalBytes = .ok b → w.canonicalBytes = .ok b →
      v.toPython.listed = w.toPython.listed) ∧
    (JsValue.string [0xd800]).canonicalBytes = .ok (asciiOctets "\"\\ud800\"") ∧
    (JsValue.string [0xd800]).toPython.canonicalBytes =
      .error ⟨.unicodeEncodeError,
        "'utf-8' codec can't encode character '\\ud800' in position 0: surrogates not allowed"⟩ ∧
    (JsValue.object [(protoKey, .number 1)]).canonicalBytes = .ok (asciiOctets "\x7b\x7d") ∧
    (JsValue.object [(protoKey, .number 1)]).toPython.canonicalBytes =
      .ok (asciiOctets "\x7b\"__proto__\":1\x7d") := by
  intro _ _
  have htypescript :
      (JsValue.string [0xd800]).canonicalBytes = .ok (asciiOctets "\"\\ud800\"") := by
    decide +kernel
  have hpython : (JsValue.string [0xd800]).toPython.canonicalBytes =
      .error ⟨.unicodeEncodeError,
        "'utf-8' codec can't encode character '\\ud800' in position 0: " ++
          "surrogates not allowed"⟩ := by
    decide +kernel
  refine ⟨fun h ↦ ?_, htypescript, hpython, by decide +kernel, by decide +kernel⟩
  have hagrees := h.1 (.string [0xd800]) trivial
  rw [JsValue.Agrees, htypescript, hpython] at hagrees
  exact hagrees

end Sample

end EventHorizon.Attestation
