import EventHorizon.Canonical.Digest
import EventHorizon.Canonical.Laws

/-!
# What has a canonical form

A value has a canonical form when it nests no deeper than the limit and its strings, numbers and
collections are within theirs. Only the nesting depends on where the value stands, so a value that
has a canonical form by itself has one inside another value exactly when the depths add up.
-/

namespace EventHorizon

/-! ## The height of a value -/

namespace Json

mutual

/-- How many levels of values there are below a value. -/
def height : Json → ℕ
  | .arr xs => heightItems xs
  | .obj fields => heightFields fields
  | .null | .bool _ | .int _ | .float _ | .str _ => 0

def heightItems : List Json → ℕ
  | [] => 0
  | x :: xs => max (height x + 1) (heightItems xs)

def heightFields : List (String × Json) → ℕ
  | [] => 0
  | (_, x) :: xs => max (height x + 1) (heightFields xs)

end

theorem heightItems_le_iff {xs : List Json} {n : ℕ} :
    heightItems xs ≤ n ↔ ∀ x ∈ xs, height x + 1 ≤ n := by
  induction xs with
  | nil => simp [heightItems]
  | cons x xs ih => simp [heightItems, ih]

theorem heightFields_le_iff {fields : List (String × Json)} {n : ℕ} :
    heightFields fields ≤ n ↔ ∀ f ∈ fields, height f.2 + 1 ≤ n := by
  induction fields with
  | nil => simp [heightFields]
  | cons f fields ih => simp [heightFields, ih]

end Json

section Limits

variable [Platform]

/-! ## Values that have a canonical form -/

/-- The value has a canonical form at the depth. -/
def Canonicalizes (d : ℕ) (v : Json) : Prop := ∃ v', canonicalValue d v = .ok v'

/-- A string within the canonical limits. -/
def IsCanonicalString (s : String) : Prop :=
  Platform.isNfc s = true ∧ s.utf8ByteSize ≤ maxCanonicalStringBytes

instance (s : String) : Decidable (IsCanonicalString s) := inferInstanceAs (Decidable (_ ∧ _))

variable {d : ℕ} {s : String} {v : Json}

theorem canonicalString_eq_ok_iff {r : String} :
    canonicalString d s = .ok r ↔ d ≤ maxCanonicalDepth ∧ IsCanonicalString s ∧ r = s := by
  rw [canonicalString, IsCanonicalString]
  split
  case isTrue hd => simp [Nat.not_le.mpr hd]
  case isFalse hd =>
  split
  case isTrue hn =>
    rw [Bool.not_eq_true'] at hn
    simp [hn]
  case isFalse hn =>
  split
  case isTrue hb => simp [Nat.not_le.mpr hb]
  case isFalse hb =>
    rw [Bool.not_eq_true', Bool.not_eq_false] at hn
    simp [Nat.not_lt.mp hd, hn, Nat.not_lt.mp hb, eq_comm]

@[simp] theorem canonicalizes_null : Canonicalizes d .null ↔ d ≤ maxCanonicalDepth := by
  rw [Canonicalizes, canonicalValue, ← Nat.not_lt]
  split
  case isTrue h => simp [h]
  case isFalse h => simp [h]

@[simp] theorem canonicalizes_bool {b : Bool} :
    Canonicalizes d (.bool b) ↔ d ≤ maxCanonicalDepth := by
  rw [Canonicalizes, canonicalValue, ← Nat.not_lt]
  split
  case isTrue h => simp [h]
  case isFalse h => simp [h]

@[simp] theorem canonicalizes_int {n : ℤ} :
    Canonicalizes d (.int n) ↔ d ≤ maxCanonicalDepth ∧ n.natAbs ≤ maxSafeInteger := by
  rw [Canonicalizes, canonicalValue, ← Nat.not_lt, ← Nat.not_lt]
  split
  case isTrue h => simp [h]
  case isFalse h =>
  split
  case isTrue h' => simp [h']
  case isFalse h' => simp [h, h']

theorem canonicalizes_float {f : FloatValue} : Canonicalizes d (.float f) ↔
    d ≤ maxCanonicalDepth ∧ f.isFinite = true ∧ f.isNegativeZero = false := by
  rw [Canonicalizes, canonicalValue, ← Nat.not_lt]
  split
  case isTrue h => simp [h]
  case isFalse h =>
  split
  case isTrue h' => simp_all
  case isFalse h' =>
  split
  case isTrue h'' => simp [h'']
  case isFalse h'' => simp_all

@[simp] theorem canonicalizes_str :
    Canonicalizes d (.str s) ↔ d ≤ maxCanonicalDepth ∧ IsCanonicalString s := by
  rw [Canonicalizes, canonicalValue]
  constructor
  · rintro ⟨v, h⟩
    obtain ⟨t, ht, -⟩ := map_eq_ok.mp h
    exact ⟨(canonicalString_eq_ok_iff.mp ht).1, (canonicalString_eq_ok_iff.mp ht).2.1⟩
  · rintro ⟨hd, hs⟩
    exact ⟨.str s, map_eq_ok.mpr ⟨s, canonicalString_eq_ok_iff.mpr ⟨hd, hs, rfl⟩, rfl⟩⟩

theorem exists_canonicalItems_eq_ok {xs : List Json} :
    (∃ ys, canonicalItems d xs = .ok ys) ↔ ∀ x ∈ xs, Canonicalizes d x := by
  induction xs with
  | nil => simp [canonicalItems]
  | cons x xs ih =>
    rw [canonicalItems, List.forall_mem_cons, ← ih]
    constructor
    · rintro ⟨ys, h⟩
      obtain ⟨y, hy, h⟩ := bind_eq_ok.mp h
      obtain ⟨ys', hys, -⟩ := bind_eq_ok.mp h
      exact ⟨⟨y, hy⟩, ys', hys⟩
    · rintro ⟨⟨y, hy⟩, ys, hys⟩
      exact ⟨y :: ys, bind_eq_ok.mpr ⟨y, hy, bind_eq_ok.mpr ⟨ys, hys, rfl⟩⟩⟩

theorem canonicalizes_arr {xs : List Json} : Canonicalizes d (.arr xs) ↔
    d ≤ maxCanonicalDepth ∧ xs.length ≤ maxCanonicalItems ∧ ∀ x ∈ xs, Canonicalizes (d + 1) x := by
  rw [Canonicalizes, canonicalValue, ← exists_canonicalItems_eq_ok, ← Nat.not_lt, ← Nat.not_lt]
  split
  case isTrue h => simp [h]
  case isFalse h =>
  split
  case isTrue h' => simp [h']
  case isFalse h' =>
    constructor
    · rintro ⟨v, hv⟩
      obtain ⟨ys, hys, -⟩ := map_eq_ok.mp hv
      exact ⟨h, h', ys, hys⟩
    · rintro ⟨-, -, ys, hys⟩
      exact ⟨.arr ys, map_eq_ok.mpr ⟨ys, hys, rfl⟩⟩

theorem canonicalizes_obj {fields : List (String × Json)} : Canonicalizes d (.obj fields) ↔
    d ≤ maxCanonicalDepth ∧ fields.length ≤ maxCanonicalItems ∧
      ∀ f ∈ fields, d + 1 ≤ maxCanonicalDepth ∧ IsCanonicalString f.1 ∧
        Canonicalizes (d + 1) f.2 := by
  have hperm := Json.sortFields_perm (fields.map fun f ↦ (f.1, canonicalValue (d + 1) f.2))
  constructor
  · rintro ⟨v, hv⟩
    obtain ⟨hd, hlen, fields', rfl, hsort, hkeys⟩ := canonicalValue_obj_eq_ok.mp hv
    refine ⟨hd, hlen, fun f hf ↦ ?_⟩
    have hmem : (f.1, canonicalValue (d + 1) f.2) ∈ fields'.map fun f ↦ (f.1, Except.ok f.2) := by
      rw [← hsort, hperm.mem_iff]
      exact List.mem_map_of_mem hf
    obtain ⟨g, hg, hgf⟩ := List.mem_map.mp hmem
    obtain ⟨hkey, hvalue⟩ := Prod.ext_iff.mp hgf
    obtain ⟨hd', hs, -⟩ := canonicalString_eq_ok_iff.mp (hkeys g hg)
    exact ⟨hd', hkey ▸ hs, g.2, hvalue.symm⟩
  · rintro ⟨hd, hlen, hfields⟩
    -- each sorted entry is a key of the object with the canonical form of its value
    have hentry : ∀ e ∈ Json.sortFields (fields.map fun f ↦ (f.1, canonicalValue (d + 1) f.2)),
        d + 1 ≤ maxCanonicalDepth ∧ IsCanonicalString e.1 ∧ ∃ v, e.2 = .ok v := by
      intro e he
      obtain ⟨f, hf, rfl⟩ := List.mem_map.mp (hperm.mem_iff.mp he)
      exact hfields f hf
    generalize hes :
      Json.sortFields (fields.map fun f ↦ (f.1, canonicalValue (d + 1) f.2)) = es at *
    have hvalues : ∃ fields' : List (String × Json),
        es = fields'.map fun f ↦ (f.1, Except.ok f.2) := by
      clear hes hperm
      induction es with
      | nil => exact ⟨[], rfl⟩
      | cons e es ih =>
        obtain ⟨-, -, v, hv⟩ := hentry e List.mem_cons_self
        obtain ⟨fields', rfl⟩ := ih fun e he ↦ hentry e (List.mem_cons_of_mem _ he)
        exact ⟨(e.1, v) :: fields', by rw [List.map_cons, ← hv]⟩
    obtain ⟨fields', hfields'⟩ := hvalues
    refine ⟨.obj fields', canonicalValue_obj_eq_ok.mpr ⟨hd, hlen, fields', rfl, ?_, ?_⟩⟩
    · rw [hes, hfields']
    · intro f hf
      have hmem : (f.1, Except.ok f.2) ∈ es := hfields' ▸ List.mem_map_of_mem hf
      obtain ⟨hd', hs, -⟩ := hentry _ hmem
      exact canonicalString_eq_ok_iff.mpr ⟨hd', hs, rfl⟩

mutual

/-- Whether a value has a canonical form, without computing it. -/
def decCanonicalizes (d : ℕ) : (v : Json) → Decidable (Canonicalizes d v)
  | .null => decidable_of_iff _ canonicalizes_null.symm
  | .bool _ => decidable_of_iff _ canonicalizes_bool.symm
  | .int _ => decidable_of_iff _ canonicalizes_int.symm
  | .float _ => decidable_of_iff _ canonicalizes_float.symm
  | .str _ => decidable_of_iff _ canonicalizes_str.symm
  | .arr xs =>
    @decidable_of_iff _ _ canonicalizes_arr.symm
      (@instDecidableAnd _ _ inferInstance
        (@instDecidableAnd _ _ inferInstance (decCanonicalizesItems (d + 1) xs)))
  | .obj fields =>
    @decidable_of_iff _ _ canonicalizes_obj.symm
      (@instDecidableAnd _ _ inferInstance
        (@instDecidableAnd _ _ inferInstance (decCanonicalizesFields (d + 1) fields)))

def decCanonicalizesItems (d : ℕ) : (xs : List Json) → Decidable (∀ x ∈ xs, Canonicalizes d x)
  | [] => isTrue (by simp)
  | x :: xs =>
    @decidable_of_iff _ _ List.forall_mem_cons.symm
      (@instDecidableAnd _ _ (decCanonicalizes d x) (decCanonicalizesItems d xs))

def decCanonicalizesFields (d : ℕ) : (fields : List (String × Json)) →
    Decidable (∀ f ∈ fields, d ≤ maxCanonicalDepth ∧ IsCanonicalString f.1 ∧ Canonicalizes d f.2)
  | [] => isTrue (by simp)
  | (_, x) :: fields =>
    @decidable_of_iff _ _ List.forall_mem_cons.symm
      (@instDecidableAnd _ _
        (@instDecidableAnd _ _ inferInstance
          (@instDecidableAnd _ _ inferInstance (decCanonicalizes d x)))
        (decCanonicalizesFields d fields))

end

instance (d : ℕ) (v : Json) : Decidable (Canonicalizes d v) := decCanonicalizes d v

/-- A value has a digest when it has a canonical form. -/
theorem exists_digest_eq_ok : (∃ x, digest v = .ok x) ↔ Canonicalizes 0 v := by
  rw [Canonicalizes]
  constructor
  · rintro ⟨x, hx⟩
    obtain ⟨b, hb, -⟩ := map_eq_ok.mp hx
    obtain ⟨v', hv, -⟩ := map_eq_ok.mp hb
    exact ⟨v', hv⟩
  · rintro ⟨v', hv⟩
    exact ⟨_, map_eq_ok.mpr ⟨spell v', map_eq_ok.mpr ⟨v', hv, rfl⟩, rfl⟩⟩

theorem isDigest_of_digest_eq_ok {x : String} (h : digest v = .ok x) : isDigest x = true := by
  obtain ⟨b, -, rfl⟩ := map_eq_ok.mp h
  exact Platform.isDigest_sha256 b

/-! ## Refusals -/

theorem canonicalString_ne_error {e : Exn} (h : e.cls ≠ .canonicalizationError) :
    canonicalString d s ≠ .error e := by
  rw [canonicalString]
  split
  · exact fun he ↦ h (Except.error.inj he ▸ rfl)
  split
  · exact fun he ↦ h (Except.error.inj he ▸ rfl)
  split
  · exact fun he ↦ h (Except.error.inj he ▸ rfl)
  · exact ok_ne_error

theorem canonicalEntries_ne_error {e : Exn} (h : e.cls ≠ .canonicalizationError)
    {es : List (String × Except Exn Json)} (hes : ∀ x ∈ es, x.2 ≠ .error e) :
    canonicalEntries d es ≠ .error e := by
  induction es with
  | nil => exact ok_ne_error
  | cons x es ih =>
    rw [canonicalEntries]
    refine bind_ne_error (canonicalString_ne_error h) fun _ _ ↦ ?_
    refine bind_ne_error (hes x List.mem_cons_self) fun _ _ ↦ ?_
    exact bind_ne_error (ih fun y hy ↦ hes y (List.mem_cons_of_mem _ hy)) fun _ _ ↦ ok_ne_error

mutual

/-- A value that is refused is refused with a canonicalization error. -/
theorem canonicalValue_ne_error {e : Exn} (h : e.cls ≠ .canonicalizationError) (d : ℕ) :
    ∀ v : Json, canonicalValue d v ≠ .error e
  | .null => by
    rw [canonicalValue]
    split
    · exact fun he ↦ h (Except.error.inj he ▸ rfl)
    · exact ok_ne_error
  | .bool b => by
    rw [canonicalValue]
    split
    · exact fun he ↦ h (Except.error.inj he ▸ rfl)
    · exact ok_ne_error
  | .int n => by
    rw [canonicalValue]
    split
    · exact fun he ↦ h (Except.error.inj he ▸ rfl)
    split
    · exact fun he ↦ h (Except.error.inj he ▸ rfl)
    · exact ok_ne_error
  | .float f => by
    rw [canonicalValue]
    split
    · exact fun he ↦ h (Except.error.inj he ▸ rfl)
    split
    · exact fun he ↦ h (Except.error.inj he ▸ rfl)
    split
    · exact fun he ↦ h (Except.error.inj he ▸ rfl)
    · exact ok_ne_error
  | .str s => by
    rw [canonicalValue]
    exact map_ne_error (canonicalString_ne_error h)
  | .arr xs => by
    rw [canonicalValue]
    split
    · exact fun he ↦ h (Except.error.inj he ▸ rfl)
    split
    · exact fun he ↦ h (Except.error.inj he ▸ rfl)
    · exact map_ne_error (canonicalItems_ne_error h (d + 1) xs)
  | .obj fields => by
    rw [canonicalValue]
    split
    · exact fun he ↦ h (Except.error.inj he ▸ rfl)
    split
    · exact fun he ↦ h (Except.error.inj he ▸ rfl)
    · refine map_ne_error (canonicalEntries_ne_error h fun x hx ↦ ?_)
      rw [(Json.sortFields_perm _).mem_iff, canonicalFields_eq_map] at hx
      obtain ⟨f, hf, rfl⟩ := List.mem_map.mp hx
      exact canonicalFields_ne_error h (d + 1) fields f hf

theorem canonicalItems_ne_error {e : Exn} (h : e.cls ≠ .canonicalizationError) (d : ℕ) :
    ∀ xs : List Json, canonicalItems d xs ≠ .error e
  | [] => ok_ne_error
  | x :: xs => by
    rw [canonicalItems]
    refine bind_ne_error (canonicalValue_ne_error h d x) fun _ _ ↦ ?_
    exact bind_ne_error (canonicalItems_ne_error h d xs) fun _ _ ↦ ok_ne_error

theorem canonicalFields_ne_error {e : Exn} (h : e.cls ≠ .canonicalizationError) (d : ℕ) :
    ∀ fields : List (String × Json), ∀ f ∈ fields, canonicalValue d f.2 ≠ .error e
  | [], f, hf => (nomatch hf)
  | (k, x) :: fields, f, hf => by
    rcases List.mem_cons.mp hf with rfl | hf
    · exact canonicalValue_ne_error h d x
    · exact canonicalFields_ne_error h d fields f hf

end

theorem digest_ne_error {e : Exn} (h : e.cls ≠ .canonicalizationError) : digest v ≠ .error e :=
  map_ne_error (map_ne_error (canonicalValue_ne_error h 0 v))

/-! ## Depth -/

mutual

/-- A value that has a canonical form has one at a depth where its levels fit. -/
theorem canonicalizes_iff_height (d : ℕ) : ∀ v : Json,
    Canonicalizes d v ↔ Canonicalizes 0 v ∧ d + v.height ≤ maxCanonicalDepth
  | .null => by simp [Json.height]
  | .bool b => by simp [Json.height]
  | .int n => by simp [Json.height, and_comm]
  | .float f => by simp [Json.height, canonicalizes_float, and_comm]
  | .str s => by simp [Json.height, and_comm]
  | .arr xs => by
    rw [canonicalizes_arr, canonicalizes_arr, Json.height]
    have hd := canonicalItems_iff_height (d + 1) xs
    have h0 := canonicalItems_iff_height (0 + 1) xs
    constructor
    · rintro ⟨hle, hlen, hall⟩
      obtain ⟨hself, hheight⟩ := hd.mp hall
      have hroom : Json.heightItems xs ≤ maxCanonicalDepth - d :=
        Json.heightItems_le_iff.mpr fun x hx ↦ by have := hheight x hx; omega
      refine ⟨⟨Nat.zero_le _, hlen, h0.mpr ⟨hself, fun x hx ↦ ?_⟩⟩, by omega⟩
      have := hheight x hx
      omega
    · rintro ⟨⟨-, hlen, hall⟩, hheight⟩
      refine ⟨by omega, hlen, hd.mpr ⟨(h0.mp hall).1, fun x hx ↦ ?_⟩⟩
      have hroom : Json.heightItems xs ≤ maxCanonicalDepth - d := by omega
      have := Json.heightItems_le_iff.mp hroom x hx
      omega
  | .obj fields => by
    rw [canonicalizes_obj, canonicalizes_obj, Json.height]
    have hd := canonicalFields_iff_height (d + 1) fields
    have h0 := canonicalFields_iff_height (0 + 1) fields
    constructor
    · rintro ⟨hle, hlen, hall⟩
      obtain ⟨hself, hheight⟩ := hd.mp fun f hf ↦ (hall f hf).2.2
      have hroom : Json.heightFields fields ≤ maxCanonicalDepth - d :=
        Json.heightFields_le_iff.mpr fun f hf ↦ by have := hheight f hf; omega
      refine ⟨⟨Nat.zero_le _, hlen, fun f hf ↦ ⟨by decide, (hall f hf).2.1, ?_⟩⟩, by omega⟩
      refine h0.mpr ⟨hself, fun g hg ↦ ?_⟩ f hf
      have := hheight g hg
      omega
    · rintro ⟨⟨-, hlen, hall⟩, hheight⟩
      have hroom : Json.heightFields fields ≤ maxCanonicalDepth - d := by omega
      have hfits := Json.heightFields_le_iff.mp hroom
      have hself := (h0.mp fun f hf ↦ (hall f hf).2.2).1
      refine ⟨by omega, hlen, fun f hf ↦ ⟨?_, (hall f hf).2.1, ?_⟩⟩
      · have := hfits f hf
        omega
      · refine hd.mpr ⟨hself, fun g hg ↦ ?_⟩ f hf
        have := hfits g hg
        omega

theorem canonicalItems_iff_height (d : ℕ) : ∀ xs : List Json,
    (∀ x ∈ xs, Canonicalizes d x) ↔ (∀ x ∈ xs, Canonicalizes 0 x) ∧
      ∀ x ∈ xs, d + x.height ≤ maxCanonicalDepth
  | [] => by simp
  | x :: xs => by
    rw [List.forall_mem_cons, List.forall_mem_cons, List.forall_mem_cons,
      canonicalizes_iff_height d x, canonicalItems_iff_height d xs]
    exact and_and_and_comm

theorem canonicalFields_iff_height (d : ℕ) : ∀ fields : List (String × Json),
    (∀ f ∈ fields, Canonicalizes d f.2) ↔ (∀ f ∈ fields, Canonicalizes 0 f.2) ∧
      ∀ f ∈ fields, d + f.2.height ≤ maxCanonicalDepth
  | [] => by simp
  | (k, x) :: fields => by
    rw [List.forall_mem_cons, List.forall_mem_cons, List.forall_mem_cons,
      canonicalizes_iff_height d x, canonicalFields_iff_height d fields]
    exact and_and_and_comm

end

/-! ## Text -/

omit [Platform] in
theorem utf8ByteSize_of_isAscii (h : isAscii s = true) : s.utf8ByteSize = s.toList.length := by
  have hlist : ∀ l : List Char, (l.all fun c ↦ c.toNat < 128) = true →
      (String.ofList l).utf8ByteSize = l.length := by
    intro l hl
    induction l with
    | nil => rfl
    | cons c l ih =>
      rw [List.all_cons, Bool.and_eq_true, decide_eq_true_iff] at hl
      have hsize : c.utf8Size = 1 := by
        rw [Char.utf8Size_eq_one_iff, UInt32.le_iff_toNat_le]
        have : c.val.toNat < 128 := hl.1
        have : (127 : UInt32).toNat = 127 := rfl
        omega
      rw [String.ofList_cons, String.utf8ByteSize_append, String.utf8ByteSize_singleton, hsize,
        ih hl.2, List.length_cons, Nat.add_comm]
  have hs := hlist s.toList h
  rwa [String.ofList_toList] at hs

omit [Platform] in
theorem toNat_lt_of_isLowerHex {c : Char} (h : isLowerHex c = true) : c.toNat < 128 := by
  rw [isLowerHex, Bool.or_eq_true, Bool.and_eq_true, Bool.and_eq_true, decide_eq_true_iff,
    decide_eq_true_iff, decide_eq_true_iff, decide_eq_true_iff] at h
  have hf : c ≤ 'f' := h.elim (fun h ↦ le_trans h.2 (by decide)) fun h ↦ h.2
  exact Nat.lt_of_le_of_lt (Char.le_def.mp hf : c.val ≤ _) (by decide)

omit [Platform] in
theorem isAscii_of_isDigest (h : isDigest s = true) : isAscii s = true := by
  rw [isDigest, Bool.and_eq_true, List.all_eq_true] at h
  exact List.all_eq_true.mpr fun c hc ↦ decide_eq_true (toNat_lt_of_isLowerHex (h.2 c hc))

omit [Platform] in
/-- A tag before hexadecimal digits. -/
theorem isAscii_of_tagged {n : ℕ} {tag : String} (htag : isAscii tag = true)
    (htake : s.toList.take n = tag.toList) (hdrop : (s.toList.drop n).all isLowerHex = true) :
    isAscii s = true := by
  refine List.all_eq_true.mpr fun c hc ↦ ?_
  rw [← List.take_append_drop n s.toList, List.mem_append, htake] at hc
  rcases hc with hc | hc
  · exact List.all_eq_true.mp htag c hc
  · exact decide_eq_true (toNat_lt_of_isLowerHex (List.all_eq_true.mp hdrop c hc))

/-- Text that is plain ASCII and short enough. -/
theorem isCanonicalString_of_isAscii (h : isAscii s = true)
    (hlen : s.toList.length ≤ maxCanonicalStringBytes) : IsCanonicalString s :=
  ⟨Platform.isNfc_of_isAscii s h, utf8ByteSize_of_isAscii h ▸ hlen⟩

theorem isCanonicalString_of_isDigest (h : isDigest s = true) : IsCanonicalString s := by
  refine isCanonicalString_of_isAscii (isAscii_of_isDigest h) ?_
  rw [isDigest, Bool.and_eq_true, beq_iff_eq] at h
  exact h.1 ▸ by decide

theorem isCanonicalString_of_isCapabilityId (h : isCapabilityId s = true) :
    IsCanonicalString s := by
  rw [isCapabilityId, Bool.and_eq_true, Bool.and_eq_true, beq_iff_eq, beq_iff_eq] at h
  exact isCanonicalString_of_isAscii (isAscii_of_tagged (by decide +kernel) h.1.1 h.2)
    (h.1.2 ▸ by decide)

omit [Platform] in
theorem toNat_lt_of_isLowerAlnum {c : Char} (h : isLowerAlnum c = true) : c.toNat < 128 := by
  rw [isLowerAlnum, Bool.or_eq_true, Bool.and_eq_true, Bool.and_eq_true, decide_eq_true_iff,
    decide_eq_true_iff, decide_eq_true_iff, decide_eq_true_iff] at h
  have hz : c ≤ 'z' := h.elim (fun h ↦ h.2) fun h ↦ le_trans h.2 (by decide)
  exact Nat.lt_of_le_of_lt (Char.le_def.mp hz : c.val ≤ _) (by decide)

omit [Platform] in
theorem isAscii_of_isScope (h : isScope s = true) :
    isAscii s = true ∧ 0 < s.toList.length ∧ s.toList.length ≤ 128 := by
  rw [isScope] at h
  rw [isAscii]
  cases hs : s.toList with
  | nil =>
    rw [hs] at h
    cases h
  | cons c cs =>
    rw [hs] at h
    simp only [Bool.and_eq_true, decide_eq_true_eq, List.all_eq_true, Bool.or_eq_true,
      beq_iff_eq] at h
    obtain ⟨⟨hc, hlen⟩, hcs⟩ := h
    refine ⟨List.all_eq_true.mpr ?_, Nat.succ_pos _, Nat.succ_le_succ hlen⟩
    rintro d (_ | ⟨_, hd⟩)
    · exact decide_eq_true (toNat_lt_of_isLowerAlnum hc)
    · refine decide_eq_true ?_
      obtain (((h | rfl) | rfl) | rfl) | rfl := hcs d hd
      · exact toNat_lt_of_isLowerAlnum h
      all_goals decide

end Limits

end EventHorizon
