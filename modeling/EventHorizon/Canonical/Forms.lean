import EventHorizon.Canonical.Limits
import EventHorizon.Canonical.Lines

/-!
# What a canonical form determines

Values with one canonical form have the same items, and under each key values that have one
canonical form again; numbers and strings are their own canonical form. The canonical bytes
determine the canonical form, as the bytes are read back.
-/

namespace EventHorizon

open Protocol (FloatReader)

section Forms

variable [Platform] {d d' : ℕ}

/-! ## Values that are their own form -/

theorem mem_canonicalItems_self {xs : List Json} (h : canonicalItems d xs = .ok xs) :
    ∀ x ∈ xs, canonicalValue d x = .ok x := by
  induction xs with
  | nil => nofun
  | cons x xs ih =>
    rw [canonicalItems] at h
    obtain ⟨y, hy, h⟩ := bind_eq_ok.mp h
    obtain ⟨ys, hys, h⟩ := bind_eq_ok.mp h
    obtain ⟨rfl, rfl⟩ := List.cons.inj (Except.ok.inj h)
    exact List.forall_mem_cons.mpr ⟨hy, ih hys⟩

/-- An object that is its own form has its keys in order, and values that are their own. -/
theorem canonicalValue_obj_self_iff {fields : List (String × Json)}
    (h : canonicalValue d (.obj fields) = .ok (.obj fields)) :
    Json.Sorted fields ∧ ∀ f ∈ fields, canonicalValue (d + 1) f.2 = .ok f.2 := by
  obtain ⟨-, -, fields', hobj, hsort, -⟩ := canonicalValue_obj_eq_ok.mp h
  cases hobj
  have hsorted : Json.Sorted fields := by
    refine Json.Sorted.of_keys ?_ (Json.sorted_sortFields
      (fields.map fun f ↦ (f.1, canonicalValue (d + 1) f.2)))
    rw [hsort, List.map_map]
    rfl
  have hkeys : Json.Sorted (fields.map fun f ↦ (f.1, canonicalValue (d + 1) f.2)) :=
    Json.Sorted.of_keys (by rw [List.map_map]; rfl) hsorted
  rw [Json.sortFields_of_sorted hkeys, List.map_inj_left] at hsort
  exact ⟨hsorted, fun f hf ↦ congrArg Prod.snd (hsort f hf)⟩

/-- A value that is its own form at one depth has no other form at another. -/
theorem eq_of_canonicalValue_self (v : Json) : ∀ {d d' : ℕ} {c : Json},
    canonicalValue d v = .ok v → canonicalValue d' v = .ok c → c = v := by
  induction v using Json.induction with
  | null | bool | float =>
    intro d d' c _ h
    rw [canonicalValue] at h
    repeat' split at h
    all_goals cases h
    all_goals rfl
  | int n => exact fun _ h ↦ eq_of_canonicalValue_int h
  | str s => exact fun _ h ↦ eq_of_canonicalValue_str h
  | arr xs ih =>
    intro d d' c hself h
    rw [canonicalValue] at hself
    split at hself
    · cases hself
    split at hself
    · cases hself
    obtain ⟨ys, hys, heq⟩ := map_eq_ok.mp hself
    cases heq
    exact eq_of_canonicalValue_arr
      (fun x hx x' hx' ↦ ih x hx (mem_canonicalItems_self hys x hx) hx') h
  | obj fields ih =>
    intro d d' c hself h
    obtain ⟨hsorted, hfields⟩ := canonicalValue_obj_self_iff hself
    exact eq_of_canonicalValue_obj hsorted (fun f hf x' hx' ↦ ih f hf (hfields f hf) hx') h

/-! ## Values with one form -/

/-- The values have one canonical form. -/
def SameForm (d : ℕ) (v w : Json) : Prop :=
  ∃ c, canonicalValue d v = .ok c ∧ canonicalValue d w = .ok c

namespace SameForm

variable {v w : Json}

theorem eq_of_self (h : SameForm d v w) (hv : canonicalValue d' v = .ok v)
    (hw : canonicalValue d' w = .ok w) : v = w := by
  obtain ⟨c, hcv, hcw⟩ := h
  rw [← eq_of_canonicalValue_self v hv hcv, eq_of_canonicalValue_self w hw hcw]

theorem int {m n : ℤ} (h : SameForm d (.int m) (.int n)) : m = n := by
  obtain ⟨c, hm, hn⟩ := h
  rw [eq_of_canonicalValue_int hm] at hn
  exact Json.int.inj (eq_of_canonicalValue_int hn)

theorem str {s t : String} (h : SameForm d (.str s) (.str t)) : s = t := by
  obtain ⟨c, hs, ht⟩ := h
  rw [eq_of_canonicalValue_str hs] at ht
  exact Json.str.inj (eq_of_canonicalValue_str ht)

/-- What stands under a key of both. -/
theorem lookup {fields gields : List (String × Json)} (h : SameForm d (.obj fields) (.obj gields))
    {k : String} {x y : Json} (hx : Json.lookup fields k = some x)
    (hy : Json.lookup gields k = some y) : SameForm (d + 1) x y := by
  obtain ⟨c, hf, hg⟩ := h
  obtain ⟨-, -, fields', rfl, -⟩ := canonicalValue_obj_eq_ok.mp hf
  obtain ⟨x', hx', hxc⟩ := lookup_canonical_eq_some hf hx
  obtain ⟨y', hy', hyc⟩ := lookup_canonical_eq_some hg hy
  rw [hx', Option.some.injEq] at hy'
  exact ⟨x', hxc, hy' ▸ hyc⟩

theorem items {xs ys : List Json} {zs : List Json} (hx : canonicalItems d xs = .ok zs)
    (hy : canonicalItems d ys = .ok zs) : List.Forall₂ (SameForm d) xs ys := by
  induction xs generalizing ys zs with
  | nil =>
    cases hx
    cases ys with
    | nil => exact .nil
    | cons y ys =>
      obtain ⟨_, -, hy⟩ := bind_eq_ok.mp hy
      obtain ⟨_, -, hy⟩ := bind_eq_ok.mp hy
      cases hy
  | cons x xs ih =>
    obtain ⟨z, hz, hx⟩ := bind_eq_ok.mp hx
    obtain ⟨zs', hzs, hx⟩ := bind_eq_ok.mp hx
    cases hx
    cases ys with
    | nil => cases hy
    | cons y ys =>
      obtain ⟨z', hz', hy⟩ := bind_eq_ok.mp hy
      obtain ⟨zs'', hzs', hy⟩ := bind_eq_ok.mp hy
      obtain ⟨rfl, rfl⟩ := List.cons.inj (Except.ok.inj hy)
      exact .cons ⟨z', hz, hz'⟩ (ih hzs hzs')

/-- Arrays with one form have items with one form. -/
theorem arr {xs ys : List Json} (h : SameForm d (.arr xs) (.arr ys)) :
    List.Forall₂ (SameForm (d + 1)) xs ys := by
  have hform : ∀ {xs : List Json} {c : Json}, canonicalValue d (.arr xs) = .ok c →
      ∃ zs, canonicalItems (d + 1) xs = .ok zs ∧ .arr zs = c := by
    intro xs c h
    rw [canonicalValue] at h
    split at h
    · cases h
    split at h
    · cases h
    · exact map_eq_ok.mp h
  obtain ⟨c, hx, hy⟩ := h
  obtain ⟨zs, hzs, rfl⟩ := hform hx
  obtain ⟨zs', hzs', heq⟩ := hform hy
  cases heq
  exact items hzs hzs'

end SameForm

/-! ## Bytes and forms -/

variable [FloatReader]

omit [Platform] in
theorem PyValue.proper_arr {xs : List Json} (h : ∀ x ∈ xs, (PyValue.ofJson x).Proper) :
    (PyValue.ofJson (.arr xs)).Proper := by
  have hitems : ∀ x ∈ PyValue.ofItems xs, x.Proper := by
    rw [PyValue.ofItems_eq_map]
    exact List.forall_mem_map.mpr h
  exact ⟨PyValue.distinctItems_iff.mpr fun x hx ↦ (hitems x hx).distinct,
    PyValue.floatsItems_iff.mpr fun x hx ↦ (hitems x hx).floats⟩

omit [Platform] in
theorem PyValue.proper_obj {fields : List (String × Json)} (hkeys : (fields.map Prod.fst).Nodup)
    (h : ∀ f ∈ fields, (PyValue.ofJson f.2).Proper) : (PyValue.ofJson (.obj fields)).Proper := by
  have hfields : ∀ f ∈ PyValue.ofFields fields, f.2.Proper := by
    rw [PyValue.ofFields_eq_map]
    exact List.forall_mem_map.mpr h
  have hdistinct : ((PyValue.ofFields fields).map Prod.fst).Nodup := by
    have hinj : Function.Injective fun k ↦ PyKey.str (.ofString k) := fun _ _ h ↦
      PyStr.ofString_injective (PyKey.str.inj h)
    have hmap := hkeys.map hinj
    rw [List.map_map] at hmap
    rwa [PyValue.ofFields_eq_map, List.map_map]
  exact ⟨⟨hdistinct, PyValue.distinctFields_iff.mpr fun f hf ↦ (hfields f hf).distinct⟩,
    PyValue.floatsFields_iff.mpr fun f hf ↦ (hfields f hf).floats⟩

/-- Values with the same canonical bytes are read back as the same value. -/
theorem PyValue.Proper.listed_eq_of_spell_eq {v w : PyValue} {c c' : Json} (hv : v.Proper)
    (hw : w.Proper) (hc : v.canonicalValue d = .ok c) (hc' : w.canonicalValue d = .ok c')
    (h : spell c = spell c') : v.listed = w.listed := by
  have htext : dumps c = dumps c' := by
    rw [hv.spell_eq hc, hw.spell_eq hc'] at h
    have hdecode := congrArg decodeUtf8 h
    rwa [decodeUtf8_encodeUtf8, decodeUtf8_encodeUtf8, Option.some.injEq] at hdecode
  have hline : paddedLine c 0 = paddedLine c' 0 := by rw [paddedLine, paddedLine, htext]
  have hloads : loads defaultHooks (paddedLine c 0) = .ok v.listed := hv.loads_paddedLine hc
  rw [hline, hw.loads_paddedLine hc', Except.ok.injEq] at hloads
  exact hloads.symm

/-- Values with the same canonical bytes have one form. -/
theorem PyValue.Proper.eq_of_spell_eq {v w : PyValue} {c c' : Json} (hv : v.Proper) (hw : w.Proper)
    (hc : v.canonicalValue d = .ok c) (hc' : w.canonicalValue d = .ok c')
    (h : spell c = spell c') : c = c' := by
  have hlisted := hv.listed_eq_of_spell_eq hw hc hc' h
  have hform : v.canonicalValue d = w.canonicalValue d := by
    rw [← PyValue.canonicalValue_listed, hlisted, PyValue.canonicalValue_listed]
  rw [hform, hc', Except.ok.injEq] at hc
  exact hc.symm

/-- A number that stands under a key of both of two values with the same canonical bytes. -/
theorem PyValue.Proper.isInt_of_canonicalBytes_eq {items items' : List (PyKey × PyValue)}
    (hv : (PyValue.dict items).Proper) (hw : (PyValue.dict items').Proper) {b : List ℕ}
    (hb : (PyValue.dict items).canonicalBytes = .ok b)
    (hb' : (PyValue.dict items').canonicalBytes = .ok b) {key : String} {x y : PyValue}
    (hx : PyValue.at? items key = some x) (hy : PyValue.at? items' key = some y) (n : ℤ) :
    x.isInt n = y.isInt n := by
  obtain ⟨c, hc, rfl⟩ := map_eq_ok.mp hb
  obtain ⟨c', hc', hspell⟩ := map_eq_ok.mp hb'
  have hlisted := hv.listed_eq_of_spell_eq hw hc hc' hspell.symm
  rw [PyValue.listed, PyValue.listed, PyValue.dict.injEq] at hlisted
  have hxy := congrArg (PyValue.at? · key) hlisted
  rw [PyValue.at?_sortItems hv.distinct.1, PyValue.at?_sortItems hw.distinct.1, hx, hy,
    Option.map_some, Option.map_some, Option.some.injEq] at hxy
  rw [← PyValue.isInt_listed x, hxy, PyValue.isInt_listed]

end Forms

end EventHorizon
