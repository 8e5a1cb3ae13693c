import EventHorizon.Canonical.Dumps

/-!
# Canonical bytes are read back

`strict_json_loads` on canonical bytes gives back the value they spell, so that canonical bytes
determine a value up to the order of its items; and the bytes it accepts are the canonical bytes of
what it returns.
-/

namespace EventHorizon

/-! ## The canonical form of a value can be read back -/

section Canonical

variable [Platform] {G : FloatValue → Prop}

namespace PyValue

theorem exists_of_mem_canonicalItems {d : ℕ} {xs : List PyValue} {ys : List Json}
    (h : canonicalItems d xs = .ok ys) :
    ∀ y ∈ ys, ∃ x ∈ xs, x.canonicalValue d = .ok y := by
  induction xs generalizing ys with
  | nil =>
    cases h
    exact fun y hy ↦ nomatch hy
  | cons x xs ih =>
    obtain ⟨y, hy, h⟩ := bind_eq_ok.mp h
    obtain ⟨ys', hys, h⟩ := bind_eq_ok.mp h
    cases h
    intro z hz
    rcases List.mem_cons.mp hz with rfl | hz
    · exact ⟨x, List.mem_cons_self, hy⟩
    · obtain ⟨x', hx', hz⟩ := ih hys z hz
      exact ⟨x', List.mem_cons_of_mem _ hx', hz⟩

/-- A canonical value can be read back when its keys are distinct and its floats can be. -/
theorem readable_of_canonicalValue (v : PyValue) : ∀ {d : ℕ} {c : Json}, v.Distinct → v.Floats G →
    v.canonicalValue d = .ok c → Readable G c := by
  -- lists and tuples have the same canonical form
  have hlist : ∀ {xs : List PyValue} {d : ℕ} {c : Json},
      (∀ x ∈ xs, ∀ {d : ℕ} {c : Json}, x.Distinct → x.Floats G → x.canonicalValue d = .ok c →
        Readable G c) →
      DistinctItems xs → FloatsItems G xs → (PyValue.list xs).canonicalValue d = .ok c →
      Readable G c := by
    intro xs d c ih hdist hfloat hc
    rw [canonicalValue] at hc
    split at hc
    · cases hc
    split at hc
    · cases hc
    obtain ⟨ys, hys, rfl⟩ := map_eq_ok.mp hc
    refine readableItems_iff.mpr fun y hy ↦ ?_
    obtain ⟨x, hx, hxy⟩ := exists_of_mem_canonicalItems hys y hy
    exact ih x hx (distinctItems_iff.mp hdist x hx) (floatsItems_iff.mp hfloat x hx) hxy
  induction v using PyValue.induction with
  | none | bool =>
    intro d c _ _ hc
    rw [canonicalValue] at hc
    split at hc
    · cases hc
    · cases hc
      trivial
  | int n =>
    intro d c _ _ hc
    rw [canonicalValue] at hc
    split at hc
    · cases hc
    split at hc
    · cases hc
    case isFalse hn =>
      cases hc
      exact Nat.not_lt.mp hn
  | float f =>
    intro d c _ hf hc
    rw [canonicalValue] at hc
    repeat' split at hc
    all_goals cases hc
    exact hf
  | str s =>
    intro d c _ _ hc
    obtain ⟨t, -, rfl⟩ := map_eq_ok.mp hc
    trivial
  | list xs ih | tuple xs ih =>
    intro d c hdist hfloat hc
    exact hlist ih hdist hfloat hc
  | dict items ih =>
    intro d c hdist hfloat hc
    rw [canonicalValue] at hc
    split at hc
    · cases hc
    split at hc
    · cases hc
    split at hc
    · cases hc
    obtain ⟨fields, hfields, rfl⟩ := map_eq_ok.mp hc
    have hsort := canonicalEntries_eq_ok hfields
    rw [canonicalFields_eq_map, sortItems_map] at hsort
    refine ⟨?_, readableFields_iff.mpr fun f hf ↦ ?_⟩
    -- sorting permutes the keys, and they stay distinct as texts
    · have hkeys : ((sortItems items).map Prod.fst).Nodup :=
        ((List.perm_insertionSort _ items).map _).nodup_iff.mpr hdist.1
      have hmap := congrArg (List.map Prod.fst) hsort
      rw [List.map_map, List.map_map] at hmap
      have hmap' : (sortItems items).map Prod.fst =
          (fields.map Prod.fst).map fun k ↦ PyKey.str (.ofString k) := by
        rw [List.map_map]
        exact hmap
      rw [hmap'] at hkeys
      exact hkeys.of_map _
    · have hmem : (PyKey.str (.ofString f.1), Except.ok f.2) ∈
          (sortItems items).map fun f ↦ (f.1, canonicalValue (d + 1) f.2) := by
        rw [hsort]
        exact List.mem_map_of_mem hf
      obtain ⟨g, hg, hgf⟩ := List.mem_map.mp hmem
      have hg' := mem_sortItems.mp hg
      exact ih g hg' (distinctFields_iff.mp hdist.2 g hg') (floatsFields_iff.mp hfloat g hg')
        (congrArg Prod.snd hgf)
  | other name =>
    intro d c _ _ hc
    rw [canonicalValue] at hc
    split at hc <;> cases hc

end PyValue

omit [Platform] in
theorem asciiFloats_of_readable (hG : ∀ f, G f → isAscii f.text = true) (v : Json) :
    Readable G v → v.AsciiFloats := by
  induction v using Json.induction with
  | null | bool | int | str => exact fun _ ↦ trivial
  | float f => exact fun hf ↦ hG f hf
  | arr xs ih =>
    intro hxs
    rw [Json.AsciiFloats, PyValue.ofJson, PyValue.Floats, PyValue.floatsItems_iff,
      PyValue.ofItems_eq_map]
    rintro x hx
    obtain ⟨y, hy, rfl⟩ := List.mem_map.mp hx
    exact ih y hy (readableItems_iff.mp hxs y hy)
  | obj fields ih =>
    intro hfields
    rw [Json.AsciiFloats, PyValue.ofJson, PyValue.Floats, PyValue.floatsFields_iff,
      PyValue.ofFields_eq_map]
    rintro f hf
    obtain ⟨g, hg, rfl⟩ := List.mem_map.mp hf
    exact ih g hg (readableFields_iff.mp hfields.2 g hg)

/-! ## Strict loading -/

omit [Platform] in
theorem strictHooks_reads : strictHooks.Reads fun _ ↦ False where
  pairs _ h := objectWithoutDuplicates_eq_ok.mpr ⟨h, rfl⟩
  float _ h := h.elim

/-- Canonical bytes are read back as the value they were made from, with space after them unless
they have to be canonical. -/
theorem strictJsonLoads_spaced {v : PyValue} {b : List ℕ} {space : List Char}
    {requireCanonical : Bool} (hdist : v.Distinct) (hfloat : v.FloatFree)
    (h : v.canonicalBytes = .ok b) (hspace : skipSpace space = []) (hends : Ends space)
    (hcanonical : requireCanonical = true → space = []) :
    strictJsonLoads (b ++ encodeUtf8 space) requireCanonical = .ok v.listed := by
  obtain ⟨c, hc, rfl⟩ := map_eq_ok.mp h
  have hread := PyValue.readable_of_canonicalValue v hdist hfloat hc
  have hlisted := PyValue.listed_of_canonicalValue v 0 c hc
  have hspell : spell c = encodeUtf8 (dumps c) :=
    spell_eq c (asciiFloats_of_readable (fun _ hf ↦ hf.elim) c hread)
  have hencode : spell c ++ encodeUtf8 space = encodeUtf8 (dumps c ++ space) := by
    rw [hspell, encodeUtf8, encodeUtf8, encodeUtf8, List.flatMap_append]
  have hloads : loads strictHooks (dumps c ++ space) = .ok v.listed := by
    rw [loads_dumps strictHooks_reads hread hspace hends, hlisted]
  have hcanon : v.listed.canonicalBytes = .ok (spell c) := by
    rw [PyValue.canonicalBytes, PyValue.canonicalValue_listed, hc]
    rfl
  have htext : strictText (spell c ++ encodeUtf8 space) = .ok (dumps c ++ space) := by
    rw [strictText, hencode, decodeUtf8_encodeUtf8]
  refine bind_eq_ok.mpr ⟨_, htext, bind_eq_ok.mpr ⟨_, ?_, bind_eq_ok.mpr ⟨_, hcanon, ?_⟩⟩⟩
  · rw [hloads]
    rfl
  · rw [if_neg]
    · rfl
    · rintro ⟨hrequire, hne⟩
      rw [hcanonical hrequire, List.append_nil] at hne
      exact hne hspell

/-- Canonical bytes are read back as the value they were made from. -/
theorem strictJsonLoads_canonicalBytes {v : PyValue} {b : List ℕ} (hdist : v.Distinct)
    (hfloat : v.FloatFree) (h : v.canonicalBytes = .ok b) :
    strictJsonLoads b true = .ok v.listed := by
  have hloads : strictJsonLoads (b ++ encodeUtf8 []) true = .ok v.listed :=
    strictJsonLoads_spaced hdist hfloat h rfl (fun c hc ↦ nomatch hc) fun _ ↦ rfl
  rwa [encodeUtf8, List.flatMap_nil, List.append_nil] at hloads

theorem strictJsonLoads_line {v : PyValue} {b : List ℕ} (hdist : v.Distinct) (hfloat : v.FloatFree)
    (h : v.canonicalBytes = .ok b) : strictJsonLoads (b ++ [10]) false = .ok v.listed := by
  have hends : Ends ['\n'] := fun c hc ↦ by
    cases hc
    rfl
  exact strictJsonLoads_spaced hdist hfloat h (show skipSpace ['\n'] = [] from rfl) hends
    fun h ↦ nomatch h

theorem canonicalBytes_of_strictJsonLoads {data : List ℕ} {w : PyValue}
    (h : strictJsonLoads data true = .ok w) : w.canonicalBytes = .ok data := by
  rw [strictJsonLoads] at h
  obtain ⟨text, htext, h⟩ := bind_eq_ok.mp h
  obtain ⟨value, -, h⟩ := bind_eq_ok.mp h
  obtain ⟨encoded, hencoded, h⟩ := bind_eq_ok.mp h
  split at h
  · cases h
  case isFalse hcanon =>
  cases h
  rw [strictText] at htext
  split at htext
  · cases htext
  case h_2 text' hdecode =>
  rw [Except.ok.inj htext] at hdecode
  rw [hencoded, ← encodeUtf8_of_decodeUtf8 hdecode]
  by_contra hne
  exact hcanon ⟨rfl, fun heq ↦ hne (by rw [heq])⟩

theorem canonicalBytes_eq_iff {v w : PyValue} {b : List ℕ} (hv : v.Distinct) (hvfloat : v.FloatFree)
    (hw : w.Distinct) (hwfloat : w.FloatFree) (h : v.canonicalBytes = .ok b) :
    w.canonicalBytes = .ok b ↔ w.listed = v.listed := by
  constructor
  · intro hb
    have hread := strictJsonLoads_canonicalBytes hv hvfloat h
    rw [strictJsonLoads_canonicalBytes hw hwfloat hb] at hread
    exact Except.ok.inj hread
  · intro heq
    rw [PyValue.canonicalBytes, ← PyValue.canonicalValue_listed, heq,
      PyValue.canonicalValue_listed]
    exact h

/-- Canonical JSON is a bijective encoding: the bytes of a value without floats are read back as
that value, tuples read as lists; values with the same bytes differ in nothing else than tuples for
lists and the order of items; and accepted bytes are those of the value they are read as. -/
theorem canonicalBytes_bijective :
    (∀ (v : PyValue) (b : List ℕ), v.Distinct → v.FloatFree → v.canonicalBytes = .ok b →
      strictJsonLoads b true = .ok v.listed ∧
      ∀ w : PyValue, w.Distinct → w.FloatFree →
        (w.canonicalBytes = .ok b ↔ w.listed = v.listed)) ∧
    ∀ (data : List ℕ) (w : PyValue), strictJsonLoads data true = .ok w →
      w.canonicalBytes = .ok data :=
  ⟨fun v b hdist hfloat hb ↦ ⟨strictJsonLoads_canonicalBytes hdist hfloat hb,
    fun w hdist' hfloat' ↦ canonicalBytes_eq_iff hdist hfloat hdist' hfloat' hb⟩,
    fun data w ↦ canonicalBytes_of_strictJsonLoads⟩

end Canonical

/-- The bytes of a small value, read back. -/
theorem canonicalBytes_bijective_sample :
    let _ := pythonPlatform
    let v : PyValue := .dict [(.str (.ofString "b"), .tuple [.int (-1), .str (.ofString "x\n")]),
      (.str (.ofString "a"), .bool true)]
    strictJsonLoads (asciiOctets "\x7b\"a\":true,\"b\":[-1,\"x\\n\"]\x7d") true = .ok v.listed := by
  intro _ v
  have hdist : v.Distinct := by simp [v, PyValue.Distinct, PyValue.DistinctFields,
    PyValue.DistinctItems, PyStr.ofString]
  have hfloat : v.FloatFree := by simp [v, PyValue.FloatFree, PyValue.Floats,
    PyValue.FloatsFields, PyValue.FloatsItems]
  exact (canonicalBytes_bijective.1 v _ hdist hfloat (by decide +kernel)).1

end EventHorizon
