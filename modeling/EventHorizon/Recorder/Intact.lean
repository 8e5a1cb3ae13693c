import EventHorizon.Broker.OneUse
import EventHorizon.Library.History
import EventHorizon.Recorder.Log

/-!
# What the recorder writes is read back

The line that `append` writes extends the chain of the lines before it by just this event, so that
the scan of the file is always what the recorder remembers: `Intact.written` for one event,
`recorder_kept` for all calls and restarts. `append` takes whatever is equal to the number that it
expects, but `_scan` wants an `int`: a call that gives the number as a float is accepted, and from
then on the file is not valid.
-/

namespace EventHorizon.Recorder

open Broker (Ed25519)
open Protocol (FloatReader)

/-! ## Items without one of them -/

section Filter

variable {α : Type*} {r : α → α → Prop} [DecidableRel r] [IsTrans α r] {p : α → Bool}

theorem filter_orderedInsert (a : α) {l : List α} (hl : l.Pairwise r) :
    (l.orderedInsert r a).filter p =
      if p a = true then (l.filter p).orderedInsert r a else l.filter p := by
  induction l with
  | nil =>
    rw [List.orderedInsert_nil, List.filter_cons]
    split <;> rfl
  | cons b l ih =>
    obtain ⟨hb, hl⟩ := List.pairwise_cons.mp hl
    rw [List.orderedInsert_cons]
    by_cases hab : r a b
    · rw [if_pos hab, List.filter_cons]
      by_cases hp : p a = true
      · rw [if_pos hp, if_pos hp]
        -- everything that is left comes after `a`
        have hall : ∀ c ∈ (b :: l).filter p, r a c := by
          intro c hc
          rcases List.mem_cons.mp (List.mem_of_mem_filter hc) with rfl | hmem
          · exact hab
          · exact IsTrans.trans _ _ _ hab (hb c hmem)
        cases hfilter : (b :: l).filter p with
        | nil => rfl
        | cons c cs =>
          rw [List.orderedInsert_cons, if_pos (hall c (hfilter ▸ List.mem_cons_self))]
      · rw [if_neg hp, if_neg hp]
    · rw [if_neg hab, List.filter_cons, List.filter_cons, ih hl]
      by_cases hpb : p b = true
      · rw [if_pos hpb, if_pos hpb]
        by_cases hp : p a = true
        · rw [if_pos hp, if_pos hp, List.orderedInsert_cons, if_neg hab]
        · rw [if_neg hp, if_neg hp]
      · rw [if_neg hpb, if_neg hpb]

theorem filter_insertionSort [Std.Total r] (l : List α) :
    (l.insertionSort r).filter p = (l.filter p).insertionSort r := by
  induction l with
  | nil => rfl
  | cons a l ih =>
    rw [List.insertionSort_cons, filter_orderedInsert a (List.pairwise_insertionSort r l), ih,
      List.filter_cons]
    split
    · rw [List.insertionSort_cons]
    · rfl

end Filter

open PyValue (listed listedFields sortItems at? item hasExactKeys)

section Items

variable {items : List (PyKey × PyValue)} {key : String}

/-- The items that are left, in order, of items with one more. -/
theorem without_sortItems (h : PyKey.str (.ofString key) ∉ items.map Prod.fst) (x : PyValue) :
    without (sortItems (listedFields (items ++ [(.str (.ofString key), x)]))) key =
      sortItems (listedFields items) := by
  have hkeep : (listedFields items).filter (fun f ↦ f.1 ≠ .str (.ofString key)) =
      listedFields items := by
    refine List.filter_eq_self.mpr fun f hf ↦ decide_eq_true fun heq ↦ h ?_
    rw [PyValue.listedFields_eq_map] at hf
    obtain ⟨g, hg, rfl⟩ := List.mem_map.mp hf
    exact List.mem_map.mpr ⟨g, hg, heq⟩
  rw [without, sortItems, filter_insertionSort, PyValue.listedFields_eq_map, List.map_append,
    List.filter_append, ← PyValue.listedFields_eq_map, hkeep]
  simp [sortItems]

/-- The item of a key, with keys that are named. -/
theorem at?_named (items : List (String × PyValue)) (key : String) :
    at? (items.map fun f ↦ (.str (.ofString f.1), f.2)) key = items.lookup key := by
  rw [at?]
  induction items with
  | nil => rfl
  | cons f items ih =>
    rw [List.map_cons, List.lookup_cons, List.lookup_cons, ih]
    by_cases h : key = f.1
    · subst h
      rw [beq_self_eq_true, beq_self_eq_true]
    · have hne : PyKey.str (.ofString key) ≠ PyKey.str (.ofString f.1) :=
        fun heq ↦ h (PyStr.ofString_injective (PyKey.str.inj heq))
      rw [beq_eq_false_iff_ne.mpr h, beq_eq_false_iff_ne.mpr hne]

theorem nodup_named {items : List (String × PyValue)} (h : (items.map Prod.fst).Nodup) :
    ((items.map fun f ↦ (PyKey.str (.ofString f.1), f.2)).map Prod.fst).Nodup := by
  have hmap := h.map (f := fun name : String ↦ PyKey.str (.ofString name))
    fun _ _ heq ↦ PyStr.ofString_injective (PyKey.str.inj heq)
  rwa [List.map_map] at hmap ⊢

/-- An item of a dictionary with named keys, as it is read back. -/
theorem at?_listed_named {items : List (String × PyValue)} (h : (items.map Prod.fst).Nodup)
    {v : PyValue} (hv : items.lookup key = some v) :
    at? (sortItems (listedFields (items.map fun f ↦ (PyKey.str (.ofString f.1), f.2)))) key =
      some v.listed := by
  rw [PyValue.at?_sortItems (nodup_named h), at?_named, hv, Option.map_some]

theorem hasExactKeys_listed {names : List String} :
    hasExactKeys (sortItems (listedFields items)) names = hasExactKeys items names := by
  have hperm := List.perm_insertionSort (fun f g : PyKey × PyValue ↦ f.1.codes ≤ g.1.codes)
    (listedFields items)
  have hkeys : (listedFields items).map Prod.fst = items.map Prod.fst := by
    rw [PyValue.listedFields_eq_map, List.map_map]
    rfl
  have hall : ∀ items : List (PyKey × PyValue), (items.all fun f ↦
      decide (f.1 ∈ names.map fun name ↦ PyKey.str (.ofString name))) =
      (items.map Prod.fst).all fun k ↦
      decide (k ∈ names.map fun name ↦ PyKey.str (.ofString name)) :=
    fun items ↦ by rw [List.all_map]; rfl
  have hmem : ∀ k, (k ∈ (sortItems (listedFields items)).map Prod.fst) ↔ k ∈ items.map Prod.fst :=
    fun k ↦ hkeys ▸ (hperm.map Prod.fst).mem_iff
  rw [hasExactKeys, hasExactKeys, hall, hall]
  congr 1
  · rw [Bool.eq_iff_iff, List.all_eq_true, List.all_eq_true]
    exact forall_congr' fun k ↦ by rw [hmem]
  · simp only [hmem]

end Items

section Values

variable [Platform] [FloatReader]

omit [FloatReader] in
/-- The order of items and tuples do not matter to a digest. -/
theorem digest_listed (v : PyValue) : v.listed.digest = v.digest := by
  rw [PyValue.digest, PyValue.canonicalBytes, PyValue.canonicalValue_listed]
  rfl

omit [Platform] in
theorem proper_ofNamed {items : List (String × PyValue)} (hkeys : (items.map Prod.fst).Nodup)
    (h : ∀ f ∈ items, f.2.Proper) : (PyValue.ofNamed items).Proper where
  distinct := by
    refine ⟨nodup_named hkeys, PyValue.distinctFields_iff.mpr fun f hf ↦ ?_⟩
    obtain ⟨g, hg, rfl⟩ := List.mem_map.mp hf
    exact (h g hg).distinct
  floats := by
    refine PyValue.floatsFields_iff.mpr fun f hf ↦ ?_
    obtain ⟨g, hg, rfl⟩ := List.mem_map.mp hf
    exact (h g hg).floats

/-- The arguments are values that the interpreter can hold. -/
structure Submission.Proper (x : Submission) : Prop where
  payload : x.payload.Proper
  sourceSequence : x.sourceSequence.Proper

variable [Ed25519]

/-! ## One event -/

/-- The submission passes the checks of `append` on its arguments. -/
structure Admits (c : Chain) (x : Submission) (a : Admitted) : Prop where
  eventType : x.eventType = .str a.eventType
  eventType_ne : a.eventType ≠ []
  eventType_le : a.eventType.length ≤ 128
  payload : x.payload = .dict a.payload
  sourceId : x.sourceId = .str a.sourceId
  sourceId_ne : a.sourceId ≠ []
  expected : a.expected = c.next a.sourceId
  sourceSequence : a.sourceSequence =
    if x.sourceSequence.isNone = true then .int a.expected else x.sourceSequence
  isExpected : a.sourceSequence.isInt a.expected = true

omit [Platform] [FloatReader] [Ed25519] in
theorem checkEvent_eq_ok {c : Chain} {x : Submission} {a : Admitted} :
    checkEvent c x = .ok a ↔ Admits c x a := by
  constructor
  · intro h
    unfold checkEvent at h
    split at h
    case h_2 => cases h
    case h_1 eventType heventType =>
    split at h
    case isTrue => cases h
    case isFalse hlength =>
    split at h
    case h_2 => cases h
    case h_1 payload sourceId hpayload hsourceId =>
    split at h
    case isTrue => cases h
    case isFalse hne =>
    dsimp only at h
    generalize hsequence : (if x.sourceSequence.isNone = true then PyValue.int (c.next sourceId)
      else x.sourceSequence) = sequence at h
    split at h
    case isTrue => cases h
    case isFalse hexpected =>
    cases h
    rw [not_or, not_lt] at hlength
    exact ⟨heventType, hlength.1, hlength.2, hpayload, hsourceId, hne, rfl, hsequence.symm,
      Bool.not_eq_false _ ▸ hexpected⟩
  · rintro ⟨heventType, hne, hle, hpayload, hsourceId, hsource, hexpected, hsequence, hint⟩
    obtain ⟨eventType, payload, sourceId, sourceSequence, expected⟩ := a
    dsimp only at *
    subst hexpected hsequence
    rw [checkEvent, heventType]
    dsimp only
    rw [if_neg (by rw [not_or, not_lt]; exact ⟨hne, hle⟩), hpayload, hsourceId]
    dsimp only
    rw [if_neg hsource, hint, if_neg Bool.noConfusion]

variable {cfg : Config} {r : ExternalRecorder} {x : Submission} {a : Admitted} {t : Reading}
  {e : Entry}

/-- The event is ready, on a file that is as the recorder left it. -/
structure Prepared (cfg : Config) (r : ExternalRecorder) (x : Submission) (t : Reading)
    (e : Entry) :
    Prop where
  admits : Admits r.chain x e.admitted
  digest : (PyValue.ofNamed (unsignedEvent r.chain e.admitted t)).digest = .ok e.digest
  event : e.event = signedEvent r.chain e.admitted t e.digest
  octets : e.event.canonicalBytes = .ok e.octets
  fits : e.octets.length + 1 ≤ cfg.maxEventBytes

theorem prepare_eq_ok (h : scan cfg.maxEventBytes r.file = .ok r.chain) :
    prepare cfg r x t = .ok e ↔ Prepared cfg r x t e := by
  rw [prepare, h]
  constructor
  · intro h
    obtain ⟨-, h⟩ := raiseIf_bind_eq_ok.mp h
    obtain ⟨a, ha, h⟩ := bind_eq_ok.mp h
    obtain ⟨digest, hdigest, h⟩ := bind_eq_ok.mp h
    obtain ⟨octets, hoctets, h⟩ := bind_eq_ok.mp h
    obtain ⟨hfits, h⟩ := raiseIf_bind_eq_ok.mp h
    cases h
    exact ⟨checkEvent_eq_ok.mp ha, hdigest, rfl, hoctets, not_lt.mp hfits⟩
  · rintro ⟨hadmits, hdigest, hevent, hoctets, hfits⟩
    obtain ⟨admitted, event, digest, octets⟩ := e
    dsimp only at *
    subst hevent
    refine raiseIf_bind_eq_ok.mpr ⟨by rintro (h | h) <;> exact h rfl, ?_⟩
    refine bind_eq_ok.mpr ⟨_, checkEvent_eq_ok.mpr hadmits, bind_eq_ok.mpr ⟨_, hdigest, ?_⟩⟩
    exact bind_eq_ok.mpr ⟨_, hoctets, raiseIf_bind_eq_ok.mpr ⟨not_lt.mpr hfits, rfl⟩⟩

/-- The items of the event. -/
def eventItems (c : Chain) (a : Admitted) (t : Reading) (digest : String) :
    List (String × PyValue) :=
  unsignedEvent c a t ++ [("event_hash", .str (.ofString digest))]

omit [Ed25519] [Platform] in
theorem nodup_eventItems (c : Chain) (a : Admitted) (t : Reading) (digest : String) :
    ((eventItems c a t digest).map Prod.fst).Nodup := by
  have hkeys : (eventItems c a t digest).map Prod.fst = ["sequence", "timestamp", "event_type",
      "payload", "source_id", "source_sequence", "previous_hash", "event_hash"] := rfl
  rw [hkeys]
  decide

omit [Platform] [Ed25519] in
/-- An item of the event, as it is read back. -/
theorem item_eventItems {c : Chain} {d key : String} {v : PyValue}
    (h : (eventItems c a t d).lookup key = some v) :
    item (sortItems (listedFields ((eventItems c a t d).map fun f ↦
      (PyKey.str (.ofString f.1), f.2)))) key = v.listed := by
  have hat := at?_listed_named (nodup_eventItems c a t d) h
  rw [PyValue.at?] at hat
  rw [item, hat, Option.getD_some]

omit [Platform] [FloatReader] [Ed25519] in
theorem listed_of_isInt {v : PyValue} {n : ℤ} (h : v.isInt n = true) : v.listed = v := by
  cases v with
  | int | bool | float => rfl
  | _ => cases h

omit [Platform] [FloatReader] [Ed25519] in
theorem intOf?_unique {v : PyValue} {m n : ℤ} (hm : intOf? v = some m) (hn : v.isInt n = true) :
    m = n := by
  cases v with
  | int k =>
    cases hm
    exact of_decide_eq_true hn
  | bool b =>
    cases hm
    exact of_decide_eq_true hn
  | _ => cases hm

omit [Ed25519] in
/-- The scan of the event that was made for a chain, as it is read back. -/
theorem scanEvent_eventItems {digest : String} {items : List (PyKey × PyValue)}
    (hitems : PyValue.ofNamed (eventItems r.chain a t digest) = .dict items)
    (ha : Admits r.chain x a)
    (hdigest : (PyValue.ofNamed (unsignedEvent r.chain a t)).digest = .ok digest) :
    scanEvent r.chain (sortItems (listedFields items)) =
      match intOf? a.sourceSequence with
      | some _ => .ok ⟨digest, r.chain.count + 1, r.chain.sources.put a.sourceId a.expected⟩
      | none => atLine "invalid source sequence" (r.chain.count + 1) := by
  cases hitems
  have hexact : hasExactKeys (sortItems (listedFields ((eventItems r.chain a t digest).map fun f ↦
      (PyKey.str (.ofString f.1), f.2)))) eventFieldNames = true := by
    rw [hasExactKeys_listed, PyValue.hasExactKeys_named]
    rfl
  have hitem : ∀ {k : String} {v : PyValue}, (eventItems r.chain a t digest).lookup k = some v →
      item (sortItems (listedFields ((eventItems r.chain a t digest).map fun f ↦
        (PyKey.str (.ofString f.1), f.2)))) k = v.listed := item_eventItems
  have hseq := hitem (k := "sequence") rfl
  have hsource := hitem (k := "source_id") rfl
  have hnumber := hitem (k := "source_sequence") rfl
  have hprevious := hitem (k := "previous_hash") rfl
  have hhash := hitem (k := "event_hash") rfl
  have hwithout : (PyValue.dict (without (sortItems (listedFields
      ((eventItems r.chain a t digest).map fun f ↦ (PyKey.str (.ofString f.1), f.2))))
      "event_hash")).digest = .ok digest := by
    have hnot : PyKey.str (.ofString "event_hash") ∉
        ((unsignedEvent r.chain a t).map fun f ↦ (PyKey.str (.ofString f.1), f.2)).map
          Prod.fst := by
      have hkeys : ((unsignedEvent r.chain a t).map fun f ↦
          (PyKey.str (.ofString f.1), f.2)).map Prod.fst = ["sequence", "timestamp", "event_type",
          "payload", "source_id", "source_sequence", "previous_hash"].map
          fun name ↦ PyKey.str (.ofString name) := rfl
      rw [hkeys]
      decide
    rw [eventItems, List.map_append, List.map_cons, List.map_nil, without_sortItems hnot, ← hdigest,
      PyValue.ofNamed]
    exact digest_listed (.dict _)
  rw [listed_of_isInt ha.isExpected] at hnumber
  simp only [PyValue.listed] at hseq hsource hprevious hhash
  -- from here on only the items that the scan reads matter
  generalize sortItems (listedFields ((eventItems r.chain a t digest).map fun f ↦
    (PyKey.str (.ofString f.1), f.2))) =
    items at hexact hseq hsource hnumber hprevious hhash hwithout ⊢
  have hcount : (PyValue.int (r.chain.count + 1)).isInt ((r.chain.count + 1 : ℕ) : ℤ) = true :=
    decide_eq_true rfl
  have hreads : (PyValue.str (.ofString digest)).isText (.ofString digest) = true :=
    PyValue.isText_iff.mpr rfl
  have hlinked : (PyValue.str (.ofString r.chain.tip)).isText (.ofString r.chain.tip) = true :=
    PyValue.isText_iff.mpr rfl
  rw [scanEvent, hexact, hseq, hsource, hnumber, hprevious, hhash, hwithout]
  dsimp only
  rw [hcount, if_neg Bool.noConfusion, if_neg Bool.noConfusion]
  cases hint : intOf? a.sourceSequence with
  | none => rfl
  | some n =>
    have hn : n = r.chain.next a.sourceId := by
      rw [← ha.expected]
      exact intOf?_unique hint ha.isExpected
    dsimp only
    rw [if_neg ha.sourceId_ne, if_neg (not_not.mpr hn), hlinked, if_neg Bool.noConfusion, hreads,
      if_neg Bool.noConfusion, hn, ha.expected]

omit [Platform] [FloatReader] [Ed25519] in
theorem lt_of_mem_padding (spaces : ℕ) :
    ∀ c ∈ List.replicate spaces ' ' ++ ['\n'], c.toNat < 0x80 := by
  intro c hc
  rcases List.mem_append.mp hc with hc | hc
  · rw [List.eq_of_mem_replicate hc]
    decide
  · rw [List.mem_singleton.mp hc]
    decide

omit [FloatReader] [Ed25519] in
theorem exists_fields_of_canonicalValue {items : List (PyKey × PyValue)} {d : ℕ} {c : Json}
    (h : (PyValue.dict items).canonicalValue d = .ok c) : ∃ fields, c = .obj fields := by
  rw [PyValue.canonicalValue] at h
  split at h
  case isTrue => cases h
  case isFalse =>
  split at h
  case isTrue => cases h
  case isFalse =>
  split at h
  case isTrue => cases h
  case isFalse =>
  obtain ⟨fields, -, rfl⟩ := map_eq_ok.mp h
  exact ⟨fields, rfl⟩

omit [Platform] [FloatReader] [Ed25519] in
/-- A line that has an object on it is not blank. -/
theorem all_isPySpace_dumps (fields : List (String × Json)) (rest : List Char) :
    (dumps (.obj fields) ++ rest).all isPySpace = false := by
  cases fields with
  | nil => rfl
  | cons f fields =>
    rw [dumps]
    rfl

/-- The line of an event. -/
def lineOf (cfg : Config) (e : Entry) (c : Json) : List Char :=
  paddedLine c (cfg.maxEventBytes - e.octets.length - 1)

/-- The event is a value that the interpreter can hold. -/
theorem Prepared.proper (hx : x.Proper) (h : Prepared cfg r x t e) : e.event.Proper := by
  have hpayload : (PyValue.dict e.admitted.payload).Proper := h.admits.payload ▸ hx.payload
  have hsequence : e.admitted.sourceSequence.Proper := by
    rw [h.admits.sourceSequence]
    split
    · exact ⟨trivial, trivial⟩
    · exact hx.sourceSequence
  rw [h.event]
  refine proper_ofNamed (nodup_eventItems r.chain e.admitted t e.digest) ?_
  simp only [unsignedEvent, List.cons_append, List.nil_append, List.forall_mem_cons]
  refine ⟨⟨trivial, trivial⟩, ⟨trivial, fun _ ↦ t.genuine⟩, ⟨trivial, trivial⟩, hpayload,
    ⟨trivial, trivial⟩, hsequence, ⟨trivial, trivial⟩, ⟨trivial, trivial⟩, fun _ h ↦ nomatch h⟩

/-- What is written is a line, which is read back as the event. -/
theorem Prepared.exists_line (hx : x.Proper) (h : Prepared cfg r x t e) :
    ∃ line, IsLine line ∧ encodeUtf8 line = e.octets ++
        (List.replicate (cfg.maxEventBytes - e.octets.length - 1) 0x20 ++ [0x0a]) ∧
      line.all isPySpace = false ∧ loads defaultHooks line = .ok e.event.listed := by
  have hproper := h.proper hx
  have hoctets := h.octets
  rw [PyValue.canonicalBytes, map_eq_ok] at hoctets
  obtain ⟨c, hc, hspell⟩ := hoctets
  refine ⟨lineOf cfg e c, hproper.isLine_paddedLine hc, ?_, ?_, hproper.loads_paddedLine hc⟩
  · rw [lineOf, paddedLine, encodeUtf8_append, ← hproper.spell_eq hc, hspell,
      encodeUtf8_of_lt (lt_of_mem_padding _), List.map_append, List.map_replicate]
    rfl
  · rw [h.event, signedEvent] at hc
    obtain ⟨fields, rfl⟩ := exists_fields_of_canonicalValue hc
    rw [lineOf, paddedLine]
    exact all_isPySpace_dumps fields _

/-! ## The file -/

/-- The file holds the lines of the events of a log, and the recorder remembers what a scan
finds. -/
structure Intact (cfg : Config) (r : ExternalRecorder) (log : List PyValue) : Prop where
  exists_lines : ∃ lines :
    List (List Char), (∀ line ∈ lines, IsLine line ∧ line.all isPySpace = false) ∧
    r.file = encodeUtf8 lines.flatten ∧
    lines.foldlM (scanLine cfg.maxEventBytes) .start = .ok r.chain ∧
    lines.mapM (loads defaultHooks) = .ok log

variable {log : List PyValue}

theorem Intact.scan_eq (h : Intact cfg r log) : scan cfg.maxEventBytes r.file = .ok r.chain := by
  obtain ⟨lines, hlines, hfile, hscan, -⟩ := h.exists_lines
  rw [scan, hfile, linesOf_flatten fun line hline ↦ (hlines line hline).1]
  exact hscan

theorem Intact.events_eq (h : Intact cfg r log) : events r.file = .ok log := by
  obtain ⟨lines, hlines, hfile, -, hlog⟩ := h.exists_lines
  have hfilter : lines.filter (fun line ↦ line.all isPySpace = false) = lines :=
    List.filter_eq_self.mpr fun line hline ↦ decide_eq_true (hlines line hline).2
  rw [events, hfile, linesOf_flatten fun line hline ↦ (hlines line hline).1]
  dsimp only
  rw [hfilter]
  exact hlog

theorem Intact.recover_eq (h : Intact cfg r log) : recover cfg r.file = .ok r := by
  rw [recover, h.scan_eq]

theorem intact_fresh : Intact cfg .fresh [] :=
  ⟨⟨[], fun _ h ↦ absurd h List.not_mem_nil, rfl, rfl, rfl⟩⟩

/-- The file after an event is written, and what a scan makes of the last line. -/
theorem Intact.exists_written (h : Intact cfg r log) (hx : x.Proper) (hp : Prepared cfg r x t e) :
    ∃ lines line, (∀ l ∈ lines ++ [line], IsLine l ∧ l.all isPySpace = false) ∧
      (r.written cfg e).file = encodeUtf8 (lines ++ [line]).flatten ∧
      lines.foldlM (scanLine cfg.maxEventBytes) .start = .ok r.chain ∧
      (lines ++ [line]).mapM (loads defaultHooks) = .ok (log ++ [e.event.listed]) ∧
      scanLine cfg.maxEventBytes r.chain line =
        match intOf? e.admitted.sourceSequence with
        | some _ => .ok (r.written cfg e).chain
        | none => atLine "invalid source sequence" (r.chain.count + 1) := by
  obtain ⟨lines, hlines, hfile, hscan, hlog⟩ := h.exists_lines
  obtain ⟨line, hline, hencode, hblank, hloads⟩ := hp.exists_line hx
  refine ⟨lines, line, ?_, ?_, hscan, ?_, ?_⟩
  · intro l hl
    rcases List.mem_append.mp hl with hl | hl
    · exact hlines l hl
    · rw [List.mem_singleton.mp hl]
      exact ⟨hline, hblank⟩
  · rw [List.flatten_append, encodeUtf8_append, ← hfile, List.flatten_singleton, hencode,
      ExternalRecorder.written]
  · rw [List.mapM_append, hlog, List.mapM_cons, hloads]
    rfl
  · have hlength : (encodeUtf8 line).length = cfg.maxEventBytes := by
      have hfits := hp.fits
      rw [hencode, List.length_append, List.length_append, List.length_replicate,
        List.length_singleton]
      omega
    rw [hp.event, signedEvent, PyValue.ofNamed, PyValue.listed] at hloads
    rw [scanLine, if_neg (not_not.mpr hlength), hblank, if_neg Bool.noConfusion, hloads]
    exact scanEvent_eventItems rfl hp.admits hp.digest

/-- What `append` writes keeps the file intact, and the log has the event at its end. -/
theorem Intact.written (h : Intact cfg r log) (hx : x.Proper) (hp : Prepared cfg r x t e)
    (hint : (intOf? e.admitted.sourceSequence).isSome = true) :
    Intact cfg (r.written cfg e) (log ++ [e.event.listed]) := by
  obtain ⟨lines, line, hlines, hfile, hscan, hlog, hline⟩ := h.exists_written hx hp
  obtain ⟨n, hn⟩ := Option.isSome_iff_exists.mp hint
  refine ⟨lines ++ [line], hlines, hfile, ?_, hlog⟩
  rw [List.foldlM_append, hscan]
  refine bind_eq_ok.mpr ⟨_, rfl, ?_⟩
  rw [List.foldlM_cons, hline, hn]
  rfl

/-- An event whose number is not an integer leaves a file that is not valid. -/
theorem Intact.scan_written_of_none (h : Intact cfg r log) (hx : x.Proper)
    (hp : Prepared cfg r x t e) (hnone : intOf? e.admitted.sourceSequence = none) :
    scan cfg.maxEventBytes (r.written cfg e).file =
      atLine "invalid source sequence" (r.chain.count + 1) := by
  obtain ⟨lines, line, hlines, hfile, hscan, -, hline⟩ := h.exists_written hx hp
  rw [scan, hfile, linesOf_flatten fun l hl ↦ (hlines l hl).1]
  dsimp only
  rw [List.foldlM_append, hscan]
  change List.foldlM (scanLine cfg.maxEventBytes) r.chain [line] = _
  rw [List.foldlM_cons, hline, hnone]
  rfl

/-! ## The numbers of the events -/

/-- `event[key]`. -/
def field (event : PyValue) (key : String) : PyValue :=
  match event with
  | .dict items => item items key
  | _ => .none

/-- The event as it is read back, with its items. -/
theorem Prepared.listed_eq (h : Prepared cfg r x t e) :
    e.event.listed = .dict (sortItems (listedFields
      ((eventItems r.chain e.admitted t e.digest).map fun f ↦
      (PyKey.str (.ofString f.1), f.2)))) := by
  rw [h.event, signedEvent, PyValue.ofNamed, PyValue.listed, eventItems]

/-- A field of an event that is read back. -/
theorem Prepared.field_listed (h : Prepared cfg r x t e) {key : String} {v : PyValue}
    (hv : (eventItems r.chain e.admitted t e.digest).lookup key = some v) :
    field e.event.listed key = v.listed := by
  rw [h.listed_eq, field]
  exact item_eventItems hv

/-- The numbers of the events of a source. -/
def numbersOf (source : PyStr) (log : List PyValue) : List (Option ℤ) :=
  (log.filter fun event ↦ (field event "source_id").isText source).map fun event ↦
    intOf? (field event "source_sequence")

/-- The events of the log are numbered, and so are those of each source. -/
structure Follows (c : Chain) (log : List PyValue) : Prop where
  count : c.count = log.length
  sequence : ∀ (i : ℕ) event, log[i]? = some event → field event "sequence" = .int (i + 1)
  numbers : ∀ source, ∃ k : ℕ, c.next source = k + 1 ∧
    numbersOf source log = (List.range k).map fun i : ℕ ↦ some ((i : ℤ) + 1)

omit [Platform] [FloatReader] [Ed25519] in
theorem follows_start : Follows .start [] :=
  ⟨rfl, fun _ _ h ↦ (nomatch h), fun _ ↦ ⟨0, rfl, rfl⟩⟩

omit [Platform] [FloatReader] [Ed25519] in
theorem intOf?_of_isInt {v : PyValue} {n : ℤ} (h : (intOf? v).isSome = true)
    (hn : v.isInt n = true) : intOf? v = some n := by
  obtain ⟨m, hm⟩ := Option.isSome_iff_exists.mp h
  rw [hm, intOf?_unique hm hn]

theorem Follows.written (h : Follows r.chain log) (hp : Prepared cfg r x t e)
    (hint : (intOf? e.admitted.sourceSequence).isSome = true) :
    Follows (r.written cfg e).chain (log ++ [e.event.listed]) where
  count := by
    rw [ExternalRecorder.written, List.length_append, ← h.count]
    rfl
  sequence := by
    intro i event hi
    rw [List.getElem?_append] at hi
    split at hi
    case isTrue => exact h.sequence i event hi
    case isFalse hle =>
      have hzero : i - log.length = 0 := by
        by_contra hne
        rw [List.getElem?_eq_none (by rw [List.length_singleton]; omega)] at hi
        cases hi
      rw [hzero] at hi
      cases hi
      have hindex : i = r.chain.count := by
        rw [h.count]
        omega
      rw [hindex]
      exact hp.field_listed (v := .int (r.chain.count + 1)) rfl
  numbers := by
    intro source
    obtain ⟨k, hk, hnumbers⟩ := h.numbers source
    have hsource : field e.event.listed "source_id" = .str e.admitted.sourceId :=
      hp.field_listed (v := .str e.admitted.sourceId) rfl
    have hsequence :
        intOf? (field e.event.listed "source_sequence") = some e.admitted.expected := by
      rw [hp.field_listed (v := e.admitted.sourceSequence) rfl,
        listed_of_isInt hp.admits.isExpected]
      exact intOf?_of_isInt hint hp.admits.isExpected
    -- only the number of the source of the event goes up
    have hnext : (r.written cfg e).chain.next source =
        if source = e.admitted.sourceId then e.admitted.expected + 1 else r.chain.next source := by
      rw [ExternalRecorder.written, Chain.next, Table.get?_put, Chain.next]
      split <;> rfl
    rw [hnext, numbersOf, List.filter_append, List.map_append, ← numbersOf, hnumbers,
      List.filter_singleton, hsource]
    by_cases heq : source = e.admitted.sourceId
    · refine ⟨k + 1, ?_, ?_⟩
      · rw [if_pos heq, hp.admits.expected, ← heq, hk]
        rfl
      · rw [PyValue.isText_iff.mpr (congrArg PyValue.str heq.symm), List.range_succ,
        List.map_append]
        congr 1
        simp only [cond_true, List.map_cons, List.map_nil, hsequence]
        rw [hp.admits.expected, ← heq, hk]
    · refine ⟨k, ?_, ?_⟩
      · rw [if_neg heq, hk]
      · rw [Bool.eq_false_iff.mpr fun h ↦ heq (PyValue.str.inj (PyValue.isText_iff.mp h)).symm]
        simp

/-! ## Runs -/

/-- A call of `append`, with what the clock says during it. -/
structure Call where
  submission : Submission
  timestamp : Reading
  issuedAt : Reading
  proper : submission.Proper

inductive Operation
  | append (call : Call)
  /-- The process ends, and a recorder is made on the same file. -/
  | restart

/-- The recorder, and the receipts that were returned. -/
structure World where
  recorder : ExternalRecorder
  receipts : List Receipt

def World.step (cfg : Config) (w : World) : Operation → World
  | .append call =>
    match append cfg w.recorder call.submission call.timestamp call.issuedAt with
    | (.ok receipt, r) => ⟨r, w.receipts ++ [receipt]⟩
    | (.error _, r) => ⟨r, w.receipts⟩
  | .restart =>
    match recover cfg w.recorder.file with
    | .ok r => ⟨r, w.receipts⟩
    | .error _ => w

/-- The world after operations on a file that was not there. -/
def World.run (cfg : Config) (ops : List Operation) : World :=
    ops.foldl (World.step cfg) ⟨.fresh, []⟩

theorem World.run_concat {ops : List Operation} {op : Operation} :
    World.run cfg (ops ++ [op]) = (World.run cfg ops).step cfg op := List.foldl_concat ..

theorem World.recorder_run_append {call : Call}
    (h : prepare cfg .fresh call.submission call.timestamp = .ok e) :
    (World.run cfg [.append call]).recorder = ExternalRecorder.fresh.written cfg e := by
  rw [World.run, List.foldl_cons, List.foldl_nil, World.step, append, h]
  dsimp only
  cases (receiptPayload cfg .fresh e call.issuedAt).canonicalBytes <;> rfl

/-- Where the `source_sequence` of a call is equal to the number that is expected, it is an
`int`. -/
def GivesInt (w : World) : Operation → Prop
  | .append call => ∀ source, call.submission.sourceId = .str source →
      call.submission.sourceSequence.isInt (w.recorder.chain.next source) = true →
      (intOf? call.submission.sourceSequence).isSome = true
  | .restart => True

/-- The receipt is about the event of the log with its number. -/
def Certifies (log : List PyValue) (receipt : Receipt) : Prop :=
  ∃ (i : ℕ) (event : PyValue), log[i]? = some event ∧
    field receipt.payload "sequence" = .int (i + 1) ∧
    field receipt.payload "source_id" = field event "source_id" ∧
    field receipt.payload "source_sequence" = field event "source_sequence" ∧
    field receipt.payload "event_hash" = field event "event_hash"

/-- The file holds the log, the recorder is what a restart makes of it, and the receipts are about
it. -/
structure Kept (cfg : Config) (w : World) (log : List PyValue) : Prop where
  intact : Intact cfg w.recorder log
  follows : Follows w.recorder.chain log
  receipts : ∀ receipt ∈ w.receipts, Certifies log receipt

omit [Platform] [FloatReader] [Ed25519] in
theorem Certifies.append {receipt : Receipt} (h : Certifies log receipt) (event : PyValue) :
    Certifies (log ++ [event]) receipt := by
  obtain ⟨i, found, hfound, hfields⟩ := h
  refine ⟨i, found, ?_, hfields⟩
  rw [List.getElem?_append_left (List.getElem?_eq_some_iff.mp hfound).1]
  exact hfound

/-- The receipt of an event. -/
theorem Prepared.certifies (hp : Prepared cfg r x t e) (hcount : r.chain.count = log.length)
    {issuedAt : Reading} {receipt : Receipt}
    (h : receipt.payload = receiptPayload cfg r e issuedAt) :
    Certifies (log ++ [e.event.listed]) receipt := by
  refine ⟨log.length, e.event.listed, by simp, ?_, ?_, ?_, ?_⟩
  all_goals rw [h, receiptPayload, PyValue.ofNamed, field, PyValue.item_named]
  · rw [← hcount]
    rfl
  · exact (hp.field_listed (v := .str e.admitted.sourceId) rfl).symm
  · rw [hp.field_listed (v := e.admitted.sourceSequence) rfl,
      listed_of_isInt hp.admits.isExpected]
    rfl
  · exact (hp.field_listed (v := .str (.ofString e.digest)) rfl).symm

/-- What is written is an integer when what is given is. -/
theorem GivesInt.isSome_intOf? {call : Call} {w : World} (h : GivesInt w (.append call))
    (hp : Prepared cfg w.recorder call.submission t e) :
    (intOf? e.admitted.sourceSequence).isSome = true := by
  have hexpected := hp.admits.isExpected
  rw [hp.admits.sourceSequence] at hexpected ⊢
  split
  case isTrue => rfl
  case isFalse hnone =>
    rw [if_neg hnone, hp.admits.expected] at hexpected
    exact h _ hp.admits.sourceId hexpected

theorem Kept.step {w : World} (h : Kept cfg w log) {op : Operation} (hint : GivesInt w op) :
    ∃ log', Kept cfg (w.step cfg op) log' := by
  cases op with
  | restart =>
    refine ⟨log, ?_⟩
    rw [World.step, h.intact.recover_eq]
    exact h
  | append call =>
    rw [World.step, append]
    cases hprepare : prepare cfg w.recorder call.submission call.timestamp with
    | error e => exact ⟨log, h⟩
    | ok e =>
      have hp := (prepare_eq_ok h.intact.scan_eq).mp hprepare
      have hsequence := hint.isSome_intOf? hp
      have hintact := h.intact.written call.proper hp hsequence
      have hfollows := h.follows.written hp hsequence
      have hold : ∀ receipt ∈ w.receipts, Certifies (log ++ [e.event.listed]) receipt :=
        fun receipt hreceipt ↦ (h.receipts receipt hreceipt).append _
      refine ⟨log ++ [e.event.listed], ?_⟩
      dsimp only
      cases hdata : (receiptPayload cfg w.recorder e call.issuedAt).canonicalBytes with
      | error e' => exact ⟨hintact, hfollows, hold⟩
      | ok data =>
        refine ⟨hintact, hfollows, fun receipt hreceipt ↦ ?_⟩
        rcases List.mem_append.mp hreceipt with hreceipt | hreceipt
        · exact hold receipt hreceipt
        · rw [List.mem_singleton.mp hreceipt]
          exact hp.certifies h.follows.count rfl

theorem exists_kept {ops : List Operation}
    (h : Each (fun before op ↦ GivesInt (World.run cfg before) op) ops) :
    ∃ log, Kept cfg (World.run cfg ops) log := by
  refine Each.invariant (P := fun ops ↦ ∃ log, Kept cfg (World.run cfg ops) log) h
    ⟨[], intact_fresh, follows_start, fun _ h ↦ absurd h List.not_mem_nil⟩ ?_
  rintro before op ⟨log, hkept⟩ hint
  rw [World.run_concat]
  exact hkept.step hint

/-- The chain of the recorder: the scan accepts the file and finds what the recorder remembers, a
restart brings it back, the events are numbered and so are those of each source, and each receipt is
about the event with its number. -/
structure Chained (cfg : Config) (w : World) : Prop where
  scanned : scan cfg.maxEventBytes w.recorder.file = .ok w.recorder.chain
  recovered : recover cfg w.recorder.file = .ok w.recorder
  numbered : ∃ log, events w.recorder.file = .ok log ∧ Follows w.recorder.chain log ∧
    ∀ receipt ∈ w.receipts, Certifies log receipt

/-- The chain holds after any calls and restarts in which a `source_sequence` that is equal to the
number expected is an `int`. -/
theorem recorder_kept (cfg : Config) (ops : List Operation)
    (h : Each (fun before op ↦ GivesInt (World.run cfg before) op) ops) :
    Chained cfg (World.run cfg ops) := by
  obtain ⟨log, hkept⟩ := exists_kept h
  exact ⟨hkept.intact.scan_eq, hkept.intact.recover_eq, log, hkept.intact.events_eq, hkept.follows,
    hkept.receipts⟩

/-- A first event whose number is neither missing nor an integer ends the chain. -/
theorem not_chained_of_prepare {call : Call}
    (h : prepare cfg .fresh call.submission call.timestamp = .ok e)
    (hgiven : call.submission.sourceSequence.isNone = false)
    (hnumber : intOf? call.submission.sourceSequence = none) :
    ¬Chained cfg (World.run cfg [.append call]) := by
  intro hchained
  have hp := (prepare_eq_ok intact_fresh.scan_eq).mp h
  have hnone : intOf? e.admitted.sourceSequence = none := by
    rw [hp.admits.sourceSequence, hgiven, if_neg Bool.false_ne_true, hnumber]
  have hscan := intact_fresh.scan_written_of_none call.proper hp hnone
  have hscanned := hchained.scanned
  rw [World.recorder_run_append h, hscan] at hscanned
  cases hscanned

end Values

/-! ## A float for a number -/

namespace Sample

attribute [local instance] pythonPlatform Broker.Sample.keyedHash

def one : FloatValue := ⟨true, false, some 1, "1.0", "1.0"⟩

/-- The only float of the sample is one. -/
@[reducible] def onlyOne : FloatReader := ⟨fun _ ↦ one⟩

attribute [local instance] onlyOne

theorem genuine_one : one.Genuine :=
  ⟨List.all_eq_true.mp (by decide : "1.0".toList.all isNumberChar = true),
    ⟨['1'], ['.', '0'], by decide⟩, rfl⟩

def recorderConfig : Config := ⟨512, ([0] : List ℕ), by decide, by decide⟩

/-- The clock says one. -/
def clock : Reading := ⟨one, rfl, rfl, genuine_one⟩

/-- A call without a number, and one with a float for it. -/
def plainCall : Call where
  submission := { eventType := .str (.ofString "execution.dispatch"), payload := .dict [] }
  timestamp := clock
  issuedAt := clock
  proper := ⟨⟨⟨List.nodup_nil, trivial⟩, trivial⟩, trivial, trivial⟩

def floatCall : Call where
  submission :=
    { eventType := .str (.ofString "execution.dispatch")
      payload := .dict []
      sourceSequence := .float one }
  timestamp := clock
  issuedAt := clock
  proper := ⟨⟨⟨List.nodup_nil, trivial⟩, trivial⟩, trivial, fun _ ↦ genuine_one⟩

theorem isOk_plainCall :
    (prepare recorderConfig .fresh plainCall.submission plainCall.timestamp).isOk = true := by
  decide +kernel

theorem isOk_floatCall :
    (prepare recorderConfig .fresh floatCall.submission floatCall.timestamp).isOk = true := by
  decide +kernel

end Sample

/-- An event is recorded, and the recorder is restarted. -/
theorem recorder_kept_restart :
    let _ := pythonPlatform
    let _ := Broker.Sample.keyedHash
    let _ := Sample.onlyOne
    (World.run Sample.recorderConfig [.append Sample.plainCall]).recorder.chain.count = 1 ∧
      Chained Sample.recorderConfig
        (World.run Sample.recorderConfig [.append Sample.plainCall, .restart]) := by
  intro _ _ _
  obtain ⟨e, hprepare⟩ := isOk_iff.mp Sample.isOk_plainCall
  refine ⟨?_, recorder_kept _ _ ?_⟩
  · rw [World.recorder_run_append hprepare]
    rfl
  · change Each _ ([] ++ [Operation.append _] ++ [Operation.restart])
    rw [each_concat, each_concat]
    refine ⟨⟨each_nil, fun source _ hint ↦ ?_⟩, trivial⟩
    cases hint

/-- A first event with the number `1.0` is written, and the file is not valid from there on. -/
theorem not_chained_float :
    let _ := pythonPlatform
    let _ := Broker.Sample.keyedHash
    let _ := Sample.onlyOne
    ¬Chained Sample.recorderConfig
      (World.run Sample.recorderConfig [.append Sample.floatCall]) := by
  intro _ _ _
  obtain ⟨e, hprepare⟩ := isOk_iff.mp Sample.isOk_floatCall
  exact not_chained_of_prepare hprepare rfl rfl

end EventHorizon.Recorder
