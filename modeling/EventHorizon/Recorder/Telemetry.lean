import EventHorizon.Broker.OneUse
import EventHorizon.Canonical.Encodable
import EventHorizon.Recorder.Log

/-!
# What follows an append

When the event is written and its receipt is signed, `append` of `recorder.py` emits metrics: to the
Prometheus metrics and the OpenTelemetry instruments, if there are any, and to the callback. All of
this happens after the write and none of it is guarded, so an instrument that raises makes `append`
raise although the event is in the chain. Nothing else after the write can raise: the receipt is
made of parts of the event that has just been encoded (`exists_receipt`). `all_or_nothing_iff` says
when an append is all or nothing.
-/

namespace EventHorizon.Recorder

open Broker (Ed25519 capabilityKeyId spellSignature)
open Protocol (FloatReader)

/-! ## Metrics -/

/-- The value of a measurement. The histogram of sizes is given the function `len`. -/
inductive Amount
  | count (n : ℕ)
  | duration (seconds : FloatValue)
  | builtinLen

/-- A call on an instrument. -/
structure Measurement where
  instrument : String
  amount : Amount
  attributes : List (String × PyStr)

/-- What the event of an append tells the instruments and the callback. -/
structure Emission where
  eventType : PyStr
  sourceId : PyStr
  duration : FloatValue
  size : ℕ
  /-- `self._count`. -/
  total : ℕ

/-- The instruments and the callback that the recorder was given: whether they raise. -/
structure Telemetry where
  /-- `_prometheus_metrics`, unless it is empty. -/
  prometheus : Option (Measurement → Option Exn) := none
  /-- `_otel_instruments`, unless it is empty. -/
  otel : Option (Measurement → Option Exn) := none
  /-- `_metrics_callback`. -/
  callback : Option (String → Emission → Option Exn) := none

namespace Emission

/-- The calls on the Prometheus metrics. -/
def prometheusCalls (m : Emission) : List Measurement := [
  ⟨"events_appended", .count 1, [("event_type", m.eventType), ("source_id", m.sourceId)]⟩,
  ⟨"append_duration", .duration m.duration, [("event_type", m.eventType)]⟩,
  ⟨"event_size", .count m.size, [("event_type", m.eventType)]⟩,
  ⟨"event_count", .count m.total, []⟩]

/-- The calls on the OpenTelemetry instruments. -/
def otelCalls (m : Emission) : List Measurement :=
  let attrs := [("event_type", m.eventType), ("source_id", m.sourceId)]
  [⟨"events_appended", .count 1, attrs⟩, ⟨"append_duration", .duration m.duration, attrs⟩,
    ⟨"event_size", .builtinLen, attrs⟩]

end Emission

/-- `_emit_metrics`: the exception that it raises, if any. -/
def Telemetry.emitMetrics (t : Telemetry) (m : Emission) : Option Exn :=
  (t.prometheus.bind fun f ↦ m.prometheusCalls.findSome? f).or
    (t.otel.bind fun f ↦ m.otelCalls.findSome? f)

/-- The metrics and the callback. -/
def Telemetry.emit (t : Telemetry) (m : Emission) : Option Exn :=
  (t.emitMetrics m).or (t.callback.bind fun f ↦ f "event_appended" m)

section Append

variable [Platform] [FloatReader] [Ed25519]

variable (cfg : Config) (t : Telemetry) (r : ExternalRecorder) (x : Submission)
  (timestamp issuedAt : Reading) (duration : FloatValue)

/-- What is emitted for an event that has been written. -/
def emission (r : ExternalRecorder) (duration : FloatValue) (e : Entry) : Emission :=
  ⟨e.admitted.eventType, e.admitted.sourceId, duration, e.octets.length, r.chain.count + 1⟩

/-- `append`, with the metrics; `duration` is the time that it takes. -/
def appendEmitting : Except Exn Receipt × ExternalRecorder :=
  match prepare cfg r x timestamp with
  | .error e => (.error e, r)
  | .ok e =>
    let payload := receiptPayload cfg r e issuedAt
    (do
      let data ← payload.canonicalBytes
      match t.emit (emission r duration e) with
      | some exc => throw exc
      | none => return ⟨e.event, payload, spellSignature (Ed25519.sign cfg.privateKey data)⟩,
      r.written cfg e)

/-- What is meant to hold of an append: when it raises, the recorder is as before. -/
def AllOrNothing : Prop :=
  ∀ exc, (appendEmitting cfg t r x timestamp issuedAt duration).1 = .error exc →
    (appendEmitting cfg t r x timestamp issuedAt duration).2 = r

/-! ## The receipt -/

variable {cfg r x timestamp} {e : Entry}

/-- The parts of an event that is ready are encoded. -/
theorem prepare_event (h : prepare cfg r x timestamp = .ok e) :
    e.event = signedEvent r.chain e.admitted timestamp e.digest ∧ e.event.Canonicalizes 0 := by
  rw [prepare] at h
  split at h
  · cases h
  · cases h
  · obtain ⟨-, h⟩ := raiseIf_bind_eq_ok.mp h
    obtain ⟨a, -, h⟩ := bind_eq_ok.mp h
    obtain ⟨digest, -, h⟩ := bind_eq_ok.mp h
    obtain ⟨octets, hoctets, h⟩ := bind_eq_ok.mp h
    obtain ⟨-, h⟩ := raiseIf_bind_eq_ok.mp h
    cases h
    exact ⟨rfl, PyValue.canonicalBytes_eq_ok.mp ⟨octets, hoctets⟩⟩

omit [Ed25519] in
theorem canonicalizes_reading (reading : Reading) {d : ℕ} (h : d ≤ maxCanonicalDepth) :
    (PyValue.float reading.value).Canonicalizes d := by
  rw [PyValue.Canonicalizes, PyValue.canonicalValue, if_neg (Nat.not_lt.mpr h), reading.isFinite,
    reading.notNegativeZero]
  exact ⟨_, rfl⟩

/-- The receipt of an event that is ready can be signed. -/
theorem exists_receipt (h : prepare cfg r x timestamp = .ok e) (issuedAt : Reading) :
    ∃ data, (receiptPayload cfg r e issuedAt).canonicalBytes = .ok data := by
  obtain ⟨hevent, hcanonical⟩ := prepare_event h
  rw [hevent, signedEvent, PyValue.ofNamed, PyValue.canonicalizes_dict] at hcanonical
  have hitem : ∀ name v, (name, v) ∈ unsignedEvent r.chain e.admitted timestamp ++
      [("event_hash", .str (.ofString e.digest))] → v.Canonicalizes 1 := fun name v hmem ↦
    (hcanonical.2.2 _ (List.mem_map_of_mem hmem)).2.2
  have hkeyId : (PyValue.str (.ofString cfg.keyId)).Canonicalizes 1 := by
    rw [PyValue.canonicalizes_str, PyStr.isCanonical_ofString]
    exact ⟨by decide, Broker.isCanonicalString_of_isKeyId (Broker.isKeyId_capabilityKeyId _)⟩
  have hreading : (PyValue.float issuedAt.value).Canonicalizes 1 :=
    canonicalizes_reading issuedAt (by decide)
  rw [PyValue.canonicalBytes_eq_ok, receiptPayload, PyValue.canonicalizes_ofNamed]
  · refine ⟨by decide, by simp [maxCanonicalItems], ?_⟩
    simp only [List.forall_mem_cons, List.not_mem_nil, false_imp_iff, implies_true, and_true]
    refine ⟨⟨by decide, hitem "sequence" _ ?_⟩, ⟨by decide, hitem "event_hash" _ ?_⟩,
      ⟨by decide, hitem "source_id" _ ?_⟩, ⟨by decide, hitem "source_sequence" _ ?_⟩,
      ⟨by decide, hreading⟩, ⟨by decide, hkeyId⟩⟩
    all_goals simp [unsignedEvent]
  · simp only [List.forall_mem_cons, List.not_mem_nil, false_imp_iff, implies_true, and_true]
    refine ⟨?_, ?_, ?_, ?_, ?_, ?_⟩
    all_goals exact isCanonicalString_of_isAscii (by decide) (by decide)

/-! ## When an append is all or nothing -/

omit [Platform] [FloatReader] in
theorem written_ne (cfg : Config) (r : ExternalRecorder) (e : Entry) :
    r.written cfg e ≠ r := fun h ↦
  absurd (congrArg (fun r ↦ r.chain.count) h) (Nat.succ_ne_self _)

variable {t issuedAt duration}

/-- An event whose measurements raise is in the chain although `append` raises. -/
theorem not_all_or_nothing {exc : Exn} (h : prepare cfg r x timestamp = .ok e)
    (hemit : t.emit (emission r duration e) = some exc) :
    ¬AllOrNothing cfg t r x timestamp issuedAt duration := by
  obtain ⟨data, hdata⟩ := exists_receipt h issuedAt
  rw [AllOrNothing, appendEmitting, h]
  dsimp only
  rw [hdata, hemit]
  exact fun hall ↦ written_ne cfg r e (hall exc rfl)

/-- **When an append is all or nothing.** It is exactly when no instrument and no callback raises on
the event, if there is one to be written. -/
theorem all_or_nothing_iff (cfg : Config) (t : Telemetry) (r : ExternalRecorder) (x : Submission)
    (timestamp issuedAt : Reading) (duration : FloatValue) :
    AllOrNothing cfg t r x timestamp issuedAt duration ↔
      ∀ e, prepare cfg r x timestamp = .ok e → t.emit (emission r duration e) = none := by
  constructor
  · intro h e he
    cases hemit : t.emit (emission r duration e) with
    | none => rfl
    | some exc => exact absurd h (not_all_or_nothing he hemit)
  · intro h exc hraised
    rw [appendEmitting] at hraised ⊢
    cases hprepare : prepare cfg r x timestamp with
    | error exc' => rfl
    | ok e =>
      obtain ⟨data, hdata⟩ := exists_receipt hprepare issuedAt
      rw [hprepare] at hraised
      dsimp only at hraised
      rw [hdata, h e hprepare] at hraised
      cases hraised

end Append

namespace Sample

attribute [local instance] pythonPlatform Broker.Sample.keyedHash

/-- No text that the sample reads has a float. -/
@[reducible] def noFloats : FloatReader := ⟨fun _ ↦ ⟨true, false, none, "0.5", "0.5"⟩⟩

attribute [local instance] noFloats

def cfg : Config := ⟨1024, ([0] : List ℕ), by decide, by decide⟩

def reading : Reading :=
  ⟨⟨true, false, none, "0.5", "0.5"⟩, rfl, rfl,
    List.all_eq_true.mp (by decide : "0.5".toList.all isNumberChar = true),
    ⟨['0'], ['.', '5'], by decide⟩, rfl⟩

def submission : Submission :=
  { eventType := .str (.ofString "execution.completed"), payload := .dict [] }

/-- An instrument that compares the value that it is given with zero. -/
def comparing (m : Measurement) : Option Exn :=
  match m.amount with
  | .builtinLen => some ⟨.typeError,
    "'<' not supported between instances of 'builtin_function_or_method' and 'int'"⟩
  | _ => none

/-- The admitted submission. -/
def admitted : Admitted := ⟨.ofString "execution.completed", [], .ofString "local", .int 1, 1⟩

/-- The event, in the order of the keys. -/
def eventFields (digest : String) : List (String × Json) := [
  ("event_hash", .str digest), ("event_type", .str "execution.completed"), ("payload", .obj []),
  ("previous_hash", .str genesis), ("sequence", .int 1), ("source_id", .str "local"),
  ("source_sequence", .int 1), ("timestamp", .float reading.value)]

theorem listed_signedEvent (digest : String) :
    (signedEvent .start admitted reading digest).listed = .ofJson (.obj (eventFields digest)) := by
  have hsort := PyValue.sortItems_ofString [("sequence", PyValue.int 1),
    ("timestamp", .float reading.value), ("event_type", .str (.ofString "execution.completed")),
    ("payload", .dict []), ("source_id", .str (.ofString "local")), ("source_sequence", .int 1),
    ("previous_hash", .str (.ofString genesis)), ("event_hash", .str (.ofString digest))]
  simp only [List.map_cons, List.map_nil] at hsort
  rw [signedEvent, PyValue.ofNamed, PyValue.listed]
  refine congrArg PyValue.dict (hsort.trans ?_)
  simp [Json.sortFields, Json.orderedInsert, eventFields, PyValue.ofFields, PyValue.ofJson]

theorem canonicalBytes_signedEvent {digest : String} (h : isDigest digest = true)
    (hgenesis : isDigest genesis = true) :
    (signedEvent .start admitted reading digest).canonicalBytes =
      .ok (spell (.obj (eventFields digest))) := by
  have hname : ∀ {name : String}, isAscii name = true → name.toList.length ≤ 20 →
      canonicalString 1 name = .ok name := fun hascii hle ↦
    canonicalString_eq_ok_iff.mpr ⟨by decide, isCanonicalString_of_isAscii hascii
      (le_trans hle (by decide : 20 ≤ maxCanonicalStringBytes)), rfl⟩
  have hstring : ∀ {s : String}, canonicalString 1 s = .ok s →
      canonicalValue 1 (.str s) = .ok (.str s) := fun hs ↦ map_eq_ok.mpr ⟨_, hs, rfl⟩
  have hdigest : ∀ {s : String}, isDigest s = true → canonicalString 1 s = .ok s := fun hs ↦
    canonicalString_eq_ok_iff.mpr ⟨by decide, isCanonicalString_of_isDigest hs, rfl⟩
  have htype : canonicalValue 1 (.str "execution.completed") = .ok (.str "execution.completed") :=
    hstring (hname (by decide) (by decide))
  have hsource : canonicalValue 1 (.str "local") = .ok (.str "local") :=
    hstring (hname (by decide) (by decide))
  have hvalues : (eventFields digest).map (fun f ↦ (f.1, canonicalValue 1 f.2)) =
      (eventFields digest).map fun f ↦ (f.1, Except.ok f.2) := by
    simp only [eventFields, List.map_cons, List.map_nil, hstring (hdigest h),
      hstring (hdigest hgenesis), htype, hsource]
    rfl
  have hsorted : Json.Sorted (eventFields digest) := by
    rw [Json.Sorted, ← List.pairwise_map]
    exact (by decide : ["event_hash", "event_type", "payload", "previous_hash", "sequence",
      "source_id", "source_sequence", "timestamp"].Pairwise (· ≤ ·))
  have hfields : Json.sortFields ((eventFields digest).map fun f ↦ (f.1, canonicalValue 1 f.2)) =
      (eventFields digest).map fun f ↦ (f.1, Except.ok f.2) := by
    rw [hvalues]
    exact Json.sortFields_of_sorted (.of_keys (List.map_map ..) hsorted)
  rw [PyValue.canonicalBytes, ← PyValue.canonicalValue_listed, listed_signedEvent,
    PyValue.canonicalValue_ofJson]
  have hlength : (eventFields digest).length ≤ maxCanonicalItems :=
    (by decide : 8 ≤ maxCanonicalItems)
  refine map_eq_ok.mpr ⟨_, canonicalValue_obj_eq_ok.mpr
    ⟨by decide, hlength, _, rfl, hfields, ?_⟩, rfl⟩
  simp only [eventFields, List.forall_mem_cons, List.not_mem_nil, false_imp_iff, implies_true,
    and_true]
  refine ⟨?_, ?_, ?_, ?_, ?_, ?_, ?_, ?_⟩
  all_goals exact hname (by decide) (by decide)

/-- A string is spelt with an octet for each character. -/
def IsPlain (s : String) : Prop := s.toList.all (fun c ↦ (spellChar c).length = 1) = true

instance (s : String) : Decidable (IsPlain s) := inferInstanceAs (Decidable (_ = true))

theorem length_spellString {s : String} (h : IsPlain s) :
    (spellString s).length = s.toList.length + 2 := by
  have hplain : ∀ text : List Char, text.all (fun c ↦ (spellChar c).length = 1) = true →
      (text.flatMap spellChar).length = text.length := by
    intro text htext
    induction text with
    | nil => rfl
    | cons c text ih =>
      rw [List.all_cons, Bool.and_eq_true, decide_eq_true_iff] at htext
      rw [List.flatMap_cons, List.length_append, ih htext.2, htext.1, List.length_cons,
        Nat.add_comm]
  rw [spellString, List.length_append, List.length_cons, hplain _ h, List.length_singleton]

theorem isPlain_of_isDigest {s : String} (h : isDigest s = true) : IsPlain s := by
  have hspell : ∀ n < 128, isLowerHex (Char.ofNat n) = true →
      (spellChar (Char.ofNat n)).length = 1 := by decide
  rw [isDigest, Bool.and_eq_true] at h
  refine List.all_eq_true.mpr fun c hc ↦ decide_eq_true ?_
  have hhex := List.all_eq_true.mp h.2 c hc
  have hchar := hspell c.toNat (toNat_lt_of_isLowerHex hhex)
  rw [Char.ofNat_toNat] at hchar
  exact hchar hhex

theorem isPlain_names : ["event_hash", "event_type", "execution.completed", "payload",
    "previous_hash", "sequence", "source_id", "local", "source_sequence",
    "timestamp"].Forall fun s ↦ IsPlain s ∧ s.toList.length ≤ 19 := by
  refine ⟨?_, ?_, ?_, ?_, ?_, ?_, ?_, ?_, ?_, ?_⟩
  all_goals decide +kernel

/-- The event fits: it has two digests, with short texts around them. -/
theorem length_spell_eventFields {digest : String} (h : isDigest digest = true)
    (hgenesis : isDigest genesis = true) :
    (spell (.obj (eventFields digest))).length ≤ 1000 := by
  have hdigest : ∀ {s : String}, isDigest s = true → (spellString s).length = 66 := by
    intro s hs
    rw [length_spellString (isPlain_of_isDigest hs)]
    rw [isDigest, Bool.and_eq_true, beq_iff_eq] at hs
    omega
  have hname : ∀ {s : String}, IsPlain s ∧ s.toList.length ≤ 19 → (spellString s).length ≤ 21 := by
    rintro s ⟨hs, hle⟩
    rw [length_spellString hs]
    omega
  obtain ⟨h1, h2, h3, h4, h5, h6, h7, h8, h9, h10⟩ := isPlain_names
  have h1 := hname h1
  have h2 := hname h2
  have h3 := hname h3
  have h4 := hname h4
  have h5 := hname h5
  have h6 := hname h6
  have h7 := hname h7
  have h8 := hname h8
  have h9 := hname h9
  have h10 := hname h10
  have hone : (spellInt 1).length = 1 := by decide
  have hfloat : (asciiOctets reading.value.text).length = 3 := by decide
  simp only [eventFields, spell, spellFields, List.length_append, List.length_cons, hone, hfloat,
    hdigest h, hdigest hgenesis, List.length_nil]
  -- the lengths are named, for the texts are not to be compared
  generalize (spellString "event_hash").length = n1 at *
  generalize (spellString "event_type").length = n2 at *
  generalize (spellString "execution.completed").length = n3 at *
  generalize (spellString "payload").length = n4 at *
  generalize (spellString "previous_hash").length = n5 at *
  generalize (spellString "sequence").length = n6 at *
  generalize (spellString "source_id").length = n7 at *
  generalize (spellString "local").length = n8 at *
  generalize (spellString "source_sequence").length = n9 at *
  generalize (spellString "timestamp").length = n10 at *
  have hnil : (asciiOctets "\x7b\x7d").length = 2 := by decide
  omega

theorem isDigest_genesis : isDigest genesis = true := by decide +kernel

theorem exists_prepare : ∃ e, prepare cfg .fresh submission reading = .ok e := by
  have hadmits : checkEvent .start submission = .ok admitted := rfl
  have hcanonical : (PyValue.ofNamed (unsignedEvent .start admitted reading)).Canonicalizes 0 := by
    rw [PyValue.canonicalizes_ofNamed]
    · refine ⟨by decide, by simp [unsignedEvent, maxCanonicalItems], ?_⟩
      simp only [unsignedEvent, List.forall_mem_cons, List.not_mem_nil, false_imp_iff,
        implies_true, and_true]
      have hstring : ∀ {s : String}, IsCanonicalString s →
          (PyValue.str (.ofString s)).Canonicalizes 1 := fun hs ↦
        PyValue.canonicalizes_str.mpr ⟨by decide, PyStr.isCanonical_ofString.mpr hs⟩
      refine ⟨⟨by decide, ?_⟩, ⟨by decide, canonicalizes_reading reading (by decide)⟩,
        ⟨by decide, hstring ?_⟩, ⟨by decide, ?_⟩, ⟨by decide, hstring ?_⟩, ⟨by decide, ?_⟩,
        ⟨by decide, hstring ?_⟩⟩
      · exact PyValue.canonicalizes_int.mpr ⟨by decide, by decide⟩
      · exact isCanonicalString_of_isAscii (by decide) (by decide)
      · exact PyValue.canonicalizes_ofJson.mpr (canonicalizes_obj.mpr ⟨by decide, by decide,
          fun _ hf ↦ absurd hf List.not_mem_nil⟩)
      · exact isCanonicalString_of_isAscii (by decide) (by decide)
      · exact PyValue.canonicalizes_int.mpr ⟨by decide, by decide⟩
      · exact isCanonicalString_of_isDigest isDigest_genesis
    · simp only [unsignedEvent, List.forall_mem_cons, List.not_mem_nil, false_imp_iff,
        implies_true, and_true]
      refine ⟨?_, ?_, ?_, ?_, ?_, ?_, ?_⟩
      all_goals exact isCanonicalString_of_isAscii (by decide) (by decide)
  obtain ⟨digest, hdigest⟩ := PyValue.digest_eq_ok.mpr hcanonical
  have hdigest' : isDigest digest = true := by
    obtain ⟨octets, -, rfl⟩ := map_eq_ok.mp hdigest
    exact Platform.isDigest_sha256 octets
  refine ⟨⟨admitted, signedEvent .start admitted reading digest, digest,
    spell (.obj (eventFields digest))⟩, ?_⟩
  refine raiseIf_bind_eq_ok.mpr ⟨by rintro (h | h) <;> exact h rfl, ?_⟩
  refine bind_eq_ok.mpr ⟨_, hadmits, bind_eq_ok.mpr ⟨_, hdigest, bind_eq_ok.mpr
    ⟨_, canonicalBytes_signedEvent hdigest' isDigest_genesis, ?_⟩⟩⟩
  have hfits := length_spell_eventFields hdigest' isDigest_genesis
  have hmax : cfg.maxEventBytes = 1024 := rfl
  exact raiseIf_bind_eq_ok.mpr ⟨not_lt.mpr (by omega), rfl⟩

theorem isOk_prepare : (prepare cfg .fresh submission reading).toOption.isSome = true := by
  obtain ⟨e, he⟩ := exists_prepare
  rw [he]
  rfl

end Sample

/-- With OpenTelemetry instruments the event is written, and `append` raises. -/
theorem not_all_or_nothing_otel :
    let _ := pythonPlatform
    let _ := Broker.Sample.keyedHash
    let _ := Sample.noFloats
    ¬AllOrNothing Sample.cfg { otel := some Sample.comparing } .fresh Sample.submission
      Sample.reading
      Sample.reading ⟨true, false, none, "0.5", "0.5"⟩ := by
  intro _ _ _
  obtain ⟨e, he⟩ : ∃ e, prepare Sample.cfg .fresh Sample.submission Sample.reading = .ok e := by
    cases hprepare : prepare Sample.cfg .fresh Sample.submission Sample.reading with
    | error exc =>
      have hok := Sample.isOk_prepare
      rw [hprepare] at hok
      cases hok
    | ok e => exact ⟨e, rfl⟩
  exact not_all_or_nothing he rfl

end EventHorizon.Recorder
