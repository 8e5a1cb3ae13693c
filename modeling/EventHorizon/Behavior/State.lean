import EventHorizon.Canonical.Encodable
import EventHorizon.Policy.Requests

/-!
# What a guardian knows of a session

`BehavioralSessionState` of `behavioral_guardian.py` and the two stores that keep it. The store in
memory keeps the object; the store in SQLite keeps its canonical bytes beside their digest, and
makes a new object of them whenever it is asked. What was saved is loaded again, the last request
with its tuples read as lists: `Store.Lawful`.
-/

namespace EventHorizon.Behavior

open Policy (invalid PyRequest)

/-! ## States -/

/-- The values of `last_outcome`. -/
inductive Outcome
  | none
  | allowed
  | denied
  | timeout
  | indeterminate
  deriving DecidableEq, Repr

namespace Outcome

def text : Outcome → String
  | .none => "none"
  | .allowed => "allowed"
  | .denied => "denied"
  | .timeout => "timeout"
  | .indeterminate => "indeterminate"

def all : List Outcome := [.none, .allowed, .denied, .timeout, .indeterminate]

/-- The outcome of the given text. -/
def ofText? (s : PyStr) : Option Outcome := all.find? fun o ↦ PyStr.ofString o.text = s

theorem ofText?_text (o : Outcome) : ofText? (.ofString o.text) = some o := by
  cases o <;> decide

end Outcome

/-- `SECURITY_SIGNALS`. -/
def securitySignals : List String := [
  "canary-interaction", "capability-id-guessing", "nonce-guessing", "stale-attestation",
  "consumed-capability", "parser-probing", "evidence-suppression", "scope-expansion",
  "trust-escalation"]

/-- The signals as Python has them. -/
def securitySignalTexts : List PyStr := securitySignals.map .ofString

structure StateFields where
  tenant : PyStr
  sessionId : PyStr
  requestCount : ℤ := 0
  denialCount : ℤ := 0
  riskScore : ℤ := 0
  firstSeenMs : ℤ := 0
  lastSeenMs : ℤ := 0
  lastOutcome : Outcome := .none
  lastRequest : Option PyValue := none
  workloads : List PyStr := []
  resources : List PyStr := []
  workers : List PyStr := []
  signals : List PyStr := []
  quarantined : Bool := false

/-- `BehavioralSessionState.FIELDS`. -/
def stateFieldNames : List String := [
  "tenant", "session_id", "request_count", "denial_count", "risk_score", "first_seen_ms",
  "last_seen_ms", "last_outcome", "last_request", "workloads", "resources", "workers", "signals",
  "quarantined"]

/-- A list of texts. -/
def texts (xs : List PyStr) : PyValue := .list (xs.map .str)

namespace StateFields

/-- The items of `to_dict`. -/
def items (f : StateFields) : List (String × PyValue) := [
  ("tenant", .str f.tenant), ("session_id", .str f.sessionId),
  ("request_count", .int f.requestCount), ("denial_count", .int f.denialCount),
  ("risk_score", .int f.riskScore), ("first_seen_ms", .int f.firstSeenMs),
  ("last_seen_ms", .int f.lastSeenMs), ("last_outcome", .str (.ofString f.lastOutcome.text)),
  ("last_request", f.lastRequest.getD .none), ("workloads", texts f.workloads),
  ("resources", texts f.resources), ("workers", texts f.workers), ("signals", texts f.signals),
  ("quarantined", .bool f.quarantined)]

/-- `to_dict`. -/
def toDict (f : StateFields) : PyValue := .ofNamed f.items

end StateFields

/-- A collection as the constructor wants it. -/
def IsCollection (xs : List PyStr) : Prop := xs.length ≤ 256 ∧ xs.Nodup

instance (xs : List PyStr) : Decidable (IsCollection xs) := inferInstanceAs (Decidable (_ ∧ _))

section States

variable [Platform]

/-- The check of `last_request`. -/
def checkRequest : Option PyValue → Except Exn Unit
  | none => .ok ()
  | some v => (PyRequest.fromDict v).map fun _ ↦ ()

/-- `BehavioralSessionState.__post_init__`. -/
def StateFields.postInit (f : StateFields) : Except Exn Unit := do
  raiseIf (f.tenant = [] ∨ f.sessionId = []) (invalid "behavioral state identity is invalid")
  raiseIf (f.requestCount < 0 ∨ f.denialCount < 0 ∨ f.riskScore < 0 ∨ f.firstSeenMs < 0 ∨
      f.lastSeenMs < 0)
    (invalid "behavioral state counters must be non-negative integers")
  checkRequest f.lastRequest
  raiseIf (¬(IsCollection f.workloads ∧ IsCollection f.resources ∧ IsCollection f.workers ∧
      IsCollection f.signals))
    (invalid "behavioral state collection is invalid")
  raiseIf (¬f.signals ⊆ securitySignalTexts)
    (invalid "behavioral state contains an unknown signal")

/-- A state that was constructed. -/
structure SessionState extends StateFields where
  valid : toStateFields.postInit = .ok ()

/-- `BehavioralSessionState(...)`. -/
def construct (f : StateFields) : Except Exn SessionState :=
  match h : f.postInit with
  | .ok () => .ok ⟨f, h⟩
  | .error e => .error e

/-- `BehavioralSessionState(tenant, session_id)`. -/
def fresh (tenant sessionId : PyStr) : Except Exn SessionState := construct { tenant, sessionId }

/-! ### Reading dictionaries -/

omit [Platform] in
/-- A field that has to be an integer. -/
def readCount (items : List (PyKey × PyValue)) (name : String) : Except Exn ℤ :=
  match PyValue.item items name with
  | .int n => .ok n
  | _ => .error (invalid "behavioral state counters must be non-negative integers")

omit [Platform] in
/-- A field that has to be an outcome. -/
def readOutcome (items : List (PyKey × PyValue)) : Except Exn Outcome :=
  match PyValue.item items "last_outcome" with
  | .str s =>
    match Outcome.ofText? s with
    | some o => .ok o
    | none => .error (invalid "behavioral state outcome is invalid")
  | _ => .error (invalid "behavioral state outcome is invalid")

omit [Platform] in
/-- An item of a collection. Items that are no texts are refused here; no state that was saved has
one. -/
def readText : PyValue → Except Exn PyStr
  | .str s => .ok s
  | _ => .error (invalid "behavioral state collection is invalid")

omit [Platform] in
/-- A field that has to be a collection. -/
def readTexts (items : List (PyKey × PyValue)) (name : String) : Except Exn (List PyStr) := do
  let xs ← (PyValue.item items name).tupleOf
  xs.mapM readText

omit [Platform] in
/-- A field that has to be a flag. -/
def readFlag (items : List (PyKey × PyValue)) (name : String) : Except Exn Bool :=
  match PyValue.item items name with
  | .bool b => .ok b
  | _ => .error (invalid "behavioral quarantine flag is invalid")

omit [Platform] in
/-- `payload["last_request"]`, which may be `None`. -/
def readRequest (items : List (PyKey × PyValue)) : Option PyValue :=
  match PyValue.item items "last_request" with
  | .none => none
  | v => some v

/-- A state of another session, or of none, is not what was asked for. -/
def mismatch : Exn := ⟨.behavioralStateError, "behavioral state ownership mismatch"⟩

omit [Platform] in
/-- A name in a state. What is not a text is not the name that was asked for. -/
def readName (items : List (PyKey × PyValue)) (name : String) : Except Exn PyStr :=
  match PyValue.item items name with
  | .str s => .ok s
  | _ => .error mismatch

/-- `BehavioralSessionState.from_dict`. -/
def fromDict : PyValue → Except Exn SessionState
  | .dict items => do
    raiseIf (PyValue.hasExactKeys items stateFieldNames = false)
      (invalid "behavioral state fields are invalid")
    let workloads ← readTexts items "workloads"
    let resources ← readTexts items "resources"
    let workers ← readTexts items "workers"
    let signals ← readTexts items "signals"
    let requestCount ← readCount items "request_count"
    let denialCount ← readCount items "denial_count"
    let riskScore ← readCount items "risk_score"
    let firstSeenMs ← readCount items "first_seen_ms"
    let lastSeenMs ← readCount items "last_seen_ms"
    let lastOutcome ← readOutcome items
    let quarantined ← readFlag items "quarantined"
    let tenant ← readName items "tenant"
    let sessionId ← readName items "session_id"
    construct {
      tenant, sessionId, requestCount, denialCount, riskScore, firstSeenMs, lastSeenMs, lastOutcome,
      lastRequest := readRequest items, workloads, resources, workers, signals, quarantined }
  | _ => .error (invalid "behavioral state fields are invalid")

/-! ### What was constructed -/

/-- What the constructor checks. -/
structure StateFields.Valid (f : StateFields) : Prop where
  tenant : f.tenant ≠ []
  sessionId : f.sessionId ≠ []
  counters : 0 ≤ f.requestCount ∧ 0 ≤ f.denialCount ∧ 0 ≤ f.riskScore ∧ 0 ≤ f.firstSeenMs ∧
    0 ≤ f.lastSeenMs
  lastRequest : ∀ v, f.lastRequest = some v → ∃ r, PyRequest.fromDict v = .ok r
  collections : IsCollection f.workloads ∧ IsCollection f.resources ∧ IsCollection f.workers ∧
    IsCollection f.signals
  signals : f.signals ⊆ securitySignalTexts

theorem checkRequest_eq_ok {v : Option PyValue} :
    checkRequest v = .ok () ↔ ∀ x, v = some x → ∃ r, PyRequest.fromDict x = .ok r := by
  cases v with
  | none => exact iff_of_true rfl fun x hx ↦ nomatch hx
  | some x =>
    rw [checkRequest, map_eq_ok]
    constructor
    · rintro ⟨r, hr, -⟩ y ⟨⟩
      exact ⟨r, hr⟩
    · intro h
      obtain ⟨r, hr⟩ := h x rfl
      exact ⟨r, hr, rfl⟩

theorem StateFields.postInit_eq_ok {f : StateFields} : f.postInit = .ok () ↔ f.Valid := by
  rw [postInit, raiseIf_bind_eq_ok, raiseIf_bind_eq_ok, bind_eq_ok, not_or]
  simp only [not_or, Int.not_lt]
  constructor
  · rintro ⟨⟨htenant, hsession⟩, hcounters, ⟨⟩, hrequest, h⟩
    obtain ⟨hcollections, hsignals⟩ := raiseIf_bind_eq_ok.mp h
    exact ⟨htenant, hsession, hcounters, checkRequest_eq_ok.mp hrequest, not_not.mp hcollections,
      not_not.mp (raiseIf_eq_ok.mp hsignals)⟩
  · intro h
    refine ⟨⟨h.tenant, h.sessionId⟩, h.counters, (), checkRequest_eq_ok.mpr h.lastRequest, ?_⟩
    exact raiseIf_bind_eq_ok.mpr ⟨not_not.mpr h.collections, raiseIf_eq_ok.mpr
      (not_not.mpr h.signals)⟩

theorem SessionState.isValid (s : SessionState) : s.Valid := StateFields.postInit_eq_ok.mp s.valid

theorem construct_eq_ok {f : StateFields} {s : SessionState} :
    construct f = .ok s ↔ s.toStateFields = f := by
  constructor
  · intro h
    unfold construct at h
    split at h
    · cases h
      rfl
    · cases h
  · rintro rfl
    unfold construct
    split
    · rfl
    case h_2 e he =>
      rw [s.valid] at he
      cases he

theorem exists_construct {f : StateFields} (h : f.Valid) :
    ∃ s, construct f = .ok s ∧ s.toStateFields = f :=
  ⟨⟨f, StateFields.postInit_eq_ok.mpr h⟩, construct_eq_ok.mpr rfl, rfl⟩

theorem SessionState.exists_fresh (s : SessionState) :
    ∃ s', fresh s.tenant s.sessionId = .ok s' := by
  obtain ⟨s', hs', -⟩ := exists_construct (f := { tenant := s.tenant, sessionId := s.sessionId })
    ⟨s.isValid.tenant, s.isValid.sessionId, by simp, fun v hv ↦ (nomatch hv),
      by simp [IsCollection], List.nil_subset _⟩
  exact ⟨s', hs'⟩

/-! ### Dictionaries that carry a state -/

/-- The items are those of the state. -/
structure Carries (items : List (PyKey × PyValue)) (f : StateFields) : Prop where
  exact : PyValue.hasExactKeys items stateFieldNames = true
  value : ∀ r ∈ f.items, PyValue.at? items r.1 = some r.2

omit [Platform] in
theorem Carries.item {items : List (PyKey × PyValue)} {f : StateFields} (h : Carries items f)
    {name : String} {v : PyValue} (hv : (name, v) ∈ f.items) : PyValue.item items name = v := by
  have hat : PyValue.at? items name = some v := h.value _ hv
  rw [PyValue.item, ← PyValue.at?, hat, Option.getD_some]

omit [Platform] in
theorem Carries.readTexts {items : List (PyKey × PyValue)} {f : StateFields} (h : Carries items f)
    {name : String} (xs : List PyStr) (hxs : (name, texts xs) ∈ f.items) :
    readTexts items name = .ok xs := by
  rw [Behavior.readTexts, h.item hxs, texts]
  refine bind_eq_ok.mpr ⟨_, rfl, mapM_eq_ok.mpr ?_⟩
  rw [List.forall₂_map_left_iff]
  exact List.forall₂_same.mpr fun _ _ ↦ rfl

omit [Platform] in
theorem Carries.readCount {items : List (PyKey × PyValue)} {f : StateFields} (h : Carries items f)
    {name : String} {n : ℤ} (hn : (name, .int n) ∈ f.items) : readCount items name = .ok n := by
  rw [Behavior.readCount, h.item hn]

omit [Platform] in
theorem Carries.readName {items : List (PyKey × PyValue)} {f : StateFields} (h : Carries items f)
    {name : String} {s : PyStr} (hs : (name, .str s) ∈ f.items) : readName items name = .ok s := by
  rw [Behavior.readName, h.item hs]

/-- A dictionary that carries a state is read as that state. -/
theorem fromDict_of_carries {items : List (PyKey × PyValue)} {f : StateFields}
    (h : Carries items f) (hrequest : f.lastRequest ≠ some .none) :
    fromDict (.dict items) = construct f := by
  have hexact : raiseIf (PyValue.hasExactKeys items stateFieldNames = false)
      (invalid "behavioral state fields are invalid") = .ok () := by
    rw [raiseIf_eq_ok, h.exact]
    exact Bool.noConfusion
  have houtcome : readOutcome items = .ok f.lastOutcome := by
    have hitem : PyValue.item items "last_outcome" = .str (.ofString f.lastOutcome.text) :=
      h.item (by simp [StateFields.items])
    rw [readOutcome, hitem]
    simp only [Outcome.ofText?_text]
  have hflag : readFlag items "quarantined" = .ok f.quarantined := by
    rw [readFlag, h.item (v := .bool f.quarantined) (by simp [StateFields.items])]
  have hlast : readRequest items = f.lastRequest := by
    rw [readRequest, h.item (v := f.lastRequest.getD .none) (by simp [StateFields.items])]
    cases hv : f.lastRequest with
    | none => rfl
    | some v =>
      rw [hv] at hrequest
      cases v with
      | none => exact absurd rfl hrequest
      | _ => rfl
  rw [fromDict, hexact, h.readTexts f.workloads (by simp [StateFields.items]),
    h.readTexts f.resources (by simp [StateFields.items]),
    h.readTexts f.workers (by simp [StateFields.items]),
    h.readTexts f.signals (by simp [StateFields.items]),
    h.readCount (n := f.requestCount) (by simp [StateFields.items]),
    h.readCount (n := f.denialCount) (by simp [StateFields.items]),
    h.readCount (n := f.riskScore) (by simp [StateFields.items]),
    h.readCount (n := f.firstSeenMs) (by simp [StateFields.items]),
    h.readCount (n := f.lastSeenMs) (by simp [StateFields.items]), houtcome, hflag,
    h.readName (s := f.tenant) (by simp [StateFields.items]),
    h.readName (s := f.sessionId) (by simp [StateFields.items]), hlast]
  rfl

omit [Platform] in
theorem StateFields.map_fst_items (f : StateFields) : f.items.map Prod.fst = stateFieldNames := rfl

omit [Platform] in
theorem carries_of_perm {items : List (PyKey × PyValue)} {f : StateFields}
    (hkeys : (items.map Prod.fst).Perm (stateFieldNames.map fun name ↦ .str (.ofString name)))
    (hvalue : ∀ r ∈ f.items, PyValue.at? items r.1 = some r.2) : Carries items f where
  exact := by
    rw [PyValue.hasExactKeys, Bool.and_eq_true, List.all_eq_true, List.all_eq_true]
    refine ⟨fun r hr ↦ decide_eq_true ?_, fun name hname ↦ decide_eq_true ?_⟩
    · exact hkeys.mem_iff.mp (List.mem_map_of_mem hr)
    · exact hkeys.mem_iff.mpr (List.mem_map_of_mem hname)
  value := hvalue

/-- The items of `to_dict`, under the keys that Python has. -/
def StateFields.pyItems (f : StateFields) : List (PyKey × PyValue) :=
  f.items.map fun r ↦ (.str (.ofString r.1), r.2)

omit [Platform] in
theorem StateFields.map_fst_pyItems (f : StateFields) :
    f.pyItems.map Prod.fst = stateFieldNames.map fun name ↦ .str (.ofString name) := rfl

omit [Platform] in
theorem StateFields.nodup_pyItems (f : StateFields) : (f.pyItems.map Prod.fst).Nodup := by
  rw [map_fst_pyItems]
  decide

omit [Platform] in
theorem StateFields.at?_pyItems {f : StateFields} {r : String × PyValue} (hr : r ∈ f.items) :
    PyValue.at? f.pyItems r.1 = some r.2 :=
  (PyValue.lookup_eq_some_iff_mem f.nodup_pyItems).mpr (List.mem_map.mpr ⟨r, hr, rfl⟩)

/-- `from_dict` takes `to_dict` back. -/
theorem fromDict_toDict {f : StateFields} (h : f.lastRequest ≠ some .none) :
    fromDict f.toDict = construct f :=
  fromDict_of_carries (carries_of_perm (f.map_fst_pyItems ▸ List.Perm.refl _)
    fun _ ↦ StateFields.at?_pyItems) h

/-- The state with its last request in the form in which it is stored. -/
def StateFields.stored (f : StateFields) : StateFields :=
  { f with lastRequest := f.lastRequest.map PyValue.listed }

omit [Platform] in
theorem listed_texts (xs : List PyStr) : (texts xs).listed = texts xs := by
  rw [texts, PyValue.listed, PyValue.listedItems_eq_map, List.map_map]
  rfl

omit [Platform] in
theorem StateFields.items_stored (f : StateFields) :
    f.stored.items = f.items.map fun r ↦ (r.1, r.2.listed) := by
  have hrequest : (f.lastRequest.map PyValue.listed).getD .none =
      (f.lastRequest.getD .none).listed := by
    cases f.lastRequest <;> rfl
  simp only [items, stored, List.map_cons, List.map_nil, listed_texts, hrequest]
  rfl

/-- The canonical form of `to_dict` is read as the stored state. -/
theorem fromDict_listed_toDict {f : StateFields} (h : f.stored.lastRequest ≠ some .none) :
    fromDict f.toDict.listed = construct f.stored := by
  have hkeys : (PyValue.sortItems (PyValue.listedFields f.pyItems)).map Prod.fst |>.Perm
      (stateFieldNames.map fun name ↦ .str (.ofString name)) := by
    have hperm := List.perm_insertionSort
      (fun f g : PyKey × PyValue ↦ f.1.codes ≤ g.1.codes) (PyValue.listedFields f.pyItems)
    refine (hperm.map Prod.fst).trans ?_
    rw [PyValue.listedFields_eq_map, List.map_map]
    exact List.Perm.refl _
  refine fromDict_of_carries (carries_of_perm hkeys fun r hr ↦ ?_) h
  rw [StateFields.items_stored] at hr
  obtain ⟨r', hr', rfl⟩ := List.mem_map.mp hr
  refine (PyValue.at?_sortItems f.nodup_pyItems _).trans ?_
  rw [StateFields.at?_pyItems hr']
  rfl

/-! ### Requests in stored form -/

omit [Platform] in
theorem isDict_listed (v : PyValue) : v.listed.isDict = v.isDict := by
  cases v <;> rfl

omit [Platform] in
theorem hasFloat_listed (v : PyValue) : v.listed.hasFloat = v.hasFloat := by
  induction v using PyValue.induction with
  | none | bool | int | float | str | other => rfl
  | list xs ih | tuple xs ih =>
    rw [PyValue.listed, PyValue.hasFloat, PyValue.hasFloat, PyValue.hasFloatItems_eq_any,
      PyValue.hasFloatItems_eq_any, PyValue.listedItems_eq_map, List.any_map, Bool.eq_iff_iff,
      List.any_eq_true, List.any_eq_true]
    refine exists_congr fun x ↦ and_congr_right fun hx ↦ ?_
    rw [Function.comp_apply, ih x hx]
  | dict items ih =>
    rw [PyValue.listed, PyValue.hasFloat, PyValue.hasFloat, PyValue.hasFloatFields_eq_any,
      PyValue.hasFloatFields_eq_any, PyValue.sortItems, (List.perm_insertionSort _ _).any_eq,
      PyValue.listedFields_eq_map, List.any_map, Bool.eq_iff_iff, List.any_eq_true,
      List.any_eq_true]
    refine exists_congr fun f ↦ and_congr_right fun hf ↦ ?_
    rw [Function.comp_apply, ih f hf]

omit [Platform] in
theorem distinct_listed (v : PyValue) : v.Distinct → v.listed.Distinct := by
  induction v using PyValue.induction with
  | none | bool | int | float | str | other => exact fun _ ↦ trivial
  | list xs ih | tuple xs ih =>
    intro h
    rw [PyValue.listed, PyValue.listedItems_eq_map]
    refine PyValue.distinctItems_iff.mpr fun y hy ↦ ?_
    obtain ⟨x, hx, rfl⟩ := List.mem_map.mp hy
    exact ih x hx (PyValue.distinctItems_iff.mp h x hx)
  | dict items ih =>
    rintro ⟨hkeys, h⟩
    have hperm := List.perm_insertionSort
      (fun f g : PyKey × PyValue ↦ f.1.codes ≤ g.1.codes) (PyValue.listedFields items)
    rw [PyValue.listed]
    refine ⟨(hperm.map Prod.fst).nodup_iff.mpr ?_, PyValue.distinctFields_iff.mpr fun g hg ↦ ?_⟩
    · rwa [PyValue.listedFields_eq_map, List.map_map]
    · rw [PyValue.mem_sortItems, PyValue.listedFields_eq_map] at hg
      obtain ⟨f, hf, rfl⟩ := List.mem_map.mp hg
      exact ih f hf (PyValue.distinctFields_iff.mp h f hf)

/-- A request is accepted in stored form too. -/
theorem exists_fromDict_listed {v : PyValue} (hdist : v.Distinct) {r : PyRequest}
    (h : PyRequest.fromDict v = .ok r) : ∃ r', PyRequest.fromDict v.listed = .ok r' := by
  obtain ⟨items, rfl, hcarries, hchecked⟩ := PyRequest.fromDict_eq_ok.mp h
  have hitem : ∀ key, PyValue.item (PyValue.sortItems (PyValue.listedFields items)) key =
      (PyValue.item items key).listed := by
    intro key
    rw [PyValue.item, ← PyValue.at?, PyValue.at?_sortItems hdist.1, PyValue.item, ← PyValue.at?]
    cases PyValue.at? items key <;> rfl
  have hkeys : ∀ k, k ∈ (PyValue.sortItems (PyValue.listedFields items)).map Prod.fst ↔
      k ∈ items.map Prod.fst := by
    intro k
    have hperm := List.perm_insertionSort
      (fun f g : PyKey × PyValue ↦ f.1.codes ≤ g.1.codes) (PyValue.listedFields items)
    refine (hperm.map Prod.fst).mem_iff.trans ?_
    rw [PyValue.listedFields_eq_map, List.map_map]
    rfl
  refine ⟨{ r with arguments := (PyValue.item items "arguments").listed.freeze },
    PyRequest.fromDict_eq_ok.mpr ⟨_, rfl, ?_, ?_⟩⟩
  · refine ⟨⟨fun f hf ↦ ?_, fun name hname ↦ (hkeys _).mpr (hcarries.exact.2 name hname)⟩, ?_, ?_,
      ?_, ?_, ?_, ?_, ?_⟩
    · obtain ⟨g, hg, hfg⟩ := List.mem_map.mp ((hkeys f.1).mp (List.mem_map_of_mem hf))
      exact hfg ▸ hcarries.exact.1 g hg
    · rw [hitem, hcarries.requestId]; rfl
    · rw [hitem, hcarries.sessionId]; rfl
    · rw [hitem, hcarries.agentId]; rfl
    · rw [hitem, hcarries.operation]; rfl
    · rw [hitem, hcarries.resourceId]; rfl
    · rw [hitem, hcarries.executorId]; rfl
    · rw [hitem, hcarries.purpose]; rfl
  · rw [hitem]
    refine { hchecked with mapping := ?_, canonical := ?_, noFloat := ?_, frozen := rfl }
    · rw [isDict_listed]
      exact hchecked.mapping
    · rw [PyValue.canonicalValue_listed]
      exact hchecked.canonical
    · rw [hasFloat_listed]
      exact hchecked.noFloat

/-! ## Stores -/

/-- A store: what it makes of a session's row, and the row it keeps for a state. -/
structure Store (ρ : Type) where
  load : PyStr → PyStr → Option ρ → Except Exn SessionState
  save : SessionState → Except Exn ρ

/-- `InMemoryBehavioralStateStore`. The default of `get` is constructed whether it is used or
not. -/
def inMemory : Store SessionState where
  load tenant sessionId row := (fresh tenant sessionId).map fun s ↦ row.getD s
  save s := .ok s

omit [Platform] in
/-- A text as a parameter of a statement. -/
def bound (s : PyStr) : Except Exn Unit :=
  raiseIf (s.text? = none) s.encodeError

omit [Platform] in
/-- A `TypeError` or a `ValueError` while reading a row becomes a `BehavioralStateError`. -/
def asCorrupt {α : Type} : Except Exn α → Except Exn α
  | .ok a => .ok a
  | .error e =>
    if e.cls ∈ [.typeError, .valueError, .validationError, .canonicalizationError,
        .unicodeEncodeError] then
      .error ⟨.behavioralStateError, "behavioral state is corrupt"⟩
    else .error e

/-- A row is read. -/
def readRow (payload : List ℕ) (payloadDigest : String) : Except Exn SessionState := do
  let value ← strictJsonLoads payload true
  let valueDigest ← value.digest
  raiseIf (valueDigest ≠ payloadDigest)
    (⟨.behavioralStateError, "behavioral state digest mismatch"⟩ : Exn)
  fromDict value

/-- `SqliteBehavioralStateStore`: the columns `payload` and `payload_digest`. -/
def sqlite : Store (List ℕ × String) where
  load tenant sessionId row := do
    bound tenant
    bound sessionId
    match row with
    | none => fresh tenant sessionId
    | some (payload, payloadDigest) => do
      let s ← asCorrupt (readRow payload payloadDigest)
      raiseIf (s.tenant ≠ tenant ∨ s.sessionId ≠ sessionId) mismatch
      return s
  save s := do
    let payload ← s.toDict.canonicalBytes
    let payloadDigest ← s.toDict.digest
    return (payload, payloadDigest)

/-- The last request is a mapping as Python has them, with distinct keys. -/
def StateFields.Distinct (f : StateFields) : Prop := ∀ v, f.lastRequest = some v → v.Distinct

/-- Where there is no row a new state is loaded, and what was saved is loaded again. -/
structure Store.Lawful {ρ : Type} (store : Store ρ) : Prop where
  load_none : ∀ {tenant sessionId : PyStr} {s : SessionState},
    store.load tenant sessionId none = .ok s → s.toStateFields = { tenant, sessionId }
  load_save : ∀ {s : SessionState} {row : ρ}, s.Distinct → store.save s = .ok row →
    ∃ s', store.load s.tenant s.sessionId (some row) = .ok s' ∧ s'.Distinct ∧ s'.stored = s.stored

theorem inMemory_lawful : inMemory.Lawful where
  load_none h := by
    obtain ⟨s', hs', rfl⟩ := map_eq_ok.mp h
    exact construct_eq_ok.mp hs'
  load_save {s row} hdist h := by
    obtain rfl := Except.ok.inj h
    obtain ⟨s', hs'⟩ := s.exists_fresh
    exact ⟨s, map_eq_ok.mpr ⟨s', hs', rfl⟩, hdist, rfl⟩

/-- A payload that is accepted has no floats. -/
theorem floatFree_of_fromDict {v : PyValue} (hdist : v.Distinct) {r : PyRequest}
    (h : PyRequest.fromDict v = .ok r) : v.FloatFree := by
  obtain ⟨items, rfl, hcarries, hchecked⟩ := PyRequest.fromDict_eq_ok.mp h
  refine PyValue.floatsFields_iff.mpr fun f hf ↦ ?_
  obtain ⟨name, hname, hkey⟩ := List.mem_map.mp (hcarries.exact.1 f hf)
  have hitem : PyValue.item items name = f.2 := by
    have hlookup := (PyValue.lookup_eq_some_iff_mem hdist.1).mpr (hkey.symm ▸ hf :
      (PyKey.str (.ofString name), f.2) ∈ items)
    rw [PyValue.item, hlookup, Option.getD_some]
  rw [← hitem]
  simp only [Policy.requestFieldNames, List.mem_cons, List.not_mem_nil, or_false] at hname
  rcases hname with rfl | rfl | rfl | rfl | rfl | rfl | rfl | rfl
  · rw [hcarries.requestId]; trivial
  · rw [hcarries.sessionId]; trivial
  · rw [hcarries.agentId]; trivial
  · rw [hcarries.operation]; trivial
  · rw [hcarries.resourceId]; trivial
  · rw [hcarries.executorId]; trivial
  · exact PyValue.floatFree_of_hasFloat _ hchecked.noFloat
  · rw [hcarries.purpose]; trivial

theorem SessionState.lastRequest_ne (s : SessionState) : s.lastRequest ≠ some .none := by
  intro hnone
  obtain ⟨r, hr⟩ := s.isValid.lastRequest _ hnone
  cases hr

omit [Platform] in
/-- Each item of `to_dict` is as required when the last request is. -/
theorem StateFields.forall_items {P : PyValue → Prop} {f : StateFields} (hstr : ∀ s, P (.str s))
    (hint : ∀ n, P (.int n)) (hbool : ∀ b, P (.bool b)) (htexts : ∀ xs, P (texts xs))
    (hrequest : P (f.lastRequest.getD .none)) : ∀ r ∈ f.items, P r.2 := by
  simp only [items, List.mem_cons, List.not_mem_nil, or_false, forall_eq_or_imp, forall_eq]
  exact ⟨hstr _, hstr _, hint _, hint _, hint _, hint _, hint _, hstr _, hrequest, htexts _,
    htexts _, htexts _, htexts _, hbool _⟩

omit [Platform] in
theorem StateFields.distinct_toDict {f : StateFields} (h : f.Distinct) : f.toDict.Distinct := by
  refine ⟨f.nodup_pyItems, PyValue.distinctFields_iff.mpr fun g hg ↦ ?_⟩
  obtain ⟨r, hr, rfl⟩ := List.mem_map.mp hg
  refine forall_items (P := PyValue.Distinct) (fun _ ↦ trivial) (fun _ ↦ trivial)
    (fun _ ↦ trivial) (fun xs ↦ ?_) ?_ r hr
  · refine PyValue.distinctItems_iff.mpr fun x hx ↦ ?_
    obtain ⟨s, -, rfl⟩ := List.mem_map.mp hx
    trivial
  · cases hv : f.lastRequest with
    | none => trivial
    | some v => exact h v hv

theorem SessionState.floatFree_toDict {s : SessionState} (h : s.Distinct) : s.toDict.FloatFree := by
  refine PyValue.floatsFields_iff.mpr fun g hg ↦ ?_
  obtain ⟨r, hr, rfl⟩ := List.mem_map.mp hg
  refine StateFields.forall_items (P := PyValue.FloatFree) (fun _ ↦ trivial) (fun _ ↦ trivial)
    (fun _ ↦ trivial) (fun xs ↦ ?_) ?_ r hr
  · refine PyValue.floatsItems_iff.mpr fun x hx ↦ ?_
    obtain ⟨s, -, rfl⟩ := List.mem_map.mp hx
    trivial
  · cases hv : s.lastRequest with
    | none => trivial
    | some v =>
      obtain ⟨r, hr⟩ := s.isValid.lastRequest v hv
      exact floatFree_of_fromDict (h v hv) hr

theorem SessionState.valid_stored {s : SessionState} (h : s.Distinct) : s.stored.Valid := by
  refine { s.isValid with lastRequest := fun v hv ↦ ?_ }
  obtain ⟨u, hu, rfl⟩ := Option.map_eq_some_iff.mp hv
  obtain ⟨r, hr⟩ := s.isValid.lastRequest u hu
  exact exists_fromDict_listed (h u hu) hr

omit [Platform] in
theorem StateFields.distinct_stored {f : StateFields} (h : f.Distinct) : f.stored.Distinct := by
  intro v hv
  obtain ⟨u, hu, rfl⟩ := Option.map_eq_some_iff.mp hv
  exact distinct_listed u (h u hu)

omit [Platform] in
theorem listed_listed (v : PyValue) : v.listed.listed = v.listed := by
  induction v using PyValue.induction with
  | none | bool | int | float | str | other => rfl
  | list xs ih | tuple xs ih =>
    rw [PyValue.listed, PyValue.listed, PyValue.listedItems_eq_map, PyValue.listedItems_eq_map,
      List.map_map]
    exact congrArg PyValue.list (List.map_congr_left ih)
  | dict items ih =>
    have hfields : PyValue.listedFields (PyValue.listedFields items) =
        PyValue.listedFields items := by
      rw [PyValue.listedFields_eq_map, PyValue.listedFields_eq_map, List.map_map]
      exact List.map_congr_left fun f hf ↦ Prod.ext rfl (ih f hf)
    rw [PyValue.listed, PyValue.listed, PyValue.listedFields_eq_map (PyValue.sortItems _),
      ← PyValue.sortItems_map, ← PyValue.listedFields_eq_map, hfields, PyValue.sortItems_sortItems]

omit [Platform] in
theorem StateFields.stored_stored (f : StateFields) : f.stored.stored = f.stored := by
  have hrequest : (f.lastRequest.map PyValue.listed).map PyValue.listed =
      f.lastRequest.map PyValue.listed := by
    rw [Option.map_map]
    exact Option.map_congr fun v _ ↦ listed_listed v
  rw [stored, stored, hrequest]

theorem sqlite_load_save {s : SessionState} {row : List ℕ × String} (hdist : s.Distinct)
    (h : sqlite.save s = .ok row) :
    ∃ s', sqlite.load s.tenant s.sessionId (some row) = .ok s' ∧ s'.Distinct ∧
      s'.stored = s.stored := by
  obtain ⟨payload, hpayload, h⟩ := bind_eq_ok.mp h
  obtain ⟨payloadDigest, hdigest, h⟩ := bind_eq_ok.mp h
  cases h
  -- what the dictionary carries can be encoded, the names in particular
  have hbound : ∀ (name : String) (t : PyStr), (name, .str t) ∈ s.items → bound t = .ok () := by
    intro name t ht
    obtain ⟨-, -, hall⟩ := PyValue.canonicalizes_dict.mp
      (PyValue.canonicalBytes_eq_ok.mp ⟨payload, hpayload⟩)
    obtain ⟨-, -, hvalue⟩ := hall (.str (.ofString name), .str t) (List.mem_map.mpr ⟨_, ht, rfl⟩)
    obtain ⟨-, u, rfl, -⟩ := PyValue.canonicalizes_str.mp hvalue
    rw [bound, raiseIf_eq_ok, PyStr.text?_ofString]
    exact fun h ↦ nomatch h
  have hdictionary := StateFields.distinct_toDict hdist
  have hfloat := SessionState.floatFree_toDict hdist
  have hloads := strictJsonLoads_canonicalBytes hdictionary hfloat hpayload
  have hlisted : s.toDict.listed.digest = .ok payloadDigest := by
    rw [PyValue.digest, PyValue.canonicalBytes, PyValue.canonicalValue_listed]
    exact hdigest
  obtain ⟨s', hs', hfields⟩ := exists_construct (SessionState.valid_stored hdist)
  have hread : fromDict s.toDict.listed = .ok s' := by
    rw [fromDict_listed_toDict, hs']
    rw [← hfields]
    exact s'.lastRequest_ne
  have hrow : readRow payload payloadDigest = .ok s' :=
    bind_eq_ok.mpr ⟨_, hloads, bind_eq_ok.mpr ⟨_, hlisted, raiseIf_bind_eq_ok.mpr ⟨by simp, hread⟩⟩⟩
  refine ⟨s', ?_, ?_, ?_⟩
  · refine bind_eq_ok.mpr ⟨(), hbound "tenant" _ (by simp [StateFields.items]), ?_⟩
    refine bind_eq_ok.mpr ⟨(), hbound "session_id" _ (by simp [StateFields.items]), ?_⟩
    refine bind_eq_ok.mpr ⟨s', by rw [hrow]; rfl, raiseIf_bind_eq_ok.mpr ⟨?_, rfl⟩⟩
    rw [hfields]
    simp [StateFields.stored]
  · rw [hfields]
    exact StateFields.distinct_stored hdist
  · rw [hfields, StateFields.stored_stored]

theorem sqlite_lawful : sqlite.Lawful where
  load_none h := by
    obtain ⟨_, -, h⟩ := bind_eq_ok.mp h
    obtain ⟨_, -, h⟩ := bind_eq_ok.mp h
    exact construct_eq_ok.mp h
  load_save := sqlite_load_save

end States

end EventHorizon.Behavior
