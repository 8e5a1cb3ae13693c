import EventHorizon.Policy.Ceiling

/-!
# Decaying authority

The records of `trust_decay.py`: an authority, the steps that take from it, and the profile that
lists them. The constructors check their fields and put collections into normal form; `Valid` says
what an authority that was constructed has passed. A step takes items out of collections and caps
numbers, so applying it is one turn of a reduction.
-/

namespace EventHorizon.Decay

open Policy (invalid keysOf strArray optJson)

/-- The observations a step can wait for. -/
inductive Trigger
  | elapsedMs
  | useCount
  | readBytes
  | writeBytes
  | denials
  | riskScore
  | canaryEvents
  | trustAgeMs
  | policyAgeMs
  | environmentChanges
  | workloadRestarts
  deriving DecidableEq, Repr

def Trigger.text : Trigger → String
  | .elapsedMs => "elapsed_ms"
  | .useCount => "use_count"
  | .readBytes => "read_bytes"
  | .writeBytes => "write_bytes"
  | .denials => "denials"
  | .riskScore => "risk_score"
  | .canaryEvents => "canary_events"
  | .trustAgeMs => "trust_age_ms"
  | .policyAgeMs => "policy_age_ms"
  | .environmentChanges => "environment_changes"
  | .workloadRestarts => "workload_restarts"

/-! ## Checks -/

/-- `_nonnegative`. -/
def nonnegative (value : ℤ) (name : String) : Except Exn ℤ :=
  Policy.nonnegative value name maxSafeInteger

/-- `_strings`. -/
def strings (value : List String) (name : String) : Except Exn (List String) := do
  raiseIf (256 < value.length) (invalid (name ++ " must be a bounded array"))
  let result := value.insertionSort (· ≤ ·)
  raiseIf ((∃ item ∈ result, item = "") ∨ ¬result.Nodup)
    (invalid (name ++ " items must be unique non-empty strings"))
  return result

/-- An array of strings in the normal form of `_strings`. -/
def IsNames (xs : List String) : Prop :=
  xs.length ≤ 256 ∧ (∀ x ∈ xs, x ≠ "") ∧ xs.Pairwise (· < ·)

instance (xs : List String) : Decidable (IsNames xs) := inferInstanceAs (Decidable (_ ∧ _ ∧ _))

theorem IsNames.sublist {xs ys : List String} (h : IsNames xs) (hs : ys.Sublist xs) : IsNames ys :=
  ⟨Nat.le_trans hs.length_le h.1, fun y hy ↦ h.2.1 y (hs.subset hy), h.2.2.sublist hs⟩

theorem nonnegative_bind_eq_ok {β : Type} {n : ℤ} {name : String} {f : ℤ → Except Exn β} {b : β} :
    (nonnegative n name >>= f) = .ok b ↔ (0 ≤ n ∧ n ≤ maxSafeInteger) ∧ f n = .ok b :=
  Policy.nonnegative_bind_eq_ok

theorem strings_bind_eq_ok {β : Type} {xs : List String} {name : String}
    {f : List String → Except Exn β} {b : β} (h : xs.Pairwise (· < ·)) :
    (strings xs name >>= f) = .ok b ↔ IsNames xs ∧ f xs = .ok b := by
  have hnodup : xs.Nodup := h.imp fun hlt ↦ ne_of_lt hlt
  rw [bind_eq_ok]
  simp only [strings, raiseIf_bind_eq_ok, insertionSort_of_pairwise h, IsNames]
  constructor
  · rintro ⟨ys, ⟨hlen, hitems, hys⟩, hf⟩
    cases hys
    rw [not_or, not_exists] at hitems
    exact ⟨⟨Nat.not_lt.mp hlen, fun x hx he ↦ hitems.1 x ⟨hx, he⟩, h⟩, hf⟩
  · rintro ⟨⟨hlen, hitems, -⟩, hf⟩
    refine ⟨xs, ⟨Nat.not_lt.mpr hlen, ?_, rfl⟩, hf⟩
    rintro (⟨x, hx, he⟩ | hdup)
    · exact hitems x hx he
    · exact hdup hnodup

/-! ## Authorities -/

structure DecayAuthority where
  expiresAtMs : ℤ
  remainingCalls : ℤ
  remainingReadBytes : ℤ
  remainingWriteBytes : ℤ
  networkDestinations : List String
  tools : List String
  actions : List String
  resources : List String
  argumentRanges : Table String (ℤ × ℤ)
  maximumParallelism : ℤ
  maximumEffectSeverity : ℤ
  deriving DecidableEq

namespace DecayAuthority

/-- `DecayAuthority.__post_init__`. -/
def postInit (a : DecayAuthority) : Except Exn DecayAuthority := do
  let _ ← nonnegative a.expiresAtMs "expires_at_ms"
  let _ ← nonnegative a.remainingCalls "remaining_calls"
  let _ ← nonnegative a.remainingReadBytes "remaining_read_bytes"
  let _ ← nonnegative a.remainingWriteBytes "remaining_write_bytes"
  let _ ← nonnegative a.maximumParallelism "maximum_parallelism"
  let _ ← nonnegative a.maximumEffectSeverity "maximum_effect_severity"
  raiseIf (10 < a.maximumEffectSeverity) (invalid "effect severity must be between zero and ten")
  let networkDestinations ← strings a.networkDestinations "network_destinations"
  let tools ← strings a.tools "tools"
  let actions ← strings a.actions "actions"
  let resources ← strings a.resources "resources"
  raiseIf (256 < a.argumentRanges.length) (invalid "argument ranges must be a bounded object")
  raiseIf (∃ row ∈ a.argumentRanges, row.1 = "") (invalid "argument range is malformed")
  raiseIf (∃ row ∈ a.argumentRanges, row.2.2 < row.2.1)
    (invalid "argument range bounds are invalid")
  return { a with
    networkDestinations := networkDestinations
    tools := tools
    actions := actions
    resources := resources
    argumentRanges := Json.sortFields a.argumentRanges }

/-- The ranges are in normal form. -/
def RangesNormal (m : Table String (ℤ × ℤ)) : Prop :=
  m.length ≤ 256 ∧ (∀ row ∈ m, row.1 ≠ "" ∧ row.2.1 ≤ row.2.2) ∧ (keysOf m).Pairwise (· < ·)

instance (m : Table String (ℤ × ℤ)) : Decidable (RangesNormal m) :=
  inferInstanceAs (Decidable (_ ∧ _ ∧ _))

/-- An authority that was constructed. -/
structure Valid (a : DecayAuthority) : Prop where
  expiresAtMs : 0 ≤ a.expiresAtMs ∧ a.expiresAtMs ≤ maxSafeInteger
  remainingCalls : 0 ≤ a.remainingCalls ∧ a.remainingCalls ≤ maxSafeInteger
  remainingReadBytes : 0 ≤ a.remainingReadBytes ∧ a.remainingReadBytes ≤ maxSafeInteger
  remainingWriteBytes : 0 ≤ a.remainingWriteBytes ∧ a.remainingWriteBytes ≤ maxSafeInteger
  maximumParallelism : 0 ≤ a.maximumParallelism ∧ a.maximumParallelism ≤ maxSafeInteger
  maximumEffectSeverity : 0 ≤ a.maximumEffectSeverity ∧ a.maximumEffectSeverity ≤ maxSafeInteger
  severity_le : a.maximumEffectSeverity ≤ 10
  networkDestinations : IsNames a.networkDestinations
  tools : IsNames a.tools
  actions : IsNames a.actions
  resources : IsNames a.resources
  argumentRanges : RangesNormal a.argumentRanges

variable {a b : DecayAuthority}

/-- The collections are in normal form. -/
structure Normal (a : DecayAuthority) : Prop where
  networkDestinations : a.networkDestinations.Pairwise (· < ·)
  tools : a.tools.Pairwise (· < ·)
  actions : a.actions.Pairwise (· < ·)
  resources : a.resources.Pairwise (· < ·)
  argumentRanges : (keysOf a.argumentRanges).Pairwise (· < ·)

theorem Valid.normal (h : a.Valid) : a.Normal where
  networkDestinations := h.networkDestinations.2.2
  tools := h.tools.2.2
  actions := h.actions.2.2
  resources := h.resources.2.2
  argumentRanges := h.argumentRanges.2.2

/-- An authority whose collections are in normal form is constructed as it is. -/
theorem postInit_eq_ok (h : a.Normal) : a.postInit = .ok b ↔ a.Valid ∧ b = a := by
  have hsorted : Json.sortFields a.argumentRanges = a.argumentRanges :=
    Json.sortFields_of_sorted ((List.pairwise_map.mp h.argumentRanges).imp le_of_lt)
  simp only [postInit, nonnegative_bind_eq_ok, raiseIf_bind_eq_ok,
    strings_bind_eq_ok h.networkDestinations, strings_bind_eq_ok h.tools,
    strings_bind_eq_ok h.actions, strings_bind_eq_ok h.resources, hsorted, not_exists, not_and,
    not_lt]
  constructor
  · rintro ⟨h1, h2, h3, h4, h5, h6, h7, h8, h9, h10, h11, hlen, hkey, hbounds, hb⟩
    exact ⟨⟨h1, h2, h3, h4, h5, h6, h7, h8, h9, h10, h11, hlen,
      fun row hrow ↦ ⟨hkey row hrow, hbounds row hrow⟩, h.argumentRanges⟩, (Except.ok.inj hb).symm⟩
  · rintro ⟨⟨h1, h2, h3, h4, h5, h6, h7, h8, h9, h10, h11, hlen, hrows, -⟩, rfl⟩
    exact ⟨h1, h2, h3, h4, h5, h6, h7, h8, h9, h10, h11, hlen, fun row hrow ↦ (hrows row hrow).1,
      fun row hrow ↦ (hrows row hrow).2, rfl⟩

def toDict (a : DecayAuthority) : Json := .obj [
  ("expires_at_ms", .int a.expiresAtMs), ("remaining_calls", .int a.remainingCalls),
  ("remaining_read_bytes", .int a.remainingReadBytes),
  ("remaining_write_bytes", .int a.remainingWriteBytes),
  ("network_destinations", strArray a.networkDestinations), ("tools", strArray a.tools),
  ("actions", strArray a.actions), ("resources", strArray a.resources),
  ("argument_ranges", .obj (a.argumentRanges.map fun row ↦
    (row.1, .arr [.int row.2.1, .int row.2.2]))),
  ("maximum_parallelism", .int a.maximumParallelism),
  ("maximum_effect_severity", .int a.maximumEffectSeverity)]

/-- `is_subset_of`. -/
def isSubsetOf (a prior : DecayAuthority) : Bool :=
  a.expiresAtMs ≤ prior.expiresAtMs ∧ a.remainingCalls ≤ prior.remainingCalls ∧
    a.remainingReadBytes ≤ prior.remainingReadBytes ∧
    a.remainingWriteBytes ≤ prior.remainingWriteBytes ∧
    a.maximumParallelism ≤ prior.maximumParallelism ∧
    a.maximumEffectSeverity ≤ prior.maximumEffectSeverity ∧
    a.networkDestinations ⊆ prior.networkDestinations ∧ a.tools ⊆ prior.tools ∧
    a.actions ⊆ prior.actions ∧ a.resources ⊆ prior.resources ∧
    keysOf a.argumentRanges ⊆ keysOf prior.argumentRanges ∧
    ∀ row ∈ a.argumentRanges, ∀ bounds ∈ prior.argumentRanges.get? row.1,
      bounds.1 ≤ row.2.1 ∧ row.2.2 ≤ bounds.2

/-- `permits`. -/
def permits [Platform] (a : DecayAuthority) (r : Policy.ActionRequest) (nowMs : ℤ) : Bool :=
  nowMs < a.expiresAtMs ∧ 1 ≤ a.remainingCalls ∧ r.operation ∈ a.actions ∧
    r.resourceId ∈ a.resources ∧
    ∀ row ∈ a.argumentRanges, ∀ value ∈ Json.lookup r.arguments row.1,
      ∃ n ∈ value.int?, row.2.1 ≤ n ∧ n ≤ row.2.2

end DecayAuthority

/-! ## Steps -/

structure DecayStep where
  trigger : Trigger
  threshold : ℤ
  removeNetworkDestinations : List String := []
  removeTools : List String := []
  removeActions : List String := []
  removeResources : List String := []
  maximumCalls : Option ℤ := none
  maximumReadBytes : Option ℤ := none
  maximumWriteBytes : Option ℤ := none
  maximumParallelism : Option ℤ := none
  maximumEffectSeverity : Option ℤ := none
  shortenExpirationToMs : Option ℤ := none
  deriving DecidableEq

/-- A number that may be absent is in range when it is there. -/
def optionalNonnegative (value : Option ℤ) (name : String) : Except Exn Unit :=
  match value with
  | none => .ok ()
  | some n => (nonnegative n name).map fun _ ↦ ()

namespace DecayStep

/-- `DecayStep.__post_init__`. -/
def postInit (s : DecayStep) : Except Exn DecayStep := do
  let _ ← nonnegative s.threshold "decay threshold"
  let removeNetworkDestinations ← strings s.removeNetworkDestinations "remove_network_destinations"
  let removeTools ← strings s.removeTools "remove_tools"
  let removeActions ← strings s.removeActions "remove_actions"
  let removeResources ← strings s.removeResources "remove_resources"
  optionalNonnegative s.maximumCalls "maximum_calls"
  optionalNonnegative s.maximumReadBytes "maximum_read_bytes"
  optionalNonnegative s.maximumWriteBytes "maximum_write_bytes"
  optionalNonnegative s.maximumParallelism "maximum_parallelism"
  optionalNonnegative s.maximumEffectSeverity "maximum_effect_severity"
  optionalNonnegative s.shortenExpirationToMs "shorten_expiration_to_ms"
  return { s with
    removeNetworkDestinations := removeNetworkDestinations
    removeTools := removeTools
    removeActions := removeActions
    removeResources := removeResources }

def toDict (s : DecayStep) : Json := .obj [
  ("trigger", .str s.trigger.text), ("threshold", .int s.threshold),
  ("remove_network_destinations", strArray s.removeNetworkDestinations),
  ("remove_tools", strArray s.removeTools), ("remove_actions", strArray s.removeActions),
  ("remove_resources", strArray s.removeResources),
  ("maximum_calls", optJson .int s.maximumCalls),
  ("maximum_read_bytes", optJson .int s.maximumReadBytes),
  ("maximum_write_bytes", optJson .int s.maximumWriteBytes),
  ("maximum_parallelism", optJson .int s.maximumParallelism),
  ("maximum_effect_severity", optJson .int s.maximumEffectSeverity),
  ("shorten_expiration_to_ms", optJson .int s.shortenExpirationToMs)]

/-- The order of the steps of a profile, by trigger and threshold. -/
def le (s t : DecayStep) : Prop :=
  s.trigger.text < t.trigger.text ∨ s.trigger = t.trigger ∧ s.threshold ≤ t.threshold

instance (s t : DecayStep) : Decidable (le s t) := inferInstanceAs (Decidable (_ ∨ _))

/-- The caps of a step that was constructed are not negative. -/
structure Valid (s : DecayStep) : Prop where
  maximumCalls : ∀ n ∈ s.maximumCalls, 0 ≤ n
  maximumReadBytes : ∀ n ∈ s.maximumReadBytes, 0 ≤ n
  maximumWriteBytes : ∀ n ∈ s.maximumWriteBytes, 0 ≤ n
  maximumParallelism : ∀ n ∈ s.maximumParallelism, 0 ≤ n
  maximumEffectSeverity : ∀ n ∈ s.maximumEffectSeverity, 0 ≤ n

theorem nonneg_of_optionalNonnegative {value : Option ℤ} {name : String}
    (h : optionalNonnegative value name = .ok ()) : ∀ n ∈ value, 0 ≤ n := by
  rintro n rfl
  obtain ⟨m, hm, -⟩ := map_eq_ok.mp h
  exact (Policy.nonnegative_eq_ok.mp hm).1.1

theorem valid_of_postInit {s t : DecayStep} (h : s.postInit = .ok t) : s.Valid := by
  obtain ⟨_, -, h⟩ := bind_eq_ok.mp h
  obtain ⟨_, -, h⟩ := bind_eq_ok.mp h
  obtain ⟨_, -, h⟩ := bind_eq_ok.mp h
  obtain ⟨_, -, h⟩ := bind_eq_ok.mp h
  obtain ⟨_, -, h⟩ := bind_eq_ok.mp h
  obtain ⟨⟨⟩, hcalls, h⟩ := bind_eq_ok.mp h
  obtain ⟨⟨⟩, hread, h⟩ := bind_eq_ok.mp h
  obtain ⟨⟨⟩, hwrite, h⟩ := bind_eq_ok.mp h
  obtain ⟨⟨⟩, hparallel, h⟩ := bind_eq_ok.mp h
  obtain ⟨⟨⟩, hseverity, h⟩ := bind_eq_ok.mp h
  exact ⟨nonneg_of_optionalNonnegative hcalls, nonneg_of_optionalNonnegative hread,
    nonneg_of_optionalNonnegative hwrite, nonneg_of_optionalNonnegative hparallel,
    nonneg_of_optionalNonnegative hseverity⟩

end DecayStep

end EventHorizon.Decay
