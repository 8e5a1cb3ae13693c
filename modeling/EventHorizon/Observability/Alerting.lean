import EventHorizon.Canonical.Objects
import EventHorizon.Library.Transducer

/-!
# Alerts

`AlertManager.evaluate` goes over the rules and fires an alert for every enabled one that matches
the metrics, unless its alert is firing already; then it goes over the alerts and resolves those
that are firing and whose rule does not match. The first loop asks the rules about the metrics of
the call. The second asks them about no metrics at all, and no rule matches those: it resolves every
alert, also the ones of this very call.

So the alerts mirror the metrics in the calls in which no enabled rule matches, and in no others.
-/

namespace EventHorizon.Observability

/-! ## Rules -/

/-- `AlertSeverity`. -/
inductive AlertSeverity
  | info
  | warning
  | critical
  | emergency
  deriving DecidableEq, Repr

/-- The metrics of a call, by name. -/
abbrev Metrics := Table PyStr PyValue

/-- `AlertRule`, with the fields that are read when rules are evaluated. -/
structure AlertRule where
  name : PyStr
  severity : AlertSeverity
  condition : PyStr
  threshold : PyValue
  labels : Table PyStr PyStr
  annotations : Table PyStr PyStr
  enabled : Bool

/-- `hashlib.md5(f"{rule_name}:{labels}".encode()).hexdigest()[:16]`, where the labels are
sorted. -/
class Fingerprint where
  fingerprint : String → List (PyStr × PyStr) → String

section Matching

variable [FloatArithmetic]

/-- `value > threshold`. -/
def exceeds (value threshold : PyValue) : Except Exn Bool := do
  let v ← value.number
  let t ← threshold.number
  return t.lt v

/-- `AlertRule.matches`. Any exception counts as no match, and so does a threshold that is not a
number. -/
def AlertRule.matches (rule : AlertRule) (metrics : Metrics) : Bool :=
  match rule.threshold.number?, metrics.get? rule.condition with
  | some _, some value => (exceeds value rule.threshold).toOption.getD false
  | _, _ => false

@[simp] theorem AlertRule.matches_nil (rule : AlertRule) : rule.matches [] = false := by
  rw [AlertRule.matches, Table.get?_nil]
  split
  case h_1 h => cases h
  case h_2 => rfl

end Matching

/-! ## Alerts -/

/-- The status of an alert. -/
inductive Status
  | firing
  | resolved
  deriving DecidableEq, Repr

/-- `Alert`. -/
structure Alert where
  ruleName : PyStr
  severity : AlertSeverity
  message : PyStr
  labels : Table PyStr PyStr
  annotations : Table PyStr PyStr
  startsAt : ℕ
  endsAt : Option ℕ
  fingerprint : String
  status : Status
  value : Option PyValue

/-- A call of `evaluate`: the metrics, and what the clock shows when the alert of a rule is made and
when it is resolved. -/
structure Evaluation where
  metrics : Metrics
  startsAt : PyStr → ℕ
  endsAt : PyStr → ℕ

/-- `AlertManager`, as far as `evaluate` needs it. -/
structure AlertManager where
  rules : Table PyStr AlertRule
  alerts : Table String Alert

namespace AlertManager

/-- A manager that has evaluated nothing. -/
def init (rules : List AlertRule) : AlertManager where
  rules := rules.foldl (fun t rule ↦ t.put rule.name rule) []
  alerts := []

section Evaluate

variable [FloatArithmetic] [Fingerprint]

/-- The alert of a rule. Its fingerprint needs the name of the rule as UTF-8. -/
def alertOf (x : Evaluation) (rule : AlertRule) : Except Exn Alert :=
  let labels := rule.labels.put (.ofString "alertname") rule.name
  match rule.name.text? with
  | none => .error rule.name.encodeError
  | some name => .ok {
      ruleName := rule.name
      severity := rule.severity
      message := (rule.annotations.get? (.ofString "summary")).getD
        (.ofString "Alert " ++ rule.name ++ .ofString " triggered")
      labels := labels
      annotations := rule.annotations
      startsAt := x.startsAt rule.name
      endsAt := none
      fingerprint := Fingerprint.fingerprint name
        (labels.insertionSort fun f g ↦ f.1.codes ≤ g.1.codes)
      status := .firing
      value := x.metrics.get? rule.condition }

/-- The alert under the fingerprint is firing. -/
def isFiring (alerts : Table String Alert) (fingerprint : String) : Bool :=
  match alerts.get? fingerprint with
  | some existing => existing.status = .firing
  | none => false

/-- The loop over the rules. When it raises, the alerts it has put in the table stay there. -/
def fire (x : Evaluation) :
    List AlertRule → List Alert → Table String Alert → Except Exn (List Alert) × Table String Alert
  | [], fired, alerts => (.ok fired, alerts)
  | rule :: rules, fired, alerts =>
    if rule.enabled = true ∧ rule.matches x.metrics = true then
      match alertOf x rule with
      | .error e => (.error e, alerts)
      | .ok alert =>
        if isFiring alerts alert.fingerprint = true then fire x rules fired alerts
        else fire x rules (fired ++ [alert]) (alerts.put alert.fingerprint alert)
    else fire x rules fired alerts

/-- What the loop over the alerts makes of one of them. -/
def resolve (rules : Table PyStr AlertRule) (x : Evaluation) (alert : Alert) : Alert :=
  match alert.status, rules.get? alert.ruleName with
  | .firing, some rule =>
    if rule.matches [] = false then
      { alert with status := .resolved, endsAt := some (x.endsAt alert.ruleName) }
    else alert
  | _, _ => alert

/-- `AlertManager.evaluate`. The alerts it returns are those in the table. -/
def evaluate (m : AlertManager) (x : Evaluation) : Except Exn (List Alert) × AlertManager :=
  match fire x (m.rules.map Prod.snd) [] m.alerts with
  | (.error e, alerts) => (.error e, { m with alerts := alerts })
  | (.ok fired, alerts) => (.ok (fired.map (resolve m.rules x)),
      { m with alerts := alerts.map fun r ↦ (r.1, resolve m.rules x r.2) })

/-- The manager after a list of calls. -/
def after (m : AlertManager) (calls : List Evaluation) : AlertManager :=
  Transducer.after (fun m x ↦ evaluate m x) m calls

end Evaluate

/-- The alert of a rule is firing. -/
def Firing (m : AlertManager) (name : PyStr) : Prop :=
  ∃ r ∈ m.alerts, r.2.ruleName = name ∧ r.2.status = .firing

end AlertManager

/-! ## The two loops -/

namespace AlertManager

section Loops

variable [FloatArithmetic] {rules : List AlertRule} {table : Table PyStr AlertRule}
  {m : AlertManager}
  {x : Evaluation}

/-- An alert of a known rule is resolved by the second loop, whatever the metrics are. -/
theorem resolve_status {a : Alert} (h : a.ruleName ∈ table.map Prod.fst) :
    (resolve table x a).status = .resolved := by
  obtain ⟨rule, hrule⟩ : ∃ rule, table.get? a.ruleName = some rule :=
    Option.ne_none_iff_exists'.mp fun hnone ↦ Table.get?_eq_none_iff.mp hnone h
  rw [resolve, hrule]
  cases hstatus : a.status with
  | firing => simp
  | resolved => simpa using hstatus

@[simp] theorem resolve_ruleName (a : Alert) : (resolve table x a).ruleName = a.ruleName := by
  rw [resolve]
  split
  · split <;> rfl
  · rfl

variable [Fingerprint]

omit [FloatArithmetic] in
theorem ruleName_of_alertOf {rule : AlertRule} {a : Alert} (h : alertOf x rule = .ok a) :
    a.ruleName = rule.name := by
  rw [alertOf] at h
  split at h
  · cases h
  · cases h
    rfl

/-- The first loop does nothing when no enabled rule matches. -/
theorem fire_of_quiet (h : ∀ rule ∈ rules, rule.enabled = true → rule.matches x.metrics = false)
    (fired : List Alert) (alerts : Table String Alert) :
    fire x rules fired alerts = (.ok fired, alerts) := by
  induction rules with
  | nil => rfl
  | cons rule rules ih =>
    obtain ⟨hrule, hrules⟩ := List.forall_mem_cons.mp h
    rw [fire, if_neg fun hmatch ↦ by simp [hrule hmatch.1] at hmatch]
    exact ih hrules

theorem mem_fire {fired : List Alert} {alerts : Table String Alert} {r : String × Alert}
    (hr : r ∈ (fire x rules fired alerts).2) :
    r ∈ alerts ∨ r.2.ruleName ∈ rules.map AlertRule.name := by
  induction rules generalizing fired alerts with
  | nil => exact .inl hr
  | cons rule rules ih =>
    have hlater : ∀ {fired' alerts'}, r ∈ (fire x rules fired' alerts').2 →
        r ∈ alerts' ∨ r.2.ruleName ∈ (rule :: rules).map AlertRule.name :=
      fun h ↦ (ih h).imp_right (List.mem_cons_of_mem _)
    rw [fire] at hr
    split at hr
    case isFalse => exact hlater hr
    case isTrue =>
      split at hr
      case h_1 => exact .inl hr
      case h_2 a ha =>
        split at hr
        case isTrue => exact hlater hr
        case isFalse =>
          rcases hlater hr with hmem | hname
          · rcases Table.mem_of_mem_put hmem with rfl | hmem
            · exact .inr (List.mem_cons.mpr (.inl (ruleName_of_alertOf ha)))
            · exact .inl hmem
          · exact .inr hname

theorem ruleName_of_fire {fired fired' : List Alert} {alerts : Table String Alert}
    (h : (fire x rules fired alerts).1 = .ok fired') {a : Alert} (ha : a ∈ fired') :
    a ∈ fired ∨ a.ruleName ∈ rules.map AlertRule.name := by
  induction rules generalizing fired alerts with
  | nil => exact .inl (Except.ok.inj h ▸ ha)
  | cons rule rules ih =>
    have hlater : ∀ {fired alerts}, (fire x rules fired alerts).1 = .ok fired' →
        a ∈ fired ∨ a.ruleName ∈ (rule :: rules).map AlertRule.name :=
      fun h ↦ (ih h).imp_right (List.mem_cons_of_mem _)
    rw [fire] at h
    split at h
    case isFalse => exact hlater h
    case isTrue =>
      split at h
      case h_1 => cases h
      case h_2 b hb =>
        split at h
        case isTrue => exact hlater h
        case isFalse =>
          rcases hlater h with hmem | hname
          · rcases List.mem_append.mp hmem with hold | hnew
            · exact .inl hold
            · rw [List.mem_singleton.mp hnew]
              exact .inr (List.mem_cons.mpr (.inl (ruleName_of_alertOf hb)))
          · exact .inr hname

/-! ## Runs -/

/-- Every alert is of a known rule. -/
def Known (m : AlertManager) : Prop := ∀ r ∈ m.alerts, r.2.ruleName ∈ m.rules.map Prod.fst

omit [FloatArithmetic] [Fingerprint] in
theorem init_rules (h : (rules.map AlertRule.name).Nodup) :
    (init rules).rules = rules.map fun rule ↦ (rule.name, rule) := by
  have hmap : rules.foldl (fun t rule ↦ Table.put t rule.name rule) ([] : Table PyStr AlertRule) =
      (rules.map fun rule ↦ (rule.name, rule)).foldl (fun t r ↦ Table.put t r.1 r.2) [] := by
    rw [List.foldl_map]
  rw [init, hmap, Table.foldl_put (by simpa [Function.comp_def] using h), List.nil_append]

@[simp] theorem evaluate_rules : (evaluate m x).2.rules = m.rules := by
  rw [evaluate]
  split <;> rfl

@[simp] theorem after_rules (calls : List Evaluation) : (m.after calls).rules = m.rules :=
  Transducer.after_invariant (P := fun m' : AlertManager ↦ m'.rules = m.rules) rfl
    fun _ _ h ↦ evaluate_rules.trans h

theorem mem_evaluate {r : String × Alert} (hr : r ∈ (evaluate m x).2.alerts) :
    ∃ a, (r.1, a) ∈ (fire x (m.rules.map Prod.snd) [] m.alerts).2 ∧ r.2.ruleName = a.ruleName := by
  rw [evaluate] at hr
  split at hr
  case h_1 hfire => exact ⟨r.2, by rw [hfire]; exact hr, rfl⟩
  case h_2 hfire =>
    obtain ⟨⟨k, a⟩, ha, rfl⟩ := List.mem_map.mp hr
    exact ⟨a, by rw [hfire]; exact ha, resolve_ruleName a⟩

theorem Known.evaluate (hrules : ∀ r ∈ m.rules, r.1 = r.2.name) (h : m.Known) :
    (evaluate m x).2.Known := by
  intro r hr
  obtain ⟨a, ha, hname⟩ := mem_evaluate hr
  rw [hname, evaluate_rules]
  rcases mem_fire ha with hold | hnew
  · exact h _ hold
  · rw [List.map_map] at hnew
    obtain ⟨s, hs, hsname⟩ := List.mem_map.mp hnew
    exact List.mem_map.mpr ⟨s, hs, (hrules s hs).trans hsname⟩

theorem known_after (h : (rules.map AlertRule.name).Nodup) (calls : List Evaluation) :
    ((init rules).after calls).Known := by
  refine (Transducer.after_invariant
    (P := fun m : AlertManager ↦ m.rules = (init rules).rules ∧ m.Known)
    ⟨rfl, fun r hr ↦ absurd hr List.not_mem_nil⟩ fun m x hm ↦ ⟨evaluate_rules.trans hm.1, ?_⟩).2
  refine hm.2.evaluate fun r hr ↦ ?_
  rw [hm.1, init_rules h] at hr
  obtain ⟨rule, -, rfl⟩ := List.mem_map.mp hr
  rfl

/-- **A call that returns leaves no alert firing.** -/
theorem status_of_evaluate {fired : List Alert} (h : m.Known)
    (hrules : ∀ r ∈ m.rules, r.1 = r.2.name) (hfired : (evaluate m x).1 = .ok fired)
    {r : String × Alert} (hr : r ∈ (evaluate m x).2.alerts) : r.2.status = .resolved := by
  have hknown := h.evaluate (x := x) hrules r hr
  rw [evaluate_rules] at hknown
  rw [evaluate] at hr hfired
  split at hr
  case h_1 hfire =>
    rw [hfire] at hfired
    cases hfired
  case h_2 hfire =>
    obtain ⟨⟨k, a⟩, -, rfl⟩ := List.mem_map.mp hr
    exact resolve_status (by simpa using hknown)

theorem status_of_fired {fired : List Alert} (hrules : ∀ r ∈ m.rules, r.1 = r.2.name)
    (hfired : (evaluate m x).1 = .ok fired) {a : Alert} (ha : a ∈ fired) :
    a.status = .resolved := by
  rw [evaluate] at hfired
  split at hfired
  case h_1 => cases hfired
  case h_2 fired' alerts hfire =>
    cases hfired
    obtain ⟨b, hb, rfl⟩ := List.mem_map.mp ha
    refine resolve_status ?_
    rcases ruleName_of_fire (congrArg Prod.fst hfire) hb with hold | hname
    · exact absurd hold List.not_mem_nil
    · rw [List.map_map] at hname
      obtain ⟨r, hr, heq⟩ := List.mem_map.mp hname
      exact List.mem_map.mpr ⟨r, hr, (hrules r hr).trans heq⟩

/-! ## Mirroring the metrics -/

/-- The rule of this name is enabled and matches. -/
def Matching (rules : List AlertRule) (metrics : Metrics) (name : PyStr) : Prop :=
  ∃ rule ∈ rules, rule.name = name ∧ rule.enabled = true ∧ rule.matches metrics = true

/-- What a call of `evaluate` is to do: afterwards the firing alerts are those of the rules that
match, it returns the alerts of these that were not firing before, and an alert is resolved exactly
when its rule does not match. -/
structure Mirrors (rules : List AlertRule) (x : Evaluation) (before : AlertManager)
    (answer : Except Exn (List Alert)) (after : AlertManager) : Prop where
  firing : ∀ name, after.Firing name ↔ Matching rules x.metrics name
  returned : ∃ fired, answer = .ok fired ∧ (fired.map Alert.ruleName).Nodup ∧
    ∀ name, name ∈ fired.map Alert.ruleName ↔ Matching rules x.metrics name ∧ ¬before.Firing name
  resolved : ∀ r ∈ after.alerts,
    (r.2.status = .resolved ↔ ¬Matching rules x.metrics r.2.ruleName)

/-- **When the alerts mirror the metrics**: in the calls of a run in which no enabled rule matches,
and in no others. Of a call that returns, every alert that it has fired is resolved, and no alert is
firing after it. -/
theorem mirrors_iff (hnames : (rules.map AlertRule.name).Nodup) (calls : List Evaluation)
    (x : Evaluation) :
    (Mirrors rules x ((init rules).after calls) (evaluate ((init rules).after calls) x).1
      (evaluate ((init rules).after calls) x).2 ↔
      ∀ rule ∈ rules, rule.enabled = true → rule.matches x.metrics = false) ∧
    ∀ fired, (evaluate ((init rules).after calls) x).1 = .ok fired →
      (∀ a ∈ fired, a.status = .resolved) ∧
        ∀ name, ¬(evaluate ((init rules).after calls) x).2.Firing name := by
  have hknown := known_after hnames calls
  have hrules : ((init rules).after calls).rules = rules.map fun rule ↦ (rule.name, rule) :=
    (after_rules calls).trans (init_rules hnames)
  have hvalues : ((init rules).after calls).rules.map Prod.snd = rules := by
    rw [hrules, List.map_map]
    exact List.map_id rules
  have hkeys : ∀ r ∈ ((init rules).after calls).rules, r.1 = r.2.name := by
    intro r hr
    rw [hrules] at hr
    obtain ⟨rule, -, rfl⟩ := List.mem_map.mp hr
    rfl
  generalize (init rules).after calls = m at *
  -- what a call fires it resolves itself, for the loop runs over all alerts afterwards
  have hquiet : ∀ fired, (evaluate m x).1 = .ok fired → ∀ name, ¬(evaluate m x).2.Firing name := by
    rintro fired hfired name ⟨r, hr, -, hfiring⟩
    rw [status_of_evaluate hknown hkeys hfired hr] at hfiring
    cases hfiring
  refine ⟨⟨?_, ?_⟩, fun fired hfired ↦ ⟨fun a ↦ status_of_fired hkeys hfired, hquiet fired hfired⟩⟩
  · intro h rule hrule henabled
    refine Bool.eq_false_iff.mpr fun hmatch ↦ ?_
    obtain ⟨fired, hfired, -, -⟩ := h.returned
    exact hquiet fired hfired rule.name
      ((h.firing rule.name).mpr ⟨rule, hrule, rfl, henabled, hmatch⟩)
  · intro h
    have hnone : ∀ name, ¬Matching rules x.metrics name := by
      rintro name ⟨rule, hrule, -, henabled, hmatch⟩
      rw [h rule hrule henabled] at hmatch
      cases hmatch
    have hanswer : (evaluate m x).1 = .ok [] := by
      rw [evaluate, hvalues, fire_of_quiet h]
      rfl
    have hresolved : ∀ r ∈ (evaluate m x).2.alerts, r.2.status = .resolved :=
      fun r hr ↦ status_of_evaluate hknown hkeys hanswer hr
    refine ⟨fun name ↦ iff_of_false (hquiet _ hanswer name) (hnone name), ⟨[], hanswer,
      List.nodup_nil, fun name ↦ ?_⟩, fun r hr ↦ iff_of_true (hresolved r hr) (hnone _)⟩
    exact iff_of_false List.not_mem_nil fun hname ↦ hnone name hname.1

end Loops

/-! ### A rule that matches -/

namespace Sample

/-- No `float` takes part. -/
@[reducible] def arithmetic : FloatArithmetic := ⟨fun _ _ ↦ false, fun _ _ ↦ false, fun f _ ↦ f⟩

/-- A fingerprint that tells the names apart. -/
@[reducible] def fingerprint : Fingerprint := ⟨fun name _ ↦ name⟩

/-- The load is above 80. -/
def rule : AlertRule where
  name := .ofString "HighLoad"
  severity := .critical
  condition := .ofString "load"
  threshold := .int 80
  labels := []
  annotations := []
  enabled := true

/-- A call with the given load. -/
def call (load : ℤ) : Evaluation where
  metrics := [(.ofString "load", .int load)]
  startsAt := fun _ ↦ 0
  endsAt := fun _ ↦ 0

end Sample

/-- Two calls with a low load, and one with a high load after them, whose alert is resolved. -/
theorem mirrors_sample :
    let _ := Sample.arithmetic
    let _ := Sample.fingerprint
    Mirrors [Sample.rule] (Sample.call 40) ((init [Sample.rule]).after [Sample.call 20])
      (evaluate ((init [Sample.rule]).after [Sample.call 20]) (Sample.call 40)).1
      (evaluate ((init [Sample.rule]).after [Sample.call 20]) (Sample.call 40)).2 ∧
    ∃ a, (evaluate ((init [Sample.rule]).after [Sample.call 20, Sample.call 40])
      (Sample.call 95)).1 = .ok [a] ∧ a.status = .resolved := by
  intro _ _
  have hnames : ([Sample.rule].map AlertRule.name).Nodup := List.nodup_singleton _
  have hfired : ∃ a, (evaluate ((init [Sample.rule]).after [Sample.call 20, Sample.call 40])
      (Sample.call 95)).1 = .ok [a] := ⟨_, rfl⟩
  refine ⟨(mirrors_iff hnames _ _).1.mpr fun rule hrule _ ↦ ?_, ?_⟩
  · rw [List.mem_singleton.mp hrule]
    rfl
  · obtain ⟨a, ha⟩ := hfired
    exact ⟨a, ha, ((mirrors_iff hnames _ _).2 _ ha).1 a (List.mem_singleton_self a)⟩

end AlertManager

end EventHorizon.Observability
