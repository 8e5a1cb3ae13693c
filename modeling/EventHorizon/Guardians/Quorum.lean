import EventHorizon.Policy.StaticCeiling
import EventHorizon.Canonical.Access

/-!
# The guardian quorum

`GuardianQuorum` of `guardians.py` asks every guardian about a request, turns whatever comes of it
into a decision, adds a denial for each required guardian that is not there, and replaces decisions
that repeat a name or disagree about the version of the policy. `allowed` looks at the list that
results.

A guardian is known by its `name`, by the `policy_digest` of its `policy`, and by what comes of
asking it; nothing is assumed about any of these. The quorum allows a request when the guardians are
unanimous in the sense of `Unanimous`, which does not mention their order.
-/

namespace EventHorizon.Guardians

open Policy

/-! ## Guardians and their answers -/

/-- The fields of a `GuardianDecision` as a guardian filled them. -/
structure Returned where
  guardian : PyValue
  allowed : PyValue
  reason : PyValue
  evidence : PyValue
  requestDigest : PyValue

/-- What comes of asking a guardian. -/
inductive Outcome
  | timedOut
  | silent
  | raised
  | malformed
  | returned (d : Returned)

/-- A decision that has been checked. -/
structure Decision where
  guardian : PyStr
  allowed : Bool
  reason : PyStr
  evidence : List (PyKey × PyValue)
  requestDigest : PyStr

/-- `getattr(guardian, "name", "malformed-guardian")` when there is no name. -/
def malformedGuardian : PyStr := .ofString "malformed-guardian"

/-- `STATIC_POLICY_GUARDIAN`. -/
def staticName : PyStr := .ofString staticPolicyGuardian

/-- `REQUIRED_GUARDIANS`, in the order of the names. -/
def requiredGuardians : List PyStr := [
  .ofString "behavioral-transition-guardian", .ofString "executor-attestation-guardian",
  .ofString "lineage-budget-guardian", staticName]

theorem malformedGuardian_ne_staticName : malformedGuardian ≠ staticName := by
  intro h
  exact absurd (PyStr.ofString_injective h) (by decide)

namespace Decision

/-- `decision.evidence.get("policy_digest")`, if the key is there. -/
def reported? (d : Decision) : Option PyValue := PyValue.at? d.evidence "policy_digest"

end Decision

/-- The checks on a value that is a `GuardianDecision`. -/
def Returned.checked? (d : Returned) (name digest : PyStr) : Option Decision :=
  match d.guardian, d.allowed, d.reason, d.evidence, d.requestDigest with
  | .str guardian, .bool allowed, .str reason, .dict evidence, .str requestDigest =>
    if guardian = name ∧ reason ≠ [] ∧ requestDigest = digest then
      some ⟨guardian, allowed, reason, evidence, requestDigest⟩
    else none
  | _, _, _, _, _ => none

/-- The fields of a decision as they were returned. -/
def Decision.raw (d : Decision) : Returned :=
  ⟨.str d.guardian, .bool d.allowed, .str d.reason, .dict d.evidence, .str d.requestDigest⟩

theorem Returned.checked?_eq_some {d : Returned} {name digest : PyStr} {c : Decision} :
    d.checked? name digest = some c ↔
      c.guardian = name ∧ c.reason ≠ [] ∧ c.requestDigest = digest ∧ d = c.raw := by
  obtain ⟨guardian, allowed, reason, evidence, requestDigest⟩ := d
  constructor
  · intro h
    unfold checked? at h
    split at h
    · split at h
      case isTrue hc =>
        cases h
        simp_all [Decision.raw]
      case isFalse => cases h
    · cases h
  · rintro ⟨hname, hreason, hdigest, h⟩
    cases h
    exact if_pos ⟨hname, hreason, hdigest⟩

section Quorum

variable [Platform]

/-- A guardian. Its policy's digest is nothing when there is no policy or no such attribute, and may
raise, as the digest of a policy outside the canonical limits does. -/
structure Guardian where
  name : Option PyStr
  policyDigest : Except Exn (Option PyValue)
  evaluate : ActionRequest → Outcome

/-- The name the quorum uses for the guardian. -/
def Guardian.identity (g : Guardian) : PyStr := g.name.getD malformedGuardian

theorem Guardian.identity_eq_staticName {g : Guardian} :
    g.identity = staticName ↔ g.name = some staticName := by
  rw [identity]
  cases g.name with
  | none => exact iff_of_false malformedGuardian_ne_staticName (by simp)
  | some n => simp

/-- A denial in the name of a guardian. -/
def veto (name : PyStr) (reason : String) (digest : PyStr) : Decision :=
  ⟨name, false, .ofString reason, [], digest⟩

/-- What `_evaluate_one` makes of an outcome. -/
def decisionOf (name digest : PyStr) : Outcome → Decision
  | .timedOut => veto name "guardian timed out" digest
  | .silent => veto name "guardian returned no decision" digest
  | .raised => veto name "guardian failed closed" digest
  | .malformed => veto name "guardian response binding or schema mismatch" digest
  | .returned d =>
    (d.checked? name digest).getD (veto name "guardian response binding or schema mismatch" digest)

/-- `_evaluate_one`. -/
def evaluateOne (r : ActionRequest) (g : Guardian) : Except Exn Decision := do
  let requestDigest ← r.requestDigest
  return decisionOf g.identity (.ofString requestDigest) (g.evaluate r)

/-- `_expected_policy_digest`. -/
def expectedPolicyDigest : List Guardian → Except Exn (Option PyStr)
  | [] => .ok none
  | g :: gs =>
    if g.name = some staticName then do
      match ← g.policyDigest with
      | some (.str s) => return some s
      | _ => expectedPolicyDigest gs
    else expectedPolicyDigest gs

/-- `inconsistent_policy`. -/
def Decision.inconsistent (expected : Option PyStr) (d : Decision) : Bool :=
  let reported := d.reported?.getD .none
  match expected with
  | none => d.guardian = staticName && d.allowed
  | some s => (d.guardian = staticName && d.allowed && !reported.isText s) ||
      (!reported.isNone && !reported.isText s)

/-- The loop over the decisions, with the names it has seen. -/
def settle (expected : Option PyStr) (digest : PyStr) : List PyStr → List Decision → List Decision
  | _, [] => []
  | seen, d :: ds =>
    (if d.guardian ∈ seen ∨ d.inconsistent expected = true then
      veto d.guardian "duplicate guardian or inconsistent policy version" digest
    else d) :: settle expected digest (d.guardian :: seen) ds

/-- The required guardians without a decision. -/
def missing (decisions : List Decision) : List PyStr :=
  requiredGuardians.filter fun name ↦ name ∉ decisions.map Decision.guardian

/-- `GuardianQuorum.evaluate`. -/
def evaluate (gs : List Guardian) (r : ActionRequest) : Except Exn (List Decision) := do
  let decisions ← gs.mapM (evaluateOne r)
  let requestDigest ← r.requestDigest
  let digest : PyStr := .ofString requestDigest
  let expected ← expectedPolicyDigest gs
  return settle expected digest [] (decisions ++
    (missing decisions).map fun name ↦ veto name "required guardian is unavailable" digest)

/-- `GuardianQuorum.allowed`. -/
def allowed (gs : List Guardian) (decisions : List Decision) : Except Exn Bool := do
  let expected ← expectedPolicyDigest gs
  let names := decisions.map Decision.guardian
  return decide (decisions ≠ []) && decide names.Nodup &&
    requiredGuardians.all (fun name ↦ name ∈ names) &&
    decide ((decisions.map Decision.requestDigest).dedup.length = 1) &&
    decisions.all Decision.allowed &&
    match expected, decisions.filter fun d ↦ d.guardian = staticName with
    | some s, [static] => (static.reported?.getD .none).isText s &&
        decisions.all fun d ↦ d.reported?.all (PyValue.isText s)
    | _, _ => false

/-- The quorum evaluates the request and allows it. -/
def Allowed (gs : List Guardian) (r : ActionRequest) : Prop :=
  ∃ decisions, evaluate gs r = .ok decisions ∧ allowed gs decisions = .ok true

/-! ## Unanimity -/

/-- The guardian returns the decision, a well-formed approval of the request with this digest under
its own name. -/
structure Guardian.Approves (g : Guardian) (r : ActionRequest) (digest : String) (d : Decision) :
    Prop where
  returned : g.evaluate r = .returned d.raw
  guardian : d.guardian = g.identity
  allowed : d.allowed = true
  reason : d.reason ≠ []
  requestDigest : d.requestDigest = .ofString digest

/-- What the quorum asks of its guardians, for a request with the given digest and a policy whose
digest is `version`. -/
structure Unanimous (gs : List Guardian) (r : ActionRequest) (digest : String) (version : PyStr) :
    Prop where
  requestDigest : r.requestDigest = .ok digest
  distinct : (gs.map Guardian.identity).Nodup
  required : ∀ name ∈ requiredGuardians, name ∈ gs.map Guardian.identity
  approved : ∀ g ∈ gs, ∃ d, g.Approves r digest d ∧ ∀ v, d.reported? = some v → v = .str version
  static : ∃ g ∈ gs, g.name = some staticName ∧ g.policyDigest = .ok (some (.str version)) ∧
    ∃ d, g.Approves r digest d ∧ d.reported? = some (.str version)

omit [Platform] in
theorem staticName_mem_requiredGuardians : staticName ∈ requiredGuardians := by
  simp [requiredGuardians]

namespace Unanimous

variable {gs gs' : List Guardian} {g : Guardian} {r : ActionRequest} {digest : String}
  {version : PyStr}

theorem perm (h : Unanimous gs r digest version) (hp : gs.Perm gs') :
    Unanimous gs' r digest version where
  requestDigest := h.requestDigest
  distinct := (hp.map Guardian.identity).nodup_iff.mp h.distinct
  required := fun name hname ↦ (hp.map Guardian.identity).mem_iff.mp (h.required name hname)
  approved := fun g hg ↦ h.approved g (hp.mem_iff.mpr hg)
  static := by
    obtain ⟨g, hg, hstatic⟩ := h.static
    exact ⟨g, hp.mem_iff.mp hg, hstatic⟩

theorem of_cons (h : Unanimous (g :: gs) r digest version)
    (hg : g.identity ∈ requiredGuardians → g.identity ∈ gs.map Guardian.identity) :
    Unanimous gs r digest version where
  requestDigest := h.requestDigest
  distinct := (List.nodup_cons.mp h.distinct).2
  required := by
    intro name hname
    rcases List.mem_cons.mp (h.required name hname) with rfl | hmem
    · exact hg hname
    · exact hmem
  approved := fun g' hg' ↦ h.approved g' (List.mem_cons_of_mem g hg')
  static := by
    obtain ⟨g', hg', hname, hstatic⟩ := h.static
    rcases List.mem_cons.mp hg' with rfl | hmem
    · have hrequired : g'.identity ∈ requiredGuardians := by
        rw [Guardian.identity_eq_staticName.mpr hname]
        exact staticName_mem_requiredGuardians
      exact absurd (hg hrequired) (List.nodup_cons.mp h.distinct).1
    · exact ⟨g', hmem, hname, hstatic⟩

end Unanimous

/-! ## The steps of the evaluation -/

variable {gs gs' : List Guardian} {g : Guardian} {r : ActionRequest} {digest : String}
  {version : PyStr} {d : Decision} {ds : List Decision} {expected : Option PyStr}

/-- The decisions that allow are the well-formed approvals. -/
theorem evaluateOne_allows_iff (hdigest : r.requestDigest = .ok digest) :
    evaluateOne r g = .ok d ∧ d.allowed = true ↔ g.Approves r digest d := by
  have hone : evaluateOne r g = .ok (decisionOf g.identity (.ofString digest) (g.evaluate r)) := by
    rw [evaluateOne, hdigest]
    rfl
  rw [hone, Except.ok.injEq]
  constructor
  · rintro ⟨rfl, hallowed⟩
    cases hv : g.evaluate r with
    | returned v =>
      rw [hv] at hallowed
      rw [decisionOf] at hallowed ⊢
      cases hc : v.checked? g.identity (.ofString digest) with
      | none =>
        rw [hc] at hallowed
        cases hallowed
      | some c =>
        rw [hc] at hallowed
        obtain ⟨hguardian, hreason, hd, rfl⟩ := Returned.checked?_eq_some.mp hc
        exact ⟨hv, hguardian, hallowed, hreason, hd⟩
    | _ =>
      rw [hv] at hallowed
      cases hallowed
  · intro h
    have hc := Returned.checked?_eq_some.mpr ⟨h.guardian, h.reason, h.requestDigest, rfl⟩
    rw [h.returned, decisionOf, hc]
    exact ⟨rfl, h.allowed⟩

theorem exists_of_expectedPolicyDigest (h : expectedPolicyDigest gs = .ok (some version)) :
    ∃ g ∈ gs, g.name = some staticName ∧ g.policyDigest = .ok (some (.str version)) := by
  induction gs with
  | nil => cases h
  | cons g gs ih =>
    rw [expectedPolicyDigest] at h
    split at h
    case isTrue hname =>
      obtain ⟨x, hx, h⟩ := bind_eq_ok.mp h
      split at h
      · cases h
        exact ⟨g, List.mem_cons_self, hname, hx⟩
      · obtain ⟨g', hg', hfound⟩ := ih h
        exact ⟨g', List.mem_cons_of_mem g hg', hfound⟩
    case isFalse =>
      obtain ⟨g', hg', hfound⟩ := ih h
      exact ⟨g', List.mem_cons_of_mem g hg', hfound⟩

theorem expectedPolicyDigest_eq_ok (hdistinct : (gs.map Guardian.identity).Nodup) (hg : g ∈ gs)
    (hname : g.name = some staticName) (hversion : g.policyDigest = .ok (some (.str version))) :
    expectedPolicyDigest gs = .ok (some version) := by
  induction gs with
  | nil => cases hg
  | cons g' gs ih =>
    obtain ⟨hnotmem, hdistinct⟩ := List.nodup_cons.mp hdistinct
    rw [expectedPolicyDigest]
    rcases List.mem_cons.mp hg with rfl | hg
    · rw [if_pos hname, hversion]
      rfl
    · have hne : g'.name ≠ some staticName := by
        intro h
        rw [Guardian.identity_eq_staticName.mpr h, ← Guardian.identity_eq_staticName.mpr hname]
          at hnotmem
        exact hnotmem (List.mem_map_of_mem hg)
      rw [if_neg hne]
      exact ih hdistinct hg

omit [Platform] in
/-- When every decision that is left allows, none was replaced. -/
theorem settle_eq_self_of_allowed {digest : PyStr} : ∀ {seen : List PyStr} {ds : List Decision},
    (∀ d ∈ settle expected digest seen ds, d.allowed = true) → settle expected digest seen ds = ds
  | _, [], _ => rfl
  | seen, d :: ds, h => by
    rw [settle] at h ⊢
    obtain ⟨hd, hds⟩ := List.forall_mem_cons.mp h
    rw [settle_eq_self_of_allowed hds]
    split at hd
    · cases hd
    case isFalse hkept => rw [if_neg hkept]

omit [Platform] in
theorem settle_eq_self {digest : PyStr} : ∀ {seen : List PyStr} {ds : List Decision},
    (seen ++ ds.map Decision.guardian).Nodup →
    (∀ d ∈ ds, d.inconsistent expected = false) → settle expected digest seen ds = ds
  | _, [], _, _ => rfl
  | seen, d :: ds, hdistinct, h => by
    obtain ⟨hd, hds⟩ := List.forall_mem_cons.mp h
    rw [List.map_cons] at hdistinct
    obtain ⟨hnotmem, hrest⟩ := List.nodup_cons.mp (List.nodup_middle.mp hdistinct)
    have hkept : ¬(d.guardian ∈ seen ∨ d.inconsistent expected = true) := by
      rintro (hseen | hinconsistent)
      · exact hnotmem (List.mem_append_left _ hseen)
      · rw [hd] at hinconsistent
        cases hinconsistent
    rw [settle, if_neg hkept]
    have hnodup : (d.guardian :: seen ++ ds.map Decision.guardian).Nodup :=
      List.nodup_cons.mpr ⟨hnotmem, hrest⟩
    rw [settle_eq_self hnodup hds]

omit [Platform] in
theorem inconsistent_eq_false
    (hstatic : d.guardian = staticName → d.reported? = some (.str version))
    (hreported : ∀ v, d.reported? = some v → v = .str version) :
    d.inconsistent (some version) = false := by
  rw [Decision.inconsistent]
  cases h : d.reported? with
  | none =>
    have hne : d.guardian ≠ staticName := by
      intro hname
      rw [h] at hstatic
      cases hstatic hname
    simp [hne, PyValue.isNone]
  | some v =>
    rw [hreported v h]
    simp [PyValue.isText]

/-- What `allowed` asks of the decisions. -/
theorem allowed_eq_true_iff : allowed gs ds = .ok true ↔ ∃ version,
    expectedPolicyDigest gs = .ok (some version) ∧ (ds.map Decision.guardian).Nodup ∧
    (∀ name ∈ requiredGuardians, name ∈ ds.map Decision.guardian) ∧
    (ds.map Decision.requestDigest).dedup.length = 1 ∧ (∀ d ∈ ds, d.allowed = true) ∧
    (∃ static, ds.filter (fun d ↦ d.guardian = staticName) = [static] ∧
      static.reported? = some (.str version)) ∧
    ∀ d ∈ ds, ∀ v, d.reported? = some v → v = .str version := by
  constructor
  · intro h
    obtain ⟨e, he, h⟩ := bind_eq_ok.mp h
    replace h := Except.ok.inj h
    simp only [Bool.and_eq_true, decide_eq_true_eq, List.all_eq_true] at h
    obtain ⟨⟨⟨⟨⟨-, hdistinct⟩, hrequired⟩, hdigests⟩, hallowed⟩, hversion⟩ := h
    -- the pinned version is that of the one decision of the static guardian
    split at hversion
    case h_1 version static hfilter =>
      rw [Bool.and_eq_true, PyValue.isText_iff, List.all_eq_true] at hversion
      refine ⟨version, he, hdistinct, hrequired, hdigests, hallowed, ⟨static, hfilter, ?_⟩, ?_⟩
      · cases hreported : static.reported? with
        | none =>
          rw [hreported] at hversion
          cases hversion.1
        | some v =>
          rw [hreported] at hversion
          exact congrArg some hversion.1
      · intro d hd v hv
        have hall := hversion.2 d hd
        rw [hv, Option.all_some] at hall
        exact PyValue.isText_iff.mp hall
    case h_2 => cases hversion
  · rintro ⟨version, he, hdistinct, hrequired, hdigests, hallowed, ⟨static, hfilter, hstatic⟩,
      hreported⟩
    have hne : ds ≠ [] := by
      rintro rfl
      cases hfilter
    have hall : ∀ d ∈ ds, (d.reported?.all (PyValue.isText version)) = true := by
      intro d hd
      cases hd' : d.reported? with
      | none => rfl
      | some v => exact PyValue.isText_iff.mpr (hreported d hd v hd')
    refine bind_eq_ok.mpr ⟨_, he, congrArg Except.ok ?_⟩
    simp only [Bool.and_eq_true, decide_eq_true_eq, List.all_eq_true]
    refine ⟨⟨⟨⟨⟨hne, hdistinct⟩, hrequired⟩, hdigests⟩, hallowed⟩, ?_⟩
    rw [hfilter]
    simp only [hstatic, Option.getD_some, Bool.and_eq_true, List.all_eq_true]
    exact ⟨PyValue.isText_iff.mpr rfl, hall⟩

/-! ## The quorum decides unanimity -/

theorem Unanimous.exists_decisions (h : Unanimous gs r digest version) :
    ∃ ds, List.Forall₂ (fun g d ↦ g.Approves r digest d ∧
      ∀ v, d.reported? = some v → v = .str version) gs ds := by
  have happroved := h.approved
  clear h
  induction gs with
  | nil => exact ⟨[], .nil⟩
  | cons g gs ih =>
    obtain ⟨⟨d, hd⟩, hgs⟩ := List.forall_mem_cons.mp happroved
    obtain ⟨ds, hds⟩ := ih hgs
    exact ⟨d :: ds, .cons hd hds⟩

theorem map_guardian_eq {P : Decision → Prop}
    (h : List.Forall₂ (fun g d ↦ g.Approves r digest d ∧ P d) gs ds) :
    ds.map Decision.guardian = gs.map Guardian.identity := by
  induction h with
  | nil => rfl
  | cons hgd _ ih => rw [List.map_cons, List.map_cons, hgd.1.guardian, ih]

theorem exists_of_mem_decisions {P : Decision → Prop}
    (h : List.Forall₂ (fun g d ↦ g.Approves r digest d ∧ P d) gs ds) (hd : d ∈ ds) :
    ∃ g ∈ gs, g.Approves r digest d ∧ P d := by
  induction h with
  | nil => cases hd
  | cons hgd _ ih =>
    rcases List.mem_cons.mp hd with rfl | hd
    · exact ⟨_, List.mem_cons_self, hgd⟩
    · obtain ⟨g, hg, h⟩ := ih hd
      exact ⟨g, List.mem_cons_of_mem _ hg, h⟩

theorem Guardian.Approves.unique {d' : Decision} (h : g.Approves r digest d)
    (h' : g.Approves r digest d') : d = d' := by
  have hraw := h.returned.symm.trans h'.returned
  obtain ⟨guardian, allowed, reason, evidence, requestDigest⟩ := d
  obtain ⟨guardian', allowed', reason', evidence', requestDigest'⟩ := d'
  simp only [Decision.raw, Outcome.returned.injEq, Returned.mk.injEq, PyValue.str.injEq,
    PyValue.bool.injEq, PyValue.dict.injEq] at hraw
  obtain ⟨rfl, rfl, rfl, rfl, rfl⟩ := hraw
  rfl

theorem Unanimous.allowed (h : Unanimous gs r digest version) : Allowed gs r := by
  obtain ⟨ds, hds⟩ := h.exists_decisions
  obtain ⟨g, hg, hname, hversion, d, hd, hreported⟩ := h.static
  have hnames := map_guardian_eq hds
  have hexpected := expectedPolicyDigest_eq_ok h.distinct hg hname hversion
  have hdistinct : (ds.map Decision.guardian).Nodup := hnames ▸ h.distinct
  -- The decision of the static guardian is the one that reports the version.
  have hstatic : ∀ d' ∈ ds, d'.guardian = staticName → d' = d := by
    intro d' hd' hd'name
    obtain ⟨g', hg', happroves, -⟩ := exists_of_mem_decisions hds hd'
    have hsame : g'.identity = g.identity := by
      rw [← happroves.guardian, hd'name, Guardian.identity_eq_staticName.mpr hname]
    rw [List.inj_on_of_nodup_map h.distinct hg' hg hsame] at happroves
    exact happroves.unique hd
  have hmem : d ∈ ds := by
    have hstaticMem : staticName ∈ ds.map Decision.guardian := by
      rw [hnames]
      exact h.required _ staticName_mem_requiredGuardians
    obtain ⟨d', hd', hd'name⟩ := List.mem_map.mp hstaticMem
    exact hstatic d' hd' hd'name ▸ hd'
  have hall : ∀ d ∈ ds, d.allowed = true ∧ d.requestDigest = .ofString digest ∧
      ∀ v, d.reported? = some v → v = .str version := by
    intro d hd
    obtain ⟨g, -, happroves, hreports⟩ := exists_of_mem_decisions hds hd
    exact ⟨happroves.allowed, happroves.requestDigest, hreports⟩
  have hmissing : missing ds = [] := by
    refine List.filter_eq_nil_iff.mpr fun name hname ↦ ?_
    rw [decide_eq_true_eq, not_not, hnames]
    exact h.required name hname
  have hsettle : settle (some version) (.ofString digest) [] ds = ds := by
    refine settle_eq_self hdistinct fun d' hd' ↦ inconsistent_eq_false ?_ (hall d' hd').2.2
    intro hd'name
    rw [hstatic d' hd' hd'name]
    exact hreported
  refine ⟨ds, ?_, allowed_eq_true_iff.mpr ⟨version, hexpected, hdistinct, ?_, ?_,
    fun d hd ↦ (hall d hd).1, ⟨d, ?_, hreported⟩, fun d hd ↦ (hall d hd).2.2⟩⟩
  · have hmap : gs.mapM (evaluateOne r) = .ok ds :=
      mapM_eq_ok.mpr (hds.imp fun _ _ h' ↦ ((evaluateOne_allows_iff h.requestDigest).mpr h'.1).1)
    rw [evaluate, hmap, h.requestDigest, hexpected]
    change Except.ok (settle (some version) (.ofString digest) [] (ds ++ _)) = _
    rw [hmissing, List.map_nil, List.append_nil, hsettle]
  · rw [hnames]
    exact h.required
  · have hconst : ds.map Decision.requestDigest = List.replicate ds.length (.ofString digest) :=
      List.eq_replicate_iff.mpr ⟨List.length_map _, fun x hx ↦ by
        obtain ⟨d', hd', rfl⟩ := List.mem_map.mp hx
        exact (hall d' hd').2.1⟩
    rw [hconst, List.replicate_dedup (List.length_pos_of_mem hmem).ne']
    rfl
  · have hone : (ds.filter fun d' ↦ d'.guardian = staticName).Perm [d] := by
      rw [List.perm_ext_iff_of_nodup ((List.Nodup.of_map _ hdistinct).filter _)
        (List.nodup_singleton d)]
      intro d'
      rw [List.mem_filter, List.mem_singleton, decide_eq_true_eq]
      refine ⟨fun h' ↦ hstatic d' h'.1 h'.2, ?_⟩
      rintro rfl
      exact ⟨hmem, hd.guardian.trans (Guardian.identity_eq_staticName.mpr hname)⟩
    exact List.perm_singleton.mp hone

/-- Decisions that allow a request come from unanimous guardians. -/
theorem exists_unanimous (h : Allowed gs r) : ∃ digest version, Unanimous gs r digest version := by
  obtain ⟨ds, hevaluate, hallowed⟩ := h
  obtain ⟨ds₀, hmap, hds⟩ := bind_eq_ok.mp hevaluate
  obtain ⟨digest, hdigest, hds⟩ := bind_eq_ok.mp hds
  obtain ⟨e, he, hds⟩ := bind_eq_ok.mp hds
  replace hds := Except.ok.inj hds
  obtain ⟨version, hexpected, hdistinct, hrequired, -, hall, ⟨static, hfilter, hstatic⟩,
    hreported⟩ :=
    allowed_eq_true_iff.mp hallowed
  -- Nothing was replaced and nothing was missing, for what is put in their place does not allow.
  rw [settle_eq_self_of_allowed (by rw [hds]; exact hall)] at hds
  have hmissing : missing ds₀ = [] := by
    by_contra hne
    obtain ⟨name, hname⟩ := List.exists_mem_of_ne_nil _ hne
    have hveto := hall _ (hds ▸ List.mem_append_right _ (List.mem_map_of_mem hname))
    cases hveto
  rw [hmissing, List.map_nil, List.append_nil] at hds
  subst hds
  have happroved : List.Forall₂ (fun g d ↦ g.Approves r digest d ∧
      ∀ v, d.reported? = some v → v = .str version) gs ds₀ := by
    have hone := mapM_eq_ok.mp hmap
    clear * - hone hall hreported hdigest
    induction hone with
    | nil => exact .nil
    | cons hgd _ ih =>
      obtain ⟨hd, hds⟩ := List.forall_mem_cons.mp hall
      obtain ⟨hreports, hreported⟩ := List.forall_mem_cons.mp hreported
      exact .cons ⟨(evaluateOne_allows_iff hdigest).mp ⟨hgd, hd⟩, hreports⟩ (ih hds hreported)
  have hnames := map_guardian_eq happroved
  obtain ⟨g, hg, hname, hversion⟩ := exists_of_expectedPolicyDigest hexpected
  have hguardians : ∀ g ∈ gs, ∃ d ∈ ds₀, g.Approves r digest d ∧
      ∀ v, d.reported? = some v → v = .str version := by
    intro g hg
    clear * - happroved hg
    induction happroved with
    | nil => cases hg
    | cons hgd _ ih =>
      rcases List.mem_cons.mp hg with rfl | hg
      · exact ⟨_, List.mem_cons_self, hgd⟩
      · obtain ⟨d, hd, h⟩ := ih hg
        exact ⟨d, List.mem_cons_of_mem _ hd, h⟩
  refine ⟨digest, version, hdigest, hnames ▸ hdistinct, hnames ▸ hrequired, ?_, g, hg, hname,
    hversion, ?_⟩
  · intro g hg
    obtain ⟨d, -, h⟩ := hguardians g hg
    exact ⟨d, h⟩
  · obtain ⟨d, hd, happroves, -⟩ := hguardians g hg
    have hmem : d ∈ ds₀.filter fun d ↦ d.guardian = staticName := by
      rw [List.mem_filter, decide_eq_true_eq, happroves.guardian]
      exact ⟨hd, Guardian.identity_eq_staticName.mpr hname⟩
    rw [hfilter, List.mem_singleton] at hmem
    exact ⟨d, happroves, hmem ▸ hstatic⟩

theorem allowed_iff : Allowed gs r ↔ ∃ digest version, Unanimous gs r digest version :=
  ⟨exists_unanimous, fun ⟨_, _, h⟩ ↦ h.allowed⟩

/-- The quorum is a unanimity veto: it allows a request exactly when its guardians are unanimous, in
any order, and one more guardian turns a denial into an approval only if it has the name of a
required guardian that was not there. -/
theorem quorum_veto :
    (∀ gs r, Allowed gs r ↔ ∃ digest version, Unanimous gs r digest version) ∧
    (∀ gs gs' r, gs.Perm gs' → (Allowed gs r ↔ Allowed gs' r)) ∧
    ∀ gs gs' g r, gs'.Perm (g :: gs) → Allowed gs' r →
      (g.identity ∈ requiredGuardians → g.identity ∈ gs.map Guardian.identity) → Allowed gs r := by
  have hperm : ∀ gs gs' r, gs.Perm gs' → Allowed gs r → Allowed gs' r := by
    intro gs gs' r hp h
    obtain ⟨digest, version, h⟩ := exists_unanimous h
    exact (h.perm hp).allowed
  refine ⟨fun gs r ↦ allowed_iff, fun gs gs' r hp ↦ ⟨hperm gs gs' r hp, hperm gs' gs r hp.symm⟩, ?_⟩
  intro gs gs' g r hp h hg
  obtain ⟨digest, version, h⟩ := exists_unanimous (hperm gs' _ r hp h)
  exact (h.of_cons hg).allowed

end Quorum

/-! ## Guardians of a sample -/

namespace Sample

attribute [local instance] pythonPlatform

/-- The digest that the sample's policy is known by. -/
def version : PyStr := .ofString "version-1"

/-- An approval of a request, with evidence. -/
def approval (name : PyStr) (evidence : List (PyKey × PyValue)) (r : ActionRequest) : Outcome :=
  match r.requestDigest with
  | .ok digest =>
    .returned ⟨.str name, .bool true, .str (.ofString "approved"), .dict evidence,
      .str (.ofString digest)⟩
  | .error _ => .raised

/-- A guardian that approves every request. -/
def approving (name : PyStr) : Guardian where
  name := some name
  policyDigest := .ok none
  evaluate := approval name []

/-- A static guardian that approves every request and reports the version. -/
def static : Guardian where
  name := some staticName
  policyDigest := .ok (some (.str version))
  evaluate := approval staticName [(.str (.ofString "policy_digest"), .str version)]

/-- The required guardians but the first. -/
def others : List Guardian := [
  approving (.ofString "executor-attestation-guardian"),
  approving (.ofString "lineage-budget-guardian"), static]

def first : Guardian := approving (.ofString "behavioral-transition-guardian")

theorem exists_requestDigest : ∃ digest, Policy.Sample.request.requestDigest = .ok digest :=
  Policy.Sample.request.exists_requestDigest.mpr (by decide)

theorem approved_ne_nil : PyStr.ofString "approved" ≠ [] := by decide

theorem approves_approving {name : PyStr} {digest : String}
    (h : Policy.Sample.request.requestDigest = .ok digest) :
    (approving name).Approves Policy.Sample.request digest
      ⟨name, true, .ofString "approved", [], .ofString digest⟩ where
  returned := by
    simp only [approving, approval, h]
    rfl
  guardian := rfl
  allowed := rfl
  reason := approved_ne_nil
  requestDigest := rfl

theorem approves_static {digest : String} (h : Policy.Sample.request.requestDigest = .ok digest) :
    static.Approves Policy.Sample.request digest
      ⟨staticName, true, .ofString "approved", [(.str (.ofString "policy_digest"), .str version)],
        .ofString digest⟩ where
  returned := by
    simp only [static, approval, h]
    rfl
  guardian := rfl
  allowed := rfl
  reason := approved_ne_nil
  requestDigest := rfl

theorem unanimous {digest : String} (h : Policy.Sample.request.requestDigest = .ok digest) :
    Unanimous (first :: others) Policy.Sample.request digest version where
  requestDigest := h
  distinct := by decide
  required := by decide
  approved := by
    have happroving : ∀ name : PyStr, ∃ d,
        (approving name).Approves Policy.Sample.request digest d ∧
          ∀ v, d.reported? = some v → v = .str version :=
      fun name ↦ ⟨_, approves_approving h, fun v hv ↦ nomatch hv⟩
    have hstatic : ∃ d, static.Approves Policy.Sample.request digest d ∧
        ∀ v, d.reported? = some v → v = .str version :=
      ⟨_, approves_static h, fun v hv ↦ (Option.some.inj hv).symm⟩
    intro g hg
    rw [others, first] at hg
    simp only [List.mem_cons, List.not_mem_nil, or_false] at hg
    rcases hg with rfl | rfl | rfl | rfl
    · exact happroving _
    · exact happroving _
    · exact happroving _
    · exact hstatic
  static := ⟨static, by simp [others], rfl, rfl, _, approves_static h, rfl⟩

end Sample

/-- Four guardians that approve are unanimous in any order, and stay so without a fifth. -/
theorem quorum_veto_sample :
    let _ := pythonPlatform
    Allowed (Sample.first :: Sample.others) Policy.Sample.request ∧
    Allowed (Sample.others ++ [Sample.first]) Policy.Sample.request := by
  intro _
  obtain ⟨digest, hdigest⟩ := Sample.exists_requestDigest
  have h := (quorum_veto.1 _ _).mpr ⟨digest, _, Sample.unanimous hdigest⟩
  exact ⟨h, (quorum_veto.2.1 _ _ _ (List.perm_append_singleton _ _).symm).mp h⟩

/-- Three of the required guardians are refused; with the fourth the same request is allowed. -/
theorem allowed_of_required_guardian :
    let _ := pythonPlatform
    ¬Allowed Sample.others Policy.Sample.request ∧
    Allowed (Sample.others ++ [Sample.first]) Policy.Sample.request := by
  intro _
  obtain ⟨digest, hdigest⟩ := Sample.exists_requestDigest
  constructor
  · intro h
    obtain ⟨digest, version, h⟩ := exists_unanimous h
    have hmem := h.required Sample.first.identity (by decide)
    revert hmem
    decide
  · exact ((Sample.unanimous hdigest).perm (List.perm_append_singleton _ _).symm).allowed

end EventHorizon.Guardians
