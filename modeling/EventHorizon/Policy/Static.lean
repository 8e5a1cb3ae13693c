import EventHorizon.Policy.Values

/-!
# Requests and the static policy

`ActionRequest` of `models.py` and `StaticPolicy` of `policy.py`. A policy that is asked about a
request looks at the agent, the executor, the operation, the resource and the argument keys, in this
order, and its decision carries the digest of the request. The digests are part of the answer: a
request or a policy outside the canonical limits makes `evaluate` raise.
-/

namespace EventHorizon.Policy

/-! ## Requests -/

structure RequestFields where
  requestId : String
  sessionId : String
  agentId : String
  operation : String
  resourceId : String
  executorId : String
  arguments : List (String × Json)
  purpose : String
  deriving DecidableEq

mutual

/-- `_validate_security_json` finds a `float`. -/
def hasFloat : Json → Bool
  | .float _ => true
  | .arr xs => hasFloatItems xs
  | .obj fields => hasFloatFields fields
  | .null | .bool _ | .int _ | .str _ => false

def hasFloatItems : List Json → Bool
  | [] => false
  | x :: xs => hasFloat x || hasFloatItems xs

def hasFloatFields : List (String × Json) → Bool
  | [] => false
  | (_, x) :: xs => hasFloat x || hasFloatFields xs

end

/-- A mapping with a binding for each of its keys. -/
def keysOf {β : Type*} (fields : List (String × β)) : List String := fields.map Prod.fst

section Request

variable [Platform]

/-- A canonicalization error raised again as a validation error. -/
def asInvalid {α : Type} (label : String) : Except Exn α → Except Exn α
  | .ok a => .ok a
  | .error e => .error (invalid (label ++ e.message))

/-- `_validated_text`. -/
def validatedText (value name : String) : Except Exn Unit := do
  raiseIf (value = "" ∨ 256 < value.utf8ByteSize)
    (invalid (name ++ " must be a non-empty string <= 256 UTF-8 bytes"))
  let _ ← asInvalid (name ++ " is not canonical: ") (canonicalBytes (.str value))

/-- `ActionRequest.__post_init__`. -/
def RequestFields.postInit (r : RequestFields) : Except Exn Unit := do
  validatedText r.requestId "request_id"
  validatedText r.sessionId "session_id"
  validatedText r.agentId "agent_id"
  validatedText r.operation "operation"
  validatedText r.resourceId "resource_id"
  validatedText r.executorId "executor_id"
  raiseIf (1024 < r.purpose.utf8ByteSize) (invalid "purpose must be a string <= 1024 UTF-8 bytes")
  let _ ← asInvalid "request is not canonical: " (canonicalBytes (.str r.purpose))
  let _ ← asInvalid "request is not canonical: " (canonicalBytes (.obj r.arguments))
  raiseIf (hasFloatFields r.arguments = true)
    (invalid "floating-point request values are not permitted")

/-- A request that was constructed. -/
structure ActionRequest extends RequestFields where
  valid : toRequestFields.postInit = .ok ()
  distinct : (keysOf arguments).Nodup

namespace ActionRequest

/-- `canonical_payload`. -/
def canonicalPayload (r : ActionRequest) : Json := .obj [
  ("request_id", .str r.requestId), ("session_id", .str r.sessionId), ("agent_id", .str r.agentId),
  ("operation", .str r.operation), ("resource_id", .str r.resourceId),
  ("executor_id", .str r.executorId), ("arguments", .obj r.arguments), ("purpose", .str r.purpose)]

/-- `request_digest`. -/
def requestDigest (r : ActionRequest) : Except Exn String := digest r.canonicalPayload

end ActionRequest

end Request

/-! ## The static policy -/

structure OperationRule where
  resources : List String
  allowedArgumentKeys : List String
  maxOutputBytes : ℤ
  deriving DecidableEq

/-- A policy. The collections are sets, and `operations` is a mapping. -/
structure StaticPolicy where
  policyId : String
  operations : Table String OperationRule
  allowedAgents : List String
  allowedExecutors : List String
  deniedArgumentKeys : List String
  distinct : (keysOf operations).Nodup

/-- The default of `denied_argument_keys`. -/
def defaultDeniedArgumentKeys : List String := [
  "url", "uri", "host", "hostname", "ip", "port", "command", "shell", "token", "credential",
  "api_key", "authorization", "recipient"]

/-- Why the static policy decided as it did. The two reasons with keys print them. -/
inductive Reason
  | agentNotAuthorized
  | executorNotAuthorized
  | operationDenied
  | resourceOutside
  | forbiddenArgumentKeys (keys : List String)
  | argumentWidening (keys : List String)
  | permitted
  deriving DecidableEq, Repr

structure GuardianDecision where
  guardian : String
  allowed : Bool
  reason : Reason
  evidence : List (String × Json)
  requestDigest : String
  deriving DecidableEq

def staticPolicyGuardian : String := "static-policy-guardian"

/-- A JSON array of strings. -/
def strArray (xs : List String) : Json := .arr (xs.map .str)

namespace StaticPolicy

/-- The payload of one rule in `policy_digest`. -/
def rulePayload (rule : OperationRule) : Json := .obj [
  ("resources", strArray (sortUnique rule.resources)),
  ("allowed_argument_keys", strArray (sortUnique rule.allowedArgumentKeys)),
  ("max_output_bytes", .int rule.maxOutputBytes)]

def payload (p : StaticPolicy) : Json := .obj [
  ("policy_id", .str p.policyId),
  ("allowed_agents", strArray (sortUnique p.allowedAgents)),
  ("allowed_executors", strArray (sortUnique p.allowedExecutors)),
  ("denied_argument_keys", strArray (sortUnique p.deniedArgumentKeys)),
  ("operations", .obj ((Json.sortFields p.operations).map fun r ↦ (r.1, rulePayload r.2)))]

variable [Platform]

/-- `policy_digest`. -/
def policyDigest (p : StaticPolicy) : Except Exn String := digest p.payload

/-- A decision without evidence. -/
def deny (r : ActionRequest) (reason : Reason) : Except Exn GuardianDecision := do
  let requestDigest ← r.requestDigest
  return ⟨staticPolicyGuardian, false, reason, [], requestDigest⟩

/-- `evaluate`. -/
def evaluate (p : StaticPolicy) (r : ActionRequest) : Except Exn GuardianDecision :=
  if r.agentId ∉ p.allowedAgents then deny r .agentNotAuthorized
  else if r.executorId ∉ p.allowedExecutors then deny r .executorNotAuthorized
  else
    match p.operations.get? r.operation with
    | none => deny r .operationDenied
    | some rule =>
      if r.resourceId ∉ rule.resources then deny r .resourceOutside
      else
        let forbidden := (keysOf r.arguments).filter (· ∈ p.deniedArgumentKeys)
        if forbidden ≠ [] then deny r (.forbiddenArgumentKeys (sortUnique forbidden))
        else
          let unknown := (keysOf r.arguments).filter (· ∉ rule.allowedArgumentKeys)
          if unknown ≠ [] then deny r (.argumentWidening (sortUnique unknown))
          else do
            let policyDigest ← p.policyDigest
            let requestDigest ← r.requestDigest
            return ⟨staticPolicyGuardian, true, .permitted,
              [("max_output_bytes", .int rule.maxOutputBytes),
              ("policy_digest", .str policyDigest)], requestDigest⟩

/-- The static policy allows the request. -/
def Allows (p : StaticPolicy) (r : ActionRequest) : Prop :=
  ∃ d, p.evaluate r = .ok d ∧ d.allowed = true

theorem not_allowed_of_deny {r : ActionRequest} {reason : Reason} {d : GuardianDecision}
    (h : deny r reason = .ok d) : d.allowed = false := by
  obtain ⟨x, -, h⟩ := bind_eq_ok.mp h
  cases h
  rfl

/-- When the static policy allows a request. -/
theorem allows_iff {p : StaticPolicy} {r : ActionRequest} :
    p.Allows r ↔ r.agentId ∈ p.allowedAgents ∧ r.executorId ∈ p.allowedExecutors ∧
      (∃ rule, p.operations.get? r.operation = some rule ∧ r.resourceId ∈ rule.resources ∧
        ∀ k ∈ keysOf r.arguments, k ∉ p.deniedArgumentKeys ∧ k ∈ rule.allowedArgumentKeys) ∧
      (∃ x, p.policyDigest = .ok x) ∧ ∃ x, r.requestDigest = .ok x := by
  have hdenied : ∀ {reason}, ¬∃ d, deny r reason = .ok d ∧ d.allowed = true := by
    rintro reason ⟨d, hd, hallowed⟩
    rw [not_allowed_of_deny hd] at hallowed
    cases hallowed
  rw [Allows, evaluate]
  by_cases hagent : r.agentId ∈ p.allowedAgents
  swap
  · rw [if_pos hagent]
    exact iff_of_false hdenied fun h ↦ hagent h.1
  by_cases hexec : r.executorId ∈ p.allowedExecutors
  swap
  · rw [if_neg (not_not.mpr hagent), if_pos hexec]
    exact iff_of_false hdenied fun h ↦ hexec h.2.1
  rw [if_neg (not_not.mpr hagent), if_neg (not_not.mpr hexec)]
  cases hrule : p.operations.get? r.operation with
  | none =>
    refine iff_of_false hdenied ?_
    rintro ⟨-, -, ⟨rule, h, -⟩, -⟩
    cases h
  | some rule =>
    dsimp only
    by_cases hres : r.resourceId ∈ rule.resources
    swap
    · rw [if_pos hres]
      refine iff_of_false hdenied ?_
      rintro ⟨-, -, ⟨rule', h, hres', -⟩, -⟩
      cases h
      exact hres hres'
    rw [if_neg (not_not.mpr hres)]
    by_cases hforbidden : (keysOf r.arguments).filter (· ∈ p.deniedArgumentKeys) = []
    swap
    · rw [if_pos hforbidden]
      refine iff_of_false hdenied ?_
      rintro ⟨-, -, ⟨rule', -, -, hkeys⟩, -⟩
      exact hforbidden (List.filter_eq_nil_iff.mpr fun k hk ↦ by simpa using (hkeys k hk).1)
    rw [if_neg (not_not.mpr hforbidden)]
    by_cases hunknown : (keysOf r.arguments).filter (· ∉ rule.allowedArgumentKeys) = []
    swap
    · rw [if_pos hunknown]
      refine iff_of_false hdenied ?_
      rintro ⟨-, -, ⟨rule', h, -, hkeys⟩, -⟩
      cases h
      exact hunknown (List.filter_eq_nil_iff.mpr fun k hk ↦ by simpa using (hkeys k hk).2)
    rw [if_neg (not_not.mpr hunknown)]
    rw [List.filter_eq_nil_iff] at hforbidden hunknown
    constructor
    · rintro ⟨d, hd, -⟩
      obtain ⟨x, hx, hd⟩ := bind_eq_ok.mp hd
      obtain ⟨y, hy, -⟩ := bind_eq_ok.mp hd
      refine ⟨hagent, hexec, ⟨rule, rfl, hres, fun k hk ↦ ⟨?_, ?_⟩⟩, ⟨x, hx⟩, ⟨y, hy⟩⟩
      · simpa using hforbidden k hk
      · simpa using hunknown k hk
    · rintro ⟨-, -, -, ⟨x, hx⟩, ⟨y, hy⟩⟩
      exact ⟨_, bind_eq_ok.mpr ⟨x, hx, bind_eq_ok.mpr ⟨y, hy, rfl⟩⟩, rfl⟩

end StaticPolicy

end EventHorizon.Policy
