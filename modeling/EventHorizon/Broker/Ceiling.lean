import EventHorizon.Broker.Attestation
import EventHorizon.Policy.Reductions

/-!
# Compiled ceilings in and out of dictionaries

A capability carries its ceiling as a dictionary. `to_dict` writes one and `from_dict` builds the
ceiling anew, with every check of the constructor and the check of its digest. A ceiling that was
constructed and that carries its own digest is read back as it was; every ceiling that the compiler
returns is one.
-/

namespace EventHorizon

open Policy
open Decay (payloadAt pyTuple readInt)

namespace Policy.CompiledTaskPolicyCeiling

/-- `to_dict`. -/
def toDict (c : CompiledTaskPolicyCeiling) : List (String × Json) :=
  c.unsignedDict.fields?.getD [] ++ [("compiled_digest", .str c.compiledDigest)]

/-- `CompiledTaskPolicyCeiling.FIELDS`. -/
def fieldNames : List String := ["schema", "ceiling_id", "task_id", "task_fingerprint",
  "subject_id", "workload_identity", "tenant", "environment", "synthesizer_version",
  "compiler_version", "policy_version", "candidate_digest", "provider_attestation_digest",
  "provider_bundle_digest", "provider_key_id", "provider_method", "provider_trust",
  "required_trust_tier", "tools", "actions", "action_resources", "argument_constraints",
  "network_destinations", "data_classes", "maximum_read_bytes", "maximum_write_bytes",
  "maximum_calls", "maximum_parallelism", "maximum_duration_seconds", "required_attestations",
  "human_approval_gates", "decay_profile", "guardian_reductions_digest", "issued_at_ms",
  "expires_at_ms", "compiled_digest"]

end Policy.CompiledTaskPolicyCeiling

namespace Broker

/-! ## Readers -/

/-- A field that has to be text. -/
def readText (fields : List (String × Json)) (name : String) (maximum : ℕ) : Except Exn String :=
  match (payloadAt fields name).str? with
  | some s => .ok s
  | none =>
    .error (invalid
      (name ++ " must be a non-empty string <= " ++ toString maximum ++ " UTF-8 bytes"))

/-- A field that has to be a trust tier. -/
def readTier (fields : List (String × Json)) (name message : String) : Except Exn TrustTier :=
  match (payloadAt fields name).str?.bind tierOf? with
  | some tier => .ok tier
  | none => .error (invalid message)

/-- An item of `_strings`. -/
def readItem (label : String) (x : Json) : Except Exn String :=
  match x.str? with
  | some s => .ok s
  | none => .error (invalid (label ++ " item must be a non-empty string <= 256 UTF-8 bytes"))

/-- `payload[name].items()`, each value a tuple. -/
def pyItems (value : Json) : Except Exn (Table String (List Json)) :=
  match value.fields? with
  | some rows => rows.mapM fun row ↦ (pyTuple row.2).map (Prod.mk row.1)
  | none => .error ⟨.attributeError, "object has no attribute 'items'"⟩

/-- The items of a mapping of arrays. -/
def readRows (label : String) (rows : Table String (List Json)) :
    Except Exn (Table String (List String)) :=
  rows.mapM fun row ↦ (row.2.mapM (readItem (label ++ "." ++ row.1))).map (Prod.mk row.1)

section Readers

variable {fields : List (String × Json)} {name message label : String} {maximum : ℕ}

theorem readText_eq {s : String} (h : Json.lookup fields name = some (.str s)) :
    readText fields name maximum = .ok s := by
  rw [readText, payloadAt, h]
  rfl

theorem readTier_eq {t : TrustTier} (h : Json.lookup fields name = some (.str t.text)) :
    readTier fields name message = .ok t := by
  rw [readTier, payloadAt, h, Option.getD_some, Json.str?, Option.bind_some, tierOf?_text]

theorem readInt_eq {n : ℤ} (h : Json.lookup fields name = some (.int n)) :
    readInt fields name = .ok n := by
  rw [readInt, payloadAt, h]
  rfl

theorem pyTuple_strArray (xs : List String) (h : Json.lookup fields name = some (strArray xs)) :
    pyTuple (payloadAt fields name) = .ok (xs.map .str) := by
  rw [payloadAt, h]
  rfl

theorem mapM_readItem (label : String) (xs : List String) :
    (xs.map Json.str).mapM (readItem label) = .ok xs := by
  refine mapM_eq_ok.mpr ?_
  rw [List.forall₂_map_left_iff]
  exact List.forall₂_same.mpr fun _ _ ↦ rfl

theorem pyItems_strArrays (m : Table String (List String))
    (h : Json.lookup fields name = some (strArrays m)) :
    pyItems (payloadAt fields name) = .ok (m.map fun row ↦ (row.1, row.2.map .str)) := by
  rw [payloadAt, h]
  refine mapM_eq_ok.mpr ?_
  rw [List.forall₂_map_left_iff, List.forall₂_map_right_iff]
  exact List.forall₂_same.mpr fun _ _ ↦ rfl

theorem readRows_map (label : String) (m : Table String (List String)) :
    readRows label (m.map fun row ↦ (row.1, row.2.map .str)) = .ok m := by
  refine mapM_eq_ok.mpr ?_
  rw [List.forall₂_map_left_iff]
  refine List.forall₂_same.mpr fun row _ ↦ ?_
  rw [mapM_readItem]
  rfl

end Readers

end Broker

/-! ## Reading back -/

namespace Policy.CompiledTaskPolicyCeiling

open Broker

variable [Platform]

/-- `from_dict`. -/
def fromDict (fields : List (String × Json)) : Except Exn CompiledTaskPolicyCeiling := do
  raiseIf (Json.hasExactFields fields fieldNames = false)
    (invalid "compiled ceiling fields are invalid")
  let tools ← pyTuple (payloadAt fields "tools")
  let actions ← pyTuple (payloadAt fields "actions")
  let networkDestinations ← pyTuple (payloadAt fields "network_destinations")
  let dataClasses ← pyTuple (payloadAt fields "data_classes")
  let requiredAttestations ← pyTuple (payloadAt fields "required_attestations")
  let humanApprovalGates ← pyTuple (payloadAt fields "human_approval_gates")
  let actionResources ← pyItems (payloadAt fields "action_resources")
  let argumentConstraints ← pyItems (payloadAt fields "argument_constraints")
  let schema ← readText fields "schema" 256
  let ceilingId ← readText fields "ceiling_id" 256
  let taskId ← readText fields "task_id" 256
  let subjectId ← readText fields "subject_id" 256
  let workloadIdentity ← readText fields "workload_identity" 256
  let tenant ← readText fields "tenant" 256
  let environment ← readText fields "environment" 256
  let synthesizerVersion ← readText fields "synthesizer_version" 256
  let compilerVersion ← readText fields "compiler_version" 256
  let policyVersion ← readText fields "policy_version" 256
  let providerKeyId ← readText fields "provider_key_id" 256
  let providerMethod ← readText fields "provider_method" 256
  let decayProfile ← readText fields "decay_profile" 256
  let taskFingerprint ← readText fields "task_fingerprint" 64
  let candidateDigest ← readText fields "candidate_digest" 64
  let providerAttestationDigest ← readText fields "provider_attestation_digest" 64
  let providerBundleDigest ← readText fields "provider_bundle_digest" 64
  let guardianReductionsDigest ← readText fields "guardian_reductions_digest" 64
  let compiledDigest ← readText fields "compiled_digest" 64
  let providerTrust ← readTier fields "provider_trust" "compiled ceiling trust tier is invalid"
  let requiredTrustTier ←
    readTier fields "required_trust_tier" "compiled ceiling trust tier is invalid"
  let tools ← tools.mapM (readItem "tools")
  let actions ← actions.mapM (readItem "actions")
  let networkDestinations ← networkDestinations.mapM (readItem "network_destinations")
  let dataClasses ← dataClasses.mapM (readItem "data_classes")
  let requiredAttestations ← requiredAttestations.mapM (readItem "required_attestations")
  let humanApprovalGates ← humanApprovalGates.mapM (readItem "human_approval_gates")
  let actionResources ← readRows "action resources" actionResources
  let argumentConstraints ← readRows "argument constraints" argumentConstraints
  let maximumReadBytes ← readInt fields "maximum_read_bytes"
  let maximumWriteBytes ← readInt fields "maximum_write_bytes"
  let maximumCalls ← readInt fields "maximum_calls"
  let maximumParallelism ← readInt fields "maximum_parallelism"
  let maximumDurationSeconds ← readInt fields "maximum_duration_seconds"
  let issuedAtMs ← readInt fields "issued_at_ms"
  let expiresAtMs ← readInt fields "expires_at_ms"
  let compiled ← postInit {
    schema, ceilingId, taskId, taskFingerprint, subjectId, workloadIdentity, tenant, environment,
    synthesizerVersion, compilerVersion, policyVersion, candidateDigest, providerAttestationDigest,
    providerBundleDigest, providerKeyId, providerMethod, providerTrust, requiredTrustTier, tools,
    actions, actionResources, argumentConstraints, networkDestinations, dataClasses,
    maximumReadBytes, maximumWriteBytes, maximumCalls, maximumParallelism, maximumDurationSeconds,
    requiredAttestations, humanApprovalGates, decayProfile, guardianReductionsDigest, issuedAtMs,
    expiresAtMs, compiledDigest }
  compiled.verifyIntegrity
  return compiled

/-- A ceiling that was constructed and carries its own digest. -/
structure Sealed (c : CompiledTaskPolicyCeiling) : Prop where
  constructed : c.postInit = .ok c
  integrity : c.verifyIntegrity = .ok ()

variable {c : CompiledTaskPolicyCeiling}

/-- A sealed ceiling is read back from its dictionary. -/
theorem fromDict_toDict (h : c.Sealed) : fromDict c.toDict = .ok c := by
  refine raiseIf_bind_eq_ok.mpr ⟨fun h ↦ Bool.noConfusion h, ?_⟩
  -- the arrays and the mappings, as tuples
  refine bind_eq_ok.mpr ⟨_, pyTuple_strArray c.tools rfl, ?_⟩
  refine bind_eq_ok.mpr ⟨_, pyTuple_strArray c.actions rfl, ?_⟩
  refine bind_eq_ok.mpr ⟨_, pyTuple_strArray c.networkDestinations rfl, ?_⟩
  refine bind_eq_ok.mpr ⟨_, pyTuple_strArray c.dataClasses rfl, ?_⟩
  refine bind_eq_ok.mpr ⟨_, pyTuple_strArray c.requiredAttestations rfl, ?_⟩
  refine bind_eq_ok.mpr ⟨_, pyTuple_strArray c.humanApprovalGates rfl, ?_⟩
  refine bind_eq_ok.mpr ⟨_, pyItems_strArrays c.actionResources rfl, ?_⟩
  refine bind_eq_ok.mpr ⟨_, pyItems_strArrays c.argumentConstraints rfl, ?_⟩
  -- the text fields, the digests and the tiers
  refine bind_eq_ok.mpr ⟨_, readText_eq rfl, ?_⟩
  refine bind_eq_ok.mpr ⟨_, readText_eq rfl, ?_⟩
  refine bind_eq_ok.mpr ⟨_, readText_eq rfl, ?_⟩
  refine bind_eq_ok.mpr ⟨_, readText_eq rfl, ?_⟩
  refine bind_eq_ok.mpr ⟨_, readText_eq rfl, ?_⟩
  refine bind_eq_ok.mpr ⟨_, readText_eq rfl, ?_⟩
  refine bind_eq_ok.mpr ⟨_, readText_eq rfl, ?_⟩
  refine bind_eq_ok.mpr ⟨_, readText_eq rfl, ?_⟩
  refine bind_eq_ok.mpr ⟨_, readText_eq rfl, ?_⟩
  refine bind_eq_ok.mpr ⟨_, readText_eq rfl, ?_⟩
  refine bind_eq_ok.mpr ⟨_, readText_eq rfl, ?_⟩
  refine bind_eq_ok.mpr ⟨_, readText_eq rfl, ?_⟩
  refine bind_eq_ok.mpr ⟨_, readText_eq rfl, ?_⟩
  refine bind_eq_ok.mpr ⟨_, readText_eq rfl, ?_⟩
  refine bind_eq_ok.mpr ⟨_, readText_eq rfl, ?_⟩
  refine bind_eq_ok.mpr ⟨_, readText_eq rfl, ?_⟩
  refine bind_eq_ok.mpr ⟨_, readText_eq rfl, ?_⟩
  refine bind_eq_ok.mpr ⟨_, readText_eq rfl, ?_⟩
  refine bind_eq_ok.mpr ⟨_, readText_eq rfl, ?_⟩
  refine bind_eq_ok.mpr ⟨c.providerTrust, readTier_eq rfl, ?_⟩
  refine bind_eq_ok.mpr ⟨c.requiredTrustTier, readTier_eq rfl, ?_⟩
  -- the items of the arrays and the mappings
  refine bind_eq_ok.mpr ⟨_, mapM_readItem _ _, ?_⟩
  refine bind_eq_ok.mpr ⟨_, mapM_readItem _ _, ?_⟩
  refine bind_eq_ok.mpr ⟨_, mapM_readItem _ _, ?_⟩
  refine bind_eq_ok.mpr ⟨_, mapM_readItem _ _, ?_⟩
  refine bind_eq_ok.mpr ⟨_, mapM_readItem _ _, ?_⟩
  refine bind_eq_ok.mpr ⟨_, mapM_readItem _ _, ?_⟩
  refine bind_eq_ok.mpr ⟨_, readRows_map _ _, ?_⟩
  refine bind_eq_ok.mpr ⟨_, readRows_map _ _, ?_⟩
  -- the numbers
  refine bind_eq_ok.mpr ⟨_, readInt_eq rfl, ?_⟩
  refine bind_eq_ok.mpr ⟨_, readInt_eq rfl, ?_⟩
  refine bind_eq_ok.mpr ⟨_, readInt_eq rfl, ?_⟩
  refine bind_eq_ok.mpr ⟨_, readInt_eq rfl, ?_⟩
  refine bind_eq_ok.mpr ⟨_, readInt_eq rfl, ?_⟩
  refine bind_eq_ok.mpr ⟨_, readInt_eq rfl, ?_⟩
  refine bind_eq_ok.mpr ⟨_, readInt_eq rfl, ?_⟩
  exact bind_eq_ok.mpr ⟨c, h.constructed, bind_eq_ok.mpr ⟨(), h.integrity, rfl⟩⟩

/-- The dictionary of a ceiling that passes the checks is within the canonical limits. -/
theorem canonicalizes_toDict (h : c.Valid) (hn : c.Normal)
    (hdigest : isDigest c.compiledDigest = true)
    {d : ℕ} (hd : d + 3 ≤ maxCanonicalDepth) : Canonicalizes d (.obj c.toDict) := by
  obtain ⟨hself, -, hfields⟩ := canonicalizes_obj.mp (h.canonicalizes hn hd)
  have hlast : Canonicalizes (d + 1) (.str c.compiledDigest) :=
    (isText_of_isDigest hdigest).canonicalizes (by omega)
  refine canonicalizes_obj.mpr ⟨hself, (by decide : 36 ≤ maxCanonicalItems), fun f hf ↦ ?_⟩
  rcases List.mem_append.mp hf with hf | hf
  · exact hfields f hf
  · obtain rfl := List.mem_singleton.mp hf
    have hkey : IsCanonicalString "compiled_digest" :=
      isCanonicalString_of_isAscii (by decide +kernel) (by decide)
    exact ⟨by omega, hkey, hlast⟩

omit [Platform] in
theorem hasFloat_strArray (xs : List String) : hasFloat (strArray xs) = false := by
  rw [strArray, hasFloat]
  induction xs with
  | nil => rfl
  | cons x xs ih => rw [List.map_cons, hasFloatItems, hasFloat, Bool.false_or, ih]

omit [Platform] in
theorem hasFloat_strArrays (m : Table String (List String)) : hasFloat (strArrays m) = false := by
  rw [strArrays, hasFloat]
  induction m with
  | nil => rfl
  | cons r m ih => rw [List.map_cons, hasFloatFields, hasFloat_strArray, Bool.false_or, ih]

omit [Platform] in
/-- There are no floats in the dictionary of a ceiling. -/
theorem hasFloatFields_toDict (c : CompiledTaskPolicyCeiling) :
    hasFloatFields c.toDict = false := by
  simp [toDict, unsignedDict, Json.fields?, hasFloatFields, hasFloat, hasFloat_strArray,
    hasFloat_strArrays]

end Policy.CompiledTaskPolicyCeiling

/-- What the broker and the verifier rely on of a ceiling that was compiled for a trust state. -/
structure Policy.CompiledTaskPolicyCeiling.CompiledFor [Platform] (trust : ProviderTrustState)
    (c : CompiledTaskPolicyCeiling) : Prop where
  isSealed : c.Sealed
  valid : c.Valid
  normal : c.Normal
  calls : 0 < c.maximumCalls
  expiresAtMs : c.expiresAtMs ≤ trust.expiresAtMs
  trusted : c.requiredTrustTier.order ≤ trust.effectiveTrust.order

theorem Policy.TrustedPolicyCompiler.compiledFor [Platform] {k : TrustedPolicyCompiler}
    {task : TaskDescription} {candidate : CandidateTaskPolicyCeiling} {rs : List AuthorityReduction}
    {approvedHumanGates : List String} {nowMs : ℤ} {C : CompiledTaskPolicyCeiling}
    (h : k.compile task candidate rs approvedHumanGates nowMs = .ok C) :
    C.CompiledFor task.providerAttestedTrust := by
  obtain ⟨hadmissible, -, h⟩ := compile_eq_ok.mp h
  obtain ⟨halive, candidateDigest, reductionsDigest, compiledDigest, -, -, hvalid, hx, rfl⟩ :=
    finish_eq_ok.mp h
  have hconstructed := (CompiledTaskPolicyCeiling.postInit_eq_ok ceiling_normal.withDigest).mpr
    ⟨hvalid.withDigest, isDigest_of_digest_eq_ok hx, rfl⟩
  exact {
    isSealed := ⟨hconstructed, verifyIntegrity_withDigest hx⟩
    valid := hvalid.withDigest
    normal := ceiling_normal.withDigest
    calls := halive.calls
    expiresAtMs := min_le_right _ _
    trusted := hadmissible.trust }

end EventHorizon
