import EventHorizon.Broker.Verify
import EventHorizon.Raft.Failover
import EventHorizon.Replay.Etcd

/-!
# The stores of consumed capabilities agree

Four stores implement `CapabilityConsumptionStore`: a dictionary, a table of SQLite, a key in etcd,
and a table replicated by Raft. Each of them has the laws of consumption in its own state, so where
none of them has a binding yet every list of calls has the same answers.
-/

namespace EventHorizon.Replay

open Broker (ConsumptionStore inMemoryConsumption sqliteConsumption)

/-! ## Stores in one process -/

section Local

variable {κ : Type}

/-- A store called with any objects. Both stores validate their arguments first, and a call that
raises leaves the state as it was. -/
def onArguments (store : ConsumptionStore κ) (s : κ) (a : Arguments) : Except Exn Bool × κ :=
  match a.validate with
  | .error e => (.error e, s)
  | .ok c =>
    match store.consume s c.capabilityId c.claimsDigest c.expiresAt c.consumedAt with
    | .error e => (.error e, s)
    | .ok (s', accepted) => (.ok accepted, s')

/-- The laws of a store of one process, told by its calls with valid arguments. -/
theorem Laws.of_valid {store : ConsumptionStore κ} {bindings : κ → String → Option (String × ℤ)}
    (hfresh : ∀ {s : κ} {c : Consumption}, c.Valid → bindings s c.capabilityId = none →
      ∃ s',
        store.consume s c.capabilityId c.claimsDigest c.expiresAt c.consumedAt = .ok (s', true) ∧
        bindings s' = Function.update (bindings s) c.capabilityId
          (some (c.claimsDigest, c.expiresAt)))
    (hused : ∀ {s : κ} {c : Consumption} {claim : String × ℤ}, c.Valid →
      bindings s c.capabilityId = some claim →
      store.consume s c.capabilityId c.claimsDigest c.expiresAt c.consumedAt =
        if claim = (c.claimsDigest, c.expiresAt) then .ok (s, false) else .error Broker.collided) :
    Laws (onArguments store) (fun _ ↦ True) bindings where
  refused {s a e} _ _ he := by
    have hcls := a.raisesOnly_validate e he
    rw [onArguments, he]
    exact ⟨congrArg Except.error hcls, trivial, rfl⟩
  fresh {s a c} _ _ hvalid hnone := by
    obtain ⟨s', hconsume, hbindings⟩ := hfresh (Arguments.validate_eq_ok hvalid).1 hnone
    rw [onArguments, hvalid]
    simp only [hconsume]
    exact ⟨rfl, trivial, hbindings⟩
  repeated {s a c} _ _ hvalid hsome := by
    have hconsume := hused (Arguments.validate_eq_ok hvalid).1 hsome
    rw [if_pos rfl] at hconsume
    rw [onArguments, hvalid]
    simp only [hconsume]
    exact ⟨rfl, trivial, trivial⟩
  collided {s a c claim} _ _ hvalid hsome hne := by
    have hconsume := hused (Arguments.validate_eq_ok hvalid).1 hsome
    rw [if_neg hne] at hconsume
    rw [onArguments, hvalid]
    simp only [hconsume]
    exact ⟨rfl, trivial, trivial⟩

/-- The bindings of the dictionary. -/
def inMemoryBindings (s : Table String (String × ℤ)) (id : String) : Option
    (String × ℤ) := s.get? id

/-- The bindings in the rows of a namespace and a domain. -/
def sqliteBindings (namespaceName domain : String)
    (s : Table (String × String × String) (String × ℤ × ℤ)) (id : String) : Option (String × ℤ) :=
  (s.get? (namespaceName, domain, id)).map fun row ↦ (row.1, row.2.1)

theorem inMemory_laws : Laws (onArguments inMemoryConsumption) (fun _ ↦ True) inMemoryBindings := by
  refine Laws.of_valid ?_ ?_
  · intro s c hc hnone
    refine ⟨s.put c.capabilityId (c.claimsDigest, c.expiresAt), ?_, funext fun id ↦ ?_⟩
    · refine bind_eq_ok.mpr ⟨c, hc.validateTransition_eq, ?_⟩
      rw [show s.get? c.capabilityId = none from hnone]
      rfl
    · rw [inMemoryBindings, Table.get?_put, Function.update_apply]
      rfl
  · intro s c claim hc hsome
    have hget : s.get? c.capabilityId = some claim := hsome
    have hconsume : inMemoryConsumption.consume s c.capabilityId c.claimsDigest c.expiresAt
        c.consumedAt = do
          raiseIf (claim ≠ (c.claimsDigest, c.expiresAt)) Broker.collided
          return (s, false) := by
      rw [inMemoryConsumption]
      dsimp only
      rw [Broker.validateTransition, hc.validateTransition_eq, hget]
      rfl
    rw [hconsume, raiseIf]
    by_cases hclaim : claim = (c.claimsDigest, c.expiresAt)
    · rw [if_neg (not_not.mpr hclaim), if_pos hclaim]
      rfl
    · rw [if_pos hclaim, if_neg hclaim]
      rfl

theorem sqlite_laws (namespaceName domain : String) :
    Laws (onArguments (sqliteConsumption namespaceName domain)) (fun _ ↦ True)
      (sqliteBindings namespaceName domain) := by
  refine Laws.of_valid ?_ ?_
  · intro s c hc hnone
    have hget : s.get? (namespaceName, domain, c.capabilityId) = none :=
        Option.map_eq_none_iff.mp hnone
    refine ⟨s.insertNew (namespaceName, domain, c.capabilityId)
      (c.claimsDigest, c.expiresAt, c.consumedAt), ?_, funext fun id ↦ ?_⟩
    · refine bind_eq_ok.mpr ⟨c, hc.validateTransition_eq, ?_⟩
      simp only [hget]
      rfl
    · rw [sqliteBindings, Table.get?_insertNew, Function.update_apply, hget, Option.getD_none]
      by_cases hid : id = c.capabilityId
      · rw [if_pos (by rw [hid]), if_pos hid, Option.map_some]
      · rw [if_neg (by simpa using hid), if_neg hid, sqliteBindings]
  · intro s c claim hc hsome
    obtain ⟨row, hget, rfl⟩ := Option.map_eq_some_iff.mp hsome
    have hconsume : (sqliteConsumption namespaceName domain).consume s c.capabilityId c.claimsDigest
        c.expiresAt c.consumedAt = do
          raiseIf (row.1 ≠ c.claimsDigest ∨ row.2.1 ≠ c.expiresAt) Broker.collided
          return (s, false) := by
      rw [sqliteConsumption]
      dsimp only
      rw [Broker.validateTransition, hc.validateTransition_eq]
      simp only [hget]
      rfl
    have hiff : (row.1 ≠ c.claimsDigest ∨ row.2.1 ≠ c.expiresAt) ↔
        ¬(row.1, row.2.1) = (c.claimsDigest, c.expiresAt) := by
      rw [Prod.mk.injEq, not_and_or]
    rw [hconsume, raiseIf]
    by_cases hclaim : (row.1, row.2.1) = (c.claimsDigest, c.expiresAt)
    · rw [if_neg (fun hne ↦ hiff.mp hne hclaim), if_pos hclaim]
      rfl
    · rw [if_pos (hiff.mpr hclaim), if_neg hclaim]
      rfl

end Local

/-! ## All four -/

section Agreement

variable [Platform] {σ : Type}

/-- Stores without any binding answer every list of calls in the same way: `True` for the first
valid use of a capability, `False` for a repetition with the same claims and expiry, and
`CapabilityConsumptionError` for all else; and no call that raises changes a binding. The dictionary
is new; the database, the etcd cluster and the Raft cluster may hold what belongs to other
namespaces and domains. -/
theorem consumptionStores_conform (M : Raft.Membership) (etcd : EtcdStore σ)
    (research : Raft.ResearchStore) (hnamespace : research.namespaceName = etcd.namespaceName)
    (hdomain : research.domain = etcd.domain) {kvs : σ → String → Option String}
    (hetcd : etcd.transport.Atomic etcd.clusterId kvs)
    {rows : Table (String × String × String) (String × ℤ × ℤ)} {s : σ}
    {nodes : Raft.NodeId → Raft.Node}
    (hrows : ∀ id, rows.get? (etcd.namespaceName, etcd.domain, id) = none)
    (hkvs : ∀ id, kvs s (etcd.key id) = none) (hready : Raft.Ready M research.node nodes)
    (hunused : ∀ e ∈ (nodes research.node).log, ∀ id, ¬e.command.Consumes (research.scope, id)) :
    Conforms (onArguments inMemoryConsumption) inMemoryBindings [] ∧
    Conforms (onArguments (sqliteConsumption etcd.namespaceName etcd.domain))
      (sqliteBindings etcd.namespaceName etcd.domain) rows ∧
    Conforms etcd.consume (etcd.bindings kvs) s ∧
    Conforms (research.consume M) research.bindings nodes := by
  have hscope : IsCanonicalString research.scope := by
    obtain ⟨hascii, -, hlen⟩ := isAscii_of_isScope etcd.namespaceName_scope
    obtain ⟨hascii', -, hlen'⟩ := isAscii_of_isScope etcd.domain_scope
    rw [isAscii] at hascii hascii'
    rw [Raft.ResearchStore.scope, hnamespace, hdomain]
    refine isCanonicalString_of_isAscii ?_ ?_
    · rw [isAscii, String.toList_append, String.toList_append, List.all_append, List.all_append,
        hascii, hascii']
      decide
    · rw [String.toList_append, String.toList_append, List.length_append, List.length_append]
      have hcolon : ":".toList.length = 1 := rfl
      have hmax : 257 ≤ maxCanonicalStringBytes := by decide
      omega
  obtain ⟨hserves, hbindings⟩ := Raft.ResearchStore.Serves.of_unused hready hunused
  refine ⟨inMemory_laws.conforms trivial rfl, (sqlite_laws _ _).conforms trivial ?_,
    (etcd.laws hetcd).conforms ?_ ?_, (research.laws M hscope).conforms hserves hbindings⟩
  · exact funext fun id ↦ by rw [sqliteBindings, hrows, Option.map_none]
  · intro id value hvalue
    rw [hkvs] at hvalue
    cases hvalue
  · exact funext fun id ↦ by rw [EtcdStore.bindings, hkvs, Option.bind_none]

end Agreement

/-! ## Stores in use by others, and a leader after another -/

section Sample

/-- The keys that an etcd cluster holds with their values, as the gateway spells them, and its
revision. -/
structure EtcdServer where
  kvs : Table String String
  revision : ℕ
  revision_pos : 0 < revision

namespace EtcdServer

/-- The key that the body of a transaction compares, and the value that it puts under the same
key. -/
def request? (body : PyValue) : Option (String × String) := do
  let compare ← field "compare" body
  let success ← field "success" body
  match compare, success with
  | .list [compare], .list [success] =>
    let put ← field "requestPut" success
    let key ← (field "key" compare).bind textOf
    let putKey ← (field "key" put).bind textOf
    let value ← (field "value" put).bind textOf
    if key = putKey then some (key, value) else none
  | _, _ => none

def header (clusterId : String) (revision : ℕ) : PyValue :=
  .dict [item "cluster_id" (text clusterId), item "revision" (text (decimal revision)),
    item "raft_term" (text (decimal 2))]

def putAnswer (clusterId : String) (revision : ℕ) : PyValue :=
  .dict [item "header" (header clusterId revision), item "succeeded" (.bool true),
    item "responses" (.list [.dict [item "response_put" (.dict [])]])]

def rangeAnswer (clusterId : String) (revision : ℕ) (key value : String) : PyValue :=
  .dict [item "header" (header clusterId revision),
    item "responses" (.list [.dict [item "response_range"
      (.dict [item "kvs" (.list [.dict [item "key" (text key), item "value" (text value)]])])]])]

/-- The gateway of a cluster. -/
def transport (clusterId : String) : EtcdTransport EtcdServer := fun server body ↦
  match request? body with
  | none => (.error ⟨.capabilityConsumptionError, "etcd transaction did not succeed"⟩, server)
  | some (key, value) =>
    match server.kvs.get? key with
    | none =>
      (.ok (putAnswer clusterId (server.revision + 1)),
        { kvs := server.kvs.put key value
          revision := server.revision + 1
          revision_pos := Nat.succ_pos _ })
    | some old => (.ok (rangeAnswer clusterId server.revision key old), server)

theorem request?_transaction (key value : String) :
    request? (transaction key value) = some (key, value) := by
  have htext : ∀ s, textOf (text s) = some s := fun s ↦ PyStr.text?_ofString s
  have hread : request? (transaction key value) = (do
      let key' ← textOf (text key)
      let putKey ← textOf (text key)
      let value' ← textOf (text value)
      if key' = putKey then some (key', value') else none) := rfl
  rw [hread, htext, htext]
  exact if_pos rfl

theorem answered (clusterId : String) {revision : ℕ} (hpos : 0 < revision)
    (items : List (PyKey × PyValue)) :
    Answered clusterId (.dict (item "header" (header clusterId revision) :: items)) where
  isDict := rfl
  header := ⟨header clusterId revision, revision, 2, rfl, rfl, rfl, hpos, rfl, Nat.two_pos, rfl⟩

theorem transport_atomic (clusterId : String) :
    (transport clusterId).Atomic clusterId fun server key ↦ server.kvs.get? key where
  put server key value hget := by
    refine ⟨putAnswer clusterId (server.revision + 1), { kvs := server.kvs.put key value
                                                         revision := server.revision + 1
                                                         revision_pos := Nat.succ_pos _ },
      ?_, ?_, answered clusterId (Nat.succ_pos _) _, rfl, _, _, rfl, rfl, rfl⟩
    · rw [transport, request?_transaction]
      dsimp only
      rw [hget]
    · funext key'
      rw [Table.get?_put, Function.update_apply]
  range server key value old hget := by
    refine ⟨rangeAnswer clusterId server.revision key old, server, ?_, rfl,
      answered clusterId server.revision_pos _, rfl, _, _, _, rfl, rfl, rfl, rfl, rfl, rfl⟩
    rw [transport, request?_transaction]
    dsimp only
    rw [hget]

end EtcdServer

def sampleEtcd : EtcdStore EtcdServer where
  transport := EtcdServer.transport "1"
  clusterId := "1"
  namespaceName := "lab"
  domain := "broker"
  clusterId_ne := by decide
  clusterId_digits := by decide
  clusterId_pos := by decide
  namespaceName_scope := by decide
  domain_scope := by decide

/-- A key that is not one of the store's. -/
def sampleServer : EtcdServer where
  kvs := [(.ofList (b64 (encodeUtf8 "other".toList)), "e30=")]
  revision := 7
  revision_pos := by decide

def sampleResearch : Raft.ResearchStore where
  node := "b"
  namespaceName := "lab"
  domain := "broker"
  namespaceName_ne := by decide
  domain_ne := by decide
  namespaceName_colon := by decide
  domain_colon := by decide

/-- `a` leads and reaches nobody with its proposal; then `b` is elected by `c` and commits an entry
there, at the place of the one that `a` has kept. -/
def failover : List Raft.Action :=
  [.elect 1 "a", .ask 1 .delivered, .count 1, .ask 1 .lost, .finish 1,
    .propose 2 "a" (Raft.consumeCommand "cap_00000000000000000000000a")] ++
  Raft.unreached 2 ++ Raft.unreached 2 ++
  [.commit 2, .elect 3 "b", .ask 3 .lost, .ask 3 .delivered, .count 3, .finish 3,
    .propose 4 "b" (Raft.consumeCommand "cap_00000000000000000000000b")] ++
  Raft.unreached 4 ++ Raft.replicated 4 ++ [.commit 4] ++ Raft.unreached 4 ++ Raft.replicated 4 ++
  [.answer 4]

/-- The four stores, where the database and the etcd cluster are in use by others and the leader of
the Raft cluster has another entry at the first place than its peer. -/
theorem consumptionStores_conform_failover : let _ := pythonPlatform
    ∃ nodes : Raft.NodeId → Raft.Node,
      (nodes "a").log.map Raft.Entry.term = [1] ∧ (nodes "b").log.map Raft.Entry.term = [2] ∧
      Conforms (onArguments inMemoryConsumption) inMemoryBindings [] ∧
      Conforms (onArguments (sqliteConsumption "lab" "broker")) (sqliteBindings "lab" "broker")
        [(("lab", "other", "cap_00000000000000000000000a"), ("00", 2, 1))] ∧
      Conforms sampleEtcd.consume (sampleEtcd.bindings fun server key ↦ server.kvs.get? key)
        sampleServer ∧
      Conforms (sampleResearch.consume Raft.laboratory) sampleResearch.bindings nodes := by
  intro _
  -- `b` leads the second term while `a` still has its own entry of the first
  have hrun : ((Raft.machine Raft.laboratory).runIf Raft.sequential
      (Raft.machine Raft.laboratory).init failover).map (fun c ↦
        ((["a", "b", "c"].map fun i ↦ (c.node i).term, (c.node "a").log.map Raft.Entry.term,
          (c.node "b").log.map Raft.Entry.term), (c.node "b").role,
          (c.node "b").log.map fun e ↦
            (e.command.consumption.toOption.map fun x ↦ x.1.1).getD "")) =
      some (([1, 2, 2], [1], [2]), .leader, ["lab"]) := by decide +kernel
  obtain ⟨c, hc, hstate⟩ := Option.map_eq_some_iff.mp hrun
  simp only [Prod.mk.injEq, List.map_cons, List.map_nil, List.cons.injEq, and_true] at hstate
  obtain ⟨⟨⟨hterm, hterm', hterm''⟩, hlog, hlog'⟩, hrole, hscopes⟩ := hstate
  have hreach : (Raft.machine Raft.laboratory).Reach Raft.sequential c := Machine.path_of_runIf hc
  have hlatest : ∀ v ∈ Raft.laboratory.members, (c.node v).term ≤ (c.node "b").term := by
    rintro v (_ | ⟨_, _ | ⟨_, _ | ⟨_, hv⟩⟩⟩)
    · omega
    · exact Nat.le_refl _
    · omega
    · cases hv
  have hlast : (c.node "b").db.lastIndex = 1 := by
    rw [((Raft.sound_of_sequential hreach).nodes "b").lastIndex_eq]
    exact (List.length_map _).symm.trans (congrArg List.length hlog')
  have hready : Raft.Ready Raft.laboratory "b" c.node :=
    .of_reach hreach (by decide) hrole hlatest (by omega) (by omega)
  -- the one entry of the leader is of another scope
  have hunused : ∀ e ∈ (c.node "b").log, ∀ id,
      ¬e.command.Consumes (sampleResearch.scope, id) := by
    rintro e he id ⟨-, claim, hclaim⟩
    have hmem := List.mem_map_of_mem (f := fun e : Raft.Entry ↦
      (e.command.consumption.toOption.map fun x ↦ x.1.1).getD "") he
    rw [hscopes, hclaim, List.mem_singleton] at hmem
    exact absurd hmem (by decide : sampleResearch.scope ≠ "lab")
  refine ⟨c.node, hlog, hlog', consumptionStores_conform Raft.laboratory sampleEtcd sampleResearch
    rfl rfl (EtcdServer.transport_atomic "1") (fun id ↦ ?_) (fun id ↦ ?_) hready hunused⟩
  · rw [Table.get?_cons, if_neg (by simp [sampleEtcd])]
    rfl
  · -- the key is not that of a capability, whose path begins in another way
    have hne : sampleEtcd.key id ≠ .ofList (b64 (encodeUtf8 "other".toList)) := by
      intro h
      have hb64 := congrArg String.toList h
      rw [EtcdStore.key, String.toList_ofList, String.toList_ofList] at hb64
      have hbytes := b64_injective (encodeUtf8_lt _) (encodeUtf8_lt _) hb64
      have htext := congrArg decodeUtf8 hbytes
      rw [decodeUtf8_encodeUtf8, decodeUtf8_encodeUtf8, Option.some.injEq] at htext
      simp at htext
    change Table.get? [_] _ = none
    rw [Table.get?_cons, if_neg hne.symm]
    rfl

end Sample

end EventHorizon.Replay
