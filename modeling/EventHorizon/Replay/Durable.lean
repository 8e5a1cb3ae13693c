import EventHorizon.Broker.OneUse
import EventHorizon.Canonical.RoundTrip
import EventHorizon.Library.Machine
import EventHorizon.Replay.Service

/-!
# The durable replay client

`DurableReplayClient` of `trusted_replay_client.py`. The client writes its pin into a file before a
call returns, and `remote_client` makes a new client with the pin of the file. The file is replaced
by a temporary one, which is written first: each step of this may raise, and the process may crash
at each step.

The disk is the directory of the file. Its files are regular ones with the permissions that
`mkstemp` gives them. The random name of a temporary file is not that of another file, and not that
of the checkpoint.
-/

namespace EventHorizon.Replay

open Broker (Ed25519 spellSignature)
open FailSafe (PemKeys)
open AuthenticatedReplayClient (Call Transport Verified Attests)

/-! ## Writing the checkpoint -/

/-- The octets of the files of a directory. -/
abbrev Disk := Table String (List ℕ)

inductive WriteStep
  | mkdir
  | mkstemp
  | fdopen
  | write
  | fsync
  | close
  | replace
  | openDirectory
  | fsyncDirectory
  | closeDirectory
  | unlink

/-- How a step fails: it raises, or the process is gone. -/
inductive Interruption
  | raised (e : Exn)
  | crashed

/-- What happens to a write: the steps that fail, the name of the temporary file, and what is in it
when it is not written as a whole. -/
structure Troubles where
  interrupts : WriteStep → Option Interruption
  temporary : String
  torn : List ℕ

/-- A step that leaves `failed` or `done`. -/
def attempt (t : Troubles) (step : WriteStep) (failed done : Disk) :
    Except Interruption Unit × Disk :=
  match t.interrupts step with
  | some i => (.error i, failed)
  | none => (.ok (), done)

/-- The files but one. -/
def without (disk : Disk) (name : String) : Disk := disk.filter fun r ↦ r.1 ≠ name

section Write

variable [Platform]

/-- The temporary file is written; the line that is in it. -/
def writeTemporary (t : Troubles) (data : PyValue) (disk : Disk) :
    Except Interruption (List ℕ) × Disk :=
  andThen (attempt t .fdopen disk disk) fun _ disk ↦
  andThen (data.canonicalBytes.mapError .raised, disk) fun bytes disk ↦
  andThen (attempt t .write (disk.put t.temporary t.torn) (disk.put t.temporary (bytes ++ [10])))
    fun _ disk ↦
  andThen (attempt t .fsync disk disk) fun _ disk ↦
  andThen (attempt t .close disk disk) fun _ disk ↦ (.ok (bytes ++ [10]), disk)

/-- `os.replace` of the file, and the directory is synchronised unless the system is Windows. -/
def replaceFile (t : Troubles) (windows : Bool) (path : String) (line : List ℕ) (disk : Disk) :
    Except Interruption Unit × Disk :=
  andThen (attempt t .replace disk ((without disk t.temporary).put path line)) fun _ disk ↦
    if windows = true then (.ok (), disk)
    else
      andThen (attempt t .openDirectory disk disk) fun _ disk ↦
      andThen (attempt t .fsyncDirectory disk disk) fun _ disk ↦
      attempt t .closeDirectory disk disk

/-- The `finally` of `_atomic_checkpoint`: the temporary file goes, if it is still there. -/
def cleanUp (t : Troubles) (r : Except Interruption Unit × Disk) :
    Except Interruption Unit × Disk :=
  match r.1 with
  | .error .crashed => r
  | _ =>
    if (r.2.get? t.temporary).isSome = true then
      andThen (attempt t .unlink r.2 (without r.2 t.temporary)) fun _ disk ↦ (r.1, disk)
    else r

/-- `_atomic_checkpoint`. -/
def atomicCheckpoint (t : Troubles) (windows : Bool) (path : String) (data : PyValue)
    (disk : Disk) : Except Interruption Unit × Disk :=
  andThen (attempt t .mkdir disk disk) fun _ disk ↦
  andThen (attempt t .mkstemp disk (disk.put t.temporary [])) fun _ disk ↦
  cleanUp t (andThen (writeTemporary t data disk) fun line disk ↦
    replaceFile t windows path line disk)

end Write

/-! ## The client -/

/-- The configuration, without what only the transport and the signer are made of. -/
structure RemoteConfig where
  serviceId : PyValue
  epoch : PyValue
  serverPublicKeyPem : PyValue
  /-- The name of the checkpoint file. -/
  checkpointPath : String
  windows : Bool

section Client

variable [Platform] [Ed25519]

namespace AuthenticatedReplayClient

/-- What `DurableReplayClient` writes. -/
def state (c : AuthenticatedReplayClient) : PyValue := .ofNamed [
  ("service_id", .str (.ofString c.serviceId)),
  ("epoch", .int c.epoch),
  ("server_key_id", .str (.ofString (replayKeyId c.serverPublicKey))),
  ("checkpoint", .int c.pin.checkpoint),
  ("checkpoint_digest", .str (.ofString c.pin.digest))]

/-- `DurableReplayClient.call`. -/
def durableCall (c : AuthenticatedReplayClient) (config : RemoteConfig) (a : Call)
    (transport : Transport) (t : Troubles) (disk : Disk) :
    Except Interruption Verified × AuthenticatedReplayClient × Disk :=
  match c.call a transport with
  | (.error e, c) => (.error (.raised e), c, disk)
  | (.ok v, c) =>
    let r := atomicCheckpoint t config.windows config.checkpointPath c.state disk
    (r.1.map fun _ ↦ v, c, r.2)

end AuthenticatedReplayClient

variable [PemKeys]

/-- The checkpoint and the digest of the file, or those of a new client. The identity is compared as
Python does; an epoch that is no number is refused in any case. -/
def readWitness (config : RemoteConfig) (disk : Disk) : Except Exn (PyValue × PyValue) :=
  match disk.get? config.checkpointPath with
  | none => .ok (.int 0, .none)
  | some data => do
    let malformed : Exn := ⟨.runtimeError, "replay checkpoint witness malformed"⟩
    match ← strictJsonLoads data false with
    | .dict items => do
      raiseIf (PyValue.hasExactKeys items ["service_id", "epoch", "server_key_id", "checkpoint",
        "checkpoint_digest"] = false) malformed
      let key ← loadPublicKey config.serverPublicKeyPem
      let value := PyValue.item items
      raiseIf ((value "service_id").same config.serviceId = false ∨
          (value "epoch").same config.epoch = false ∨
          (value "server_key_id").isText (.ofString (replayKeyId key)) = false)
        ⟨.runtimeError, "replay checkpoint witness identity mismatch"⟩
      return (value "checkpoint", value "checkpoint_digest")
    | _ => throw malformed

/-- `remote_client`. `seed` is what checking the fields and the endpoint and loading the seed of the
client come to, and `opened` what making the transport does. -/
def remoteClient (config : RemoteConfig) (disk : Disk) (seed : Except Exn Ed25519.PrivateKey)
    (opened : Except Exn Unit) : Except Exn AuthenticatedReplayClient := do
  let signingKey ← seed
  let serviceId ← requireScope config.serviceId "service ID"
  let restored ← readWitness config disk
  opened
  let serverPublicKey ← loadPublicKey config.serverPublicKeyPem
  let epoch ← requireInteger config.epoch "client epoch" 1
  let pin ← normalizeCheckpointState config.serviceId config.epoch restored.1 restored.2 "client"
  return {
    serviceId := serviceId
    signingKey := signingKey
    lifetimeMs := 5000
    serverPublicKey := serverPublicKey
    epoch := epoch
    pin := pin }

/-! ## Runs -/

/-- The disk and the client that is running, with the pins of the calls that returned and the
responses that were verified so far. -/
structure Deployment where
  disk : Disk
  client : Option AuthenticatedReplayClient
  returned : List Pin
  verified : List Verified

inductive Event
  | start (seed : Except Exn Ed25519.PrivateKey) (opened : Except Exn Unit)
  | call (a : Call) (transport : Transport) (t : Troubles)
  | stop

/-- The deployment after a call of its client. -/
def Deployment.called (s : Deployment) (config : RemoteConfig) (c : AuthenticatedReplayClient)
    (a : Call) (transport : Transport) (t : Troubles) : Deployment :=
  let r := c.durableCall config a transport t s.disk
  { disk := r.2.2
    client := match r.1 with
      | .error .crashed => none
      | _ => some r.2.1
    returned := match r.1 with
      | .ok _ => r.2.1.pin :: s.returned
      | .error _ => s.returned
    verified := match c.exchange a transport with
      | .ok v => v :: s.verified
      | .error _ => s.verified }

/-- The runs of a configuration: clients are started, called and stopped, one at a time. -/
def machine (config : RemoteConfig) : Machine Deployment Event where
  init := ⟨[], none, [], []⟩
  step s
    | .start seed opened =>
      match s.client, remoteClient config s.disk seed opened with
      | none, .ok c => some { s with client := some c }
      | none, .error _ => some s
      | some _, _ => none
    | .call a transport t =>
      match s.client with
      | some c =>
        if s.disk.get? t.temporary = none ∧ t.temporary ≠ config.checkpointPath then
          some (s.called config c a transport t)
        else none
      | none => none
    | .stop => some { s with client := none }

end Client

/-! ## What a write leaves -/

section Write

variable {t : Troubles} {path : String} {disk : Disk} {data : PyValue} {x : Option (List ℕ)}

/-- What is at the path. -/
def Has (path : String) (x : Option (List ℕ)) (disk : Disk) : Prop := disk.get? path = x

theorem get?_without (h : t.temporary ≠ path) :
    (without disk t.temporary).get? path = disk.get? path := by
  rw [without, Table.get?_filter_ne, if_neg h.symm]

theorem has_attempt (t : Troubles) (step : WriteStep) {failed done : Disk}
    (hfailed : Has path x failed)
    (hdone : Has path x done) : Has path x (attempt t step failed done).2 := by
  rw [attempt]
  split
  · exact hfailed
  · exact hdone

theorem has_writeTemporary [Platform] (data : PyValue) (h : t.temporary ≠ path)
    (hdisk : Has path x disk) :
    Has path x (writeTemporary t data disk).2 := by
  have hput : ∀ {disk : Disk} (content : List ℕ), Has path x disk →
      Has path x (disk.put t.temporary content) := fun _ hdisk ↦ (Table.get?_put_ne h.symm).trans
        hdisk
  have hstep : ∀ (step : WriteStep) {disk : Disk}, Has path x disk →
      Has path x (attempt t step disk disk).2 := fun step _ hdisk ↦ has_attempt t step hdisk hdisk
  rw [writeTemporary]
  have hopened := hstep .fdopen hdisk
  refine andThen_snd (P := Has path x) (fun _ _ ↦ hopened) fun _ _ ↦ ?_
  refine andThen_snd (P := Has path x) (fun _ _ ↦ hopened) fun bytes _ ↦ ?_
  have hwritten := has_attempt t .write (hput t.torn hopened) (hput (bytes ++ [10]) hopened)
  refine andThen_snd (P := Has path x) (fun _ _ ↦ hwritten) fun _ _ ↦ ?_
  have hsynced := hstep .fsync hwritten
  refine andThen_snd (P := Has path x) (fun _ _ ↦ hsynced) fun _ _ ↦ ?_
  have hclosed := hstep .close hsynced
  exact andThen_snd (P := Has path x) (fun _ _ ↦ hclosed) fun _ _ ↦ hclosed

theorem writeTemporary_eq_ok [Platform] {line : List ℕ} (h : (writeTemporary t data disk).1 = .ok
    line) :
    ∃ bytes, data.canonicalBytes = .ok bytes ∧ line = bytes ++ [10] := by
  rw [writeTemporary] at h
  obtain ⟨_, -, h⟩ := andThen_fst_eq_ok.mp h
  obtain ⟨bytes, hbytes, h⟩ := andThen_fst_eq_ok.mp h
  obtain ⟨_, -, h⟩ := andThen_fst_eq_ok.mp h
  obtain ⟨_, -, h⟩ := andThen_fst_eq_ok.mp h
  obtain ⟨_, -, h⟩ := andThen_fst_eq_ok.mp h
  exact ⟨bytes, mapError_eq_ok.mp hbytes, (Except.ok.inj h).symm⟩

theorem has_replaceFile (t : Troubles) (windows : Bool) (line : List ℕ) (hdisk : Has path x disk) :
    (Has path x (replaceFile t windows path line disk).2 ∧
      ∃ i, (replaceFile t windows path line disk).1 = .error i) ∨
    Has path (some line) (replaceFile t windows path line disk).2 := by
  rw [replaceFile, attempt]
  split
  case h_1 i _ => exact .inl ⟨hdisk, i, rfl⟩
  rw [andThen_ok]
  right
  have hline : Has path (some line) ((without disk t.temporary).put path line) :=
    Table.get?_put_self
  split
  · exact hline
  · have hopened := has_attempt t .openDirectory hline hline
    refine andThen_snd (P := Has path (some line)) (fun _ _ ↦ hopened) fun _ _ ↦ ?_
    have hsynced := has_attempt t .fsyncDirectory hopened hopened
    refine andThen_snd (P := Has path (some line)) (fun _ _ ↦ hsynced) fun _ _ ↦ ?_
    exact has_attempt t _ hsynced hsynced

theorem has_cleanUp {r : Except Interruption Unit × Disk} (h : t.temporary ≠ path)
    (hr : Has path x r.2) : Has path x (cleanUp t r).2 := by
  rw [cleanUp]
  split
  · exact hr
  · split
    · have hunlink := has_attempt t .unlink hr ((get?_without h).trans hr)
      exact andThen_snd (P := Has path x) (fun _ _ ↦ hunlink) fun _ _ ↦ hunlink
    · exact hr

theorem cleanUp_error {r : Except Interruption Unit × Disk} {i : Interruption}
    (h : r.1 = .error i) : ∃ i, (cleanUp t r).1 = .error i := by
  rw [cleanUp]
  split
  · exact ⟨i, h⟩
  · split
    · rw [andThen]
      split
      case h_1 i' _ => exact ⟨i', rfl⟩
      case h_2 => exact ⟨i, h⟩
    · exact ⟨i, h⟩

/-- **The checkpoint is written as a whole**, whatever fails: the file is as it was and the write
fails, or the file is the line of the data. -/
theorem has_atomicCheckpoint [Platform] (data : PyValue) (h : t.temporary ≠ path)
    (windows : Bool) (hdisk : Has path x disk) :
    (Has path x (atomicCheckpoint t windows path data disk).2 ∧
      ∃ i, (atomicCheckpoint t windows path data disk).1 = .error i) ∨
    ∃ bytes, data.canonicalBytes = .ok bytes ∧
      Has path (some (bytes ++ [10])) (atomicCheckpoint t windows path data disk).2 := by
  rw [atomicCheckpoint, attempt]
  split
  case h_1 i _ => exact .inl ⟨hdisk, i, rfl⟩
  rw [andThen_ok, attempt]
  split
  case h_1 i _ => exact .inl ⟨hdisk, i, rfl⟩
  rw [andThen_ok]
  have hmade : Has path x (disk.put t.temporary []) := (Table.get?_put_ne h.symm).trans hdisk
  have hwritten := has_writeTemporary data h hmade
  rw [andThen]
  cases hline : (writeTemporary t data (disk.put t.temporary [])).1 with
  | error i => exact .inl ⟨has_cleanUp h hwritten, cleanUp_error rfl⟩
  | ok line =>
    obtain ⟨bytes, hbytes, rfl⟩ := writeTemporary_eq_ok hline
    obtain ⟨hsame, i, hi⟩ | hreplaced := has_replaceFile t windows (bytes ++ [10])
      hwritten
    · exact .inl ⟨has_cleanUp h hsame, cleanUp_error hi⟩
    · exact .inr ⟨bytes, hbytes, has_cleanUp h hreplaced⟩

end Write

/-! ## Reading the checkpoint -/

section Client

variable [Platform]

theorem normalizeCheckpointState_eq_ok {serviceId epoch checkpoint checkpointDigest : PyValue}
    {label : String} {p : Pin}
    (h : normalizeCheckpointState serviceId epoch checkpoint checkpointDigest label = .ok p) :
    checkpoint = .int p.checkpoint ∧ (p.checkpoint = 0 → IsGenesis serviceId epoch p) ∧
      (checkpointDigest = .none ∧ p.checkpoint = 0 ∨
        checkpointDigest = .str (.ofString p.digest)) := by
  rw [normalizeCheckpointState] at h
  obtain ⟨normalized, hcheckpoint, h⟩ := bind_eq_ok.mp h
  obtain ⟨expected, hexpected, h⟩ := bind_eq_ok.mp h
  rw [requireInteger_eq_ok] at hcheckpoint
  split at h
  case isTrue hzero =>
    rw [hzero] at hcheckpoint
    split at h
    case isTrue hnone =>
      obtain ⟨supplied, hsupplied, h⟩ := bind_eq_ok.mp h
      cases h
      have hsame := PyStr.ofString_injective (PyValue.str.inj (requireDigest_eq_ok hsupplied))
      refine ⟨hcheckpoint, fun _ ↦ ⟨rfl, hexpected.trans (congrArg _ hsame)⟩, .inl ⟨?_, rfl⟩⟩
      cases checkpointDigest with
      | none => rfl
      | _ => cases hnone
    case isFalse =>
      obtain ⟨supplied, hsupplied, h⟩ := bind_eq_ok.mp h
      obtain ⟨hsame, h⟩ := raiseIf_bind_eq_ok.mp h
      cases h
      refine ⟨hcheckpoint, fun _ ↦ ⟨rfl, ?_⟩, .inr (requireDigest_eq_ok hsupplied)⟩
      rw [not_not] at hsame
      exact hexpected.trans (congrArg _ hsame.symm)
  case isFalse hzero =>
    obtain ⟨-, h⟩ := raiseIf_bind_eq_ok.mp h
    obtain ⟨supplied, hsupplied, h⟩ := bind_eq_ok.mp h
    cases h
    exact ⟨hcheckpoint, fun h ↦ absurd h hzero, .inr (requireDigest_eq_ok hsupplied)⟩

variable [Ed25519] [PemKeys] {config : RemoteConfig} {c c' : AuthenticatedReplayClient}
  {disk : Disk}

/-- The client has the identity of the configuration. -/
structure OfConfig (config : RemoteConfig) (c : AuthenticatedReplayClient) : Prop where
  serviceId : config.serviceId = .str (.ofString c.serviceId)
  epoch : config.epoch = .int c.epoch
  key : loadPublicKey config.serverPublicKeyPem = .ok c.serverPublicKey

theorem remoteClient_eq_ok {seed : Except Exn Ed25519.PrivateKey} {opened : Except Exn Unit}
    (h : remoteClient config disk seed opened = .ok c) :
    OfConfig config c ∧ ∃ restored, readWitness config disk = .ok restored ∧
      normalizeCheckpointState config.serviceId config.epoch restored.1 restored.2 "client" =
        .ok c.pin := by
  rw [remoteClient] at h
  obtain ⟨signingKey, -, h⟩ := bind_eq_ok.mp h
  obtain ⟨serviceId, hservice, h⟩ := bind_eq_ok.mp h
  obtain ⟨restored, hrestored, h⟩ := bind_eq_ok.mp h
  obtain ⟨_, -, h⟩ := bind_eq_ok.mp h
  obtain ⟨key, hkey, h⟩ := bind_eq_ok.mp h
  obtain ⟨epoch, hepoch, h⟩ := bind_eq_ok.mp h
  obtain ⟨pin, hpin, h⟩ := bind_eq_ok.mp h
  cases h
  exact ⟨⟨(requireScope_eq_ok hservice).1, requireInteger_eq_ok.mp hepoch, hkey⟩, restored,
    hrestored, hpin⟩

/-! ## The file of a client -/

namespace AuthenticatedReplayClient

/-- What the client writes, in the order of the keys. -/
def stateFields (c : AuthenticatedReplayClient) : List (String × Json) :=
  [("checkpoint", .int c.pin.checkpoint), ("checkpoint_digest", .str c.pin.digest),
    ("epoch", .int c.epoch), ("server_key_id", .str (replayKeyId c.serverPublicKey)),
    ("service_id", .str c.serviceId)]

omit [PemKeys] in
theorem listed_state : c.state.listed = .ofJson (.obj c.stateFields) := by
  have hsort := PyValue.sortItems_ofString [("service_id", PyValue.str (.ofString c.serviceId)),
    ("epoch", .int c.epoch), ("server_key_id", .str (.ofString (replayKeyId c.serverPublicKey))),
    ("checkpoint", .int c.pin.checkpoint), ("checkpoint_digest", .str (.ofString c.pin.digest))]
  simp only [List.map_cons, List.map_nil] at hsort
  rw [state, PyValue.ofNamed, PyValue.listed]
  refine congrArg PyValue.dict (hsort.trans ?_)
  simp [Json.sortFields, Json.orderedInsert, stateFields, PyValue.ofFields, PyValue.ofJson]

omit [PemKeys] in
theorem distinct_state : c.state.Distinct := by
  refine ⟨?_, trivial, trivial, trivial, trivial, trivial, trivial⟩
  simp only [List.map_cons, List.map_nil]
  decide

omit [PemKeys] in
theorem floatFree_state : c.state.FloatFree := ⟨trivial, trivial, trivial, trivial, trivial,
    trivial⟩

omit [PemKeys] in
theorem item_state {key : String} {x : Json} (h : Json.lookup c.stateFields key = some x) :
    PyValue.item (PyValue.ofFields c.stateFields) key = .ofJson x := by
  have hat := PyValue.at?_ofFields c.stateFields key
  rw [h] at hat
  exact congrArg (fun o ↦ o.getD .none) hat

end AuthenticatedReplayClient

/-- The file has the pin, as a client of the configuration has written it. -/
def Stored (config : RemoteConfig) (disk : Disk) (p : Pin) : Prop :=
  ∃ c, OfConfig config c ∧ c.pin = p ∧ ∃ bytes, c.state.canonicalBytes = .ok bytes ∧
    Has config.checkpointPath (some (bytes ++ [10])) disk

theorem Stored.readWitness_eq {p : Pin} (h : Stored config disk p) :
    readWitness config disk = .ok (.int p.checkpoint, .str (.ofString p.digest)) := by
  obtain ⟨c, hconfig, rfl, bytes, hbytes, hfile⟩ := h
  have hloads := strictJsonLoads_line c.distinct_state c.floatFree_state hbytes
  rw [c.listed_state] at hloads
  have hitem : ∀ {key : String} {x : Json}, Json.lookup c.stateFields key = some x →
      PyValue.item (PyValue.ofFields c.stateFields) key = .ofJson x := c.item_state
  rw [readWitness, hfile]
  refine bind_eq_ok.mpr ⟨_, hloads, ?_⟩
  rw [PyValue.ofJson]
  have hkeys : PyValue.hasExactKeys (PyValue.ofFields c.stateFields) ["service_id", "epoch",
      "server_key_id", "checkpoint", "checkpoint_digest"] = true := rfl
  refine raiseIf_bind_eq_ok.mpr ⟨by rw [hkeys]; exact Bool.noConfusion, bind_eq_ok.mpr
    ⟨_, hconfig.key, ?_⟩⟩
  refine raiseIf_bind_eq_ok.mpr ⟨?_, ?_⟩
  · rw [hconfig.serviceId, hconfig.epoch, hitem (x := .str c.serviceId) rfl,
      hitem (x := .int c.epoch) rfl, hitem (x := .str (replayKeyId c.serverPublicKey)) rfl]
    simp [PyValue.ofJson, PyValue.same, PyValue.number?, PyNumber.same, PyValue.isText]
  · rw [hitem (x := .int c.pin.checkpoint) rfl, hitem (x := .str c.pin.digest) rfl]
    rfl

/-- A client that is made with a file of the configuration has the pin of the file. -/
theorem Stored.pin_eq {p : Pin} {seed : Except Exn Ed25519.PrivateKey} {opened : Except Exn Unit}
    (h : Stored config disk p) (hc : remoteClient config disk seed opened = .ok c) : c.pin = p := by
  obtain ⟨-, restored, hrestored, hpin⟩ := remoteClient_eq_ok hc
  rw [h.readWitness_eq, Except.ok.injEq] at hrestored
  obtain ⟨hcheckpoint, -, hdigest⟩ := normalizeCheckpointState_eq_ok hpin
  rw [← hrestored] at hcheckpoint hdigest
  obtain ⟨hnone, -⟩ | hdigest := hdigest
  · cases hnone
  · exact (Pin.ext (PyValue.int.inj hcheckpoint)
      (PyStr.ofString_injective (PyValue.str.inj hdigest))).symm

theorem isGenesis_of_none {seed : Except Exn Ed25519.PrivateKey} {opened : Except Exn Unit}
    (h : Has config.checkpointPath none disk)
    (hc : remoteClient config disk seed opened = .ok c) :
    IsGenesis config.serviceId config.epoch c.pin := by
  obtain ⟨-, restored, hrestored, hpin⟩ := remoteClient_eq_ok hc
  rw [readWitness, h, Except.ok.injEq] at hrestored
  obtain ⟨hcheckpoint, hgenesis, -⟩ := normalizeCheckpointState_eq_ok hpin
  rw [← hrestored] at hcheckpoint
  exact hgenesis (PyValue.int.inj hcheckpoint).symm

/-! ## The pins of a run -/

/-- A pin that the client may have: where the epoch begins, or the checkpoint of a response that was
verified, signed by the service for the epoch under the key. -/
def Known (config : RemoteConfig) (verified : List Verified) (p : Pin) : Prop :=
  IsGenesis config.serviceId config.epoch p ∨
    ∃ v ∈ verified, v.pin = p ∧ ∃ serviceId epoch key,
      config.serviceId = .str (.ofString serviceId) ∧ config.epoch = .int epoch ∧
      loadPublicKey config.serverPublicKeyPem = .ok key ∧ Attests serviceId epoch key v

theorem Known.mono {verified verified' : List Verified} {p : Pin} (h : Known config verified p)
    (hsub : ∀ v ∈ verified, v ∈ verified') : Known config verified' p := by
  obtain hgenesis | ⟨v, hv, h⟩ := h
  · exact .inl hgenesis
  · exact .inr ⟨v, hsub v hv, h⟩

/-- What holds throughout, with the pin of the file if there is one: it is not behind the pins of
the calls that returned, and the client is not behind it. -/
structure Inv (config : RemoteConfig) (s : Deployment) (stored : Option Pin) : Prop where
  none : stored = .none → Has config.checkpointPath .none s.disk
  some : ∀ p, stored = .some p → Stored config s.disk p ∧ Known config s.verified p
  returned : ∀ q ∈ s.returned, ∃ p, stored = .some p ∧ q.le p
  client : ∀ c, s.client = .some c → OfConfig config c ∧ Known config s.verified c.pin ∧
    ∀ p, stored = .some p → p.le c.pin

variable {s s' : Deployment} {stored : Option Pin} {a : Call} {transport : Transport} {t : Troubles}

/-- A client that is started has the pin of the file, or it starts at the beginning. -/
theorem Inv.remoteClient (h : Inv config s stored) {seed : Except Exn Ed25519.PrivateKey}
    {opened : Except Exn Unit} (hc : remoteClient config s.disk seed opened = .ok c) :
    OfConfig config c ∧ Known config s.verified c.pin ∧ ∀ p, stored = .some p → p.le c.pin := by
  refine ⟨(remoteClient_eq_ok hc).1, ?_⟩
  cases hstored : stored with
  | none =>
    exact ⟨.inl (isGenesis_of_none (h.none hstored) hc), fun p hp ↦ (nomatch hp)⟩
  | some p =>
    obtain ⟨hfile, hknown⟩ := h.some p hstored
    rw [hfile.pin_eq hc]
    refine ⟨hknown, fun p' hp' ↦ ?_⟩
    rw [Option.some.inj hp']
    exact Pin.le_refl p'

theorem Inv.unwritten (h : Inv config s stored) {disk' : Disk}
    {client' : Option AuthenticatedReplayClient}
    (hdisk : disk'.get? config.checkpointPath = s.disk.get? config.checkpointPath)
    (hclient : ∀ c, client' = .some c → OfConfig config c ∧ Known config s.verified c.pin ∧
      ∀ p, stored = .some p → p.le c.pin) :
    Inv config { s with disk := disk', client := client' } stored where
  none hnone := hdisk.trans (h.none hnone)
  some p hp := by
    obtain ⟨⟨c, hconfig, hpin, bytes, hbytes, hfile⟩, hknown⟩ := h.some p hp
    exact ⟨⟨c, hconfig, hpin, bytes, hbytes, hdisk.trans hfile⟩, hknown⟩
  returned := h.returned
  client := hclient

theorem Inv.verify (h : Inv config s stored) (verified' : List Verified)
    (hsub : ∀ v ∈ s.verified, v ∈ verified') : Inv config { s with verified := verified' } stored
      where
  none := h.none
  some p hp := ⟨(h.some p hp).1, (h.some p hp).2.mono hsub⟩
  returned := h.returned
  client c hc := by
    obtain ⟨hconfig, hknown, hle⟩ := h.client c hc
    exact ⟨hconfig, hknown.mono hsub, hle⟩

/-- The client has written its pin, and then it returns or not. -/
theorem Inv.written (h : Inv config s stored) {disk' : Disk} {bytes : List ℕ} {returned' : List Pin}
    {client' : Option AuthenticatedReplayClient} (hconfig : OfConfig config c)
    (hknown : Known config s.verified c.pin) (hle : ∀ p, stored = .some p → p.le c.pin)
    (hbytes : c.state.canonicalBytes = .ok bytes)
    (hfile : Has config.checkpointPath (.some (bytes ++ [10])) disk')
    (hreturned : ∀ q ∈ returned', q = c.pin ∨ q ∈ s.returned)
    (hclient : ∀ c', client' = .some c' → c' = c) :
    Inv config ⟨disk', client', returned', s.verified⟩ (.some c.pin) where
  none hnone := nomatch hnone
  some p hp := by
    rw [← Option.some.inj hp]
    exact ⟨⟨c, hconfig, rfl, bytes, hbytes, hfile⟩, hknown⟩
  returned q hq := by
    refine ⟨c.pin, rfl, ?_⟩
    obtain rfl | hq := hreturned q hq
    · exact Pin.le_refl _
    · obtain ⟨p, hp, hqp⟩ := h.returned q hq
      exact Pin.le_trans hqp (hle p hp)
  client c' hc' := by
    rw [hclient c' hc']
    refine ⟨hconfig, hknown, fun p hp ↦ ?_⟩
    rw [← Option.some.inj hp]
    exact Pin.le_refl _

/-- What a call preserves. -/
theorem Inv.called (h : Inv config s stored) (hclient : s.client = .some c)
    (htemporary : t.temporary ≠ config.checkpointPath) :
    ∃ stored, Inv config (s.called config c a transport t) stored := by
  obtain ⟨hconfig, hknown, hle⟩ := h.client c hclient
  obtain ⟨e, hcall⟩ | ⟨v, hexchange, hattests, hpin, hcall⟩ := c.call_cases a transport
  · have hdurable : c.durableCall config a transport t s.disk =
        (.error (.raised e), c, s.disk) := by
      rw [AuthenticatedReplayClient.durableCall, hcall]
    refine ⟨stored, ?_⟩
    rw [Deployment.called, hdurable, ← hclient]
    refine h.verify _ fun v hv ↦ ?_
    split
    · exact List.mem_cons_of_mem _ hv
    · exact hv
  · -- the response is known, and what matters is how far its pin has come
    have hverified := h.verify (v :: s.verified) fun _ ↦ List.mem_cons_of_mem _
    have hnew : Known config (v :: s.verified) v.pin := .inr ⟨v, List.mem_cons_self, rfl, _, _, _,
      hconfig.serviceId, hconfig.epoch, hconfig.key, hattests⟩
    have hconfig' : OfConfig config { c with pin := v.pin } := ⟨hconfig.1, hconfig.2, hconfig.3⟩
    have hle' : ∀ p, stored = .some p → p.le v.pin := fun p hp ↦ Pin.le_trans (hle p hp) hpin
    rw [Deployment.called, AuthenticatedReplayClient.durableCall, hcall, hexchange]
    dsimp only
    obtain ⟨hsame, i, hi⟩ | ⟨bytes, hbytes, hfile⟩ := has_atomicCheckpoint
      ({ c with pin := v.pin } : AuthenticatedReplayClient).state htemporary config.windows
      (rfl : Has config.checkpointPath _ s.disk)
    · refine ⟨stored, ?_⟩
      rw [hi]
      refine hverified.unwritten hsame fun c' hc' ↦ ?_
      obtain rfl : c' = { c with pin := v.pin } := by
        cases i with
        | raised e => exact (Option.some.inj hc').symm
        | crashed => cases hc'
      exact ⟨hconfig', hnew, hle'⟩
    · refine ⟨_, hverified.written hconfig' hnew hle' hbytes hfile ?_ ?_⟩
      · intro q hq
        split at hq
        · exact List.mem_cons.mp hq
        · exact .inr hq
      · intro c' hc'
        split at hc'
        · cases hc'
        · exact (Option.some.inj hc').symm

theorem Inv.step (h : Inv config s stored) {e : Event} (hstep : (machine config).step s e = .some
    s') :
    ∃ stored, Inv config s' stored := by
  cases e with
  | start seed opened =>
    dsimp only [machine] at hstep
    split at hstep
    · rename_i c _ hc
      rw [← Option.some.inj hstep]
      refine ⟨stored, h.unwritten rfl fun c' hc' ↦ ?_⟩
      rw [← Option.some.inj hc']
      exact h.remoteClient hc
    · rw [← Option.some.inj hstep]
      exact ⟨stored, h⟩
    · cases hstep
  | call a transport t =>
    dsimp only [machine] at hstep
    split at hstep
    case h_1 c hclient =>
      split at hstep
      case isTrue hfresh =>
        rw [← Option.some.inj hstep]
        exact h.called hclient hfresh.2
      case isFalse => cases hstep
    case h_2 => cases hstep
  | stop =>
    rw [← Option.some.inj hstep]
    exact ⟨stored, h.unwritten rfl fun _ hc ↦ (by cases hc)⟩

theorem inv_of_reach (h : (machine config).Reach (fun _ _ ↦ True) s) :
    ∃ stored, Inv config s stored :=
  h.invariant (P := fun s ↦ ∃ stored, Inv config s stored)
    ⟨.none, ⟨fun _ ↦ rfl, fun _ h ↦ (nomatch h), fun _ h ↦ (nomatch h), fun _ h ↦ (nomatch h)⟩⟩
    fun ⟨_, hs⟩ _ hstep ↦ hs.step hstep

/-- **The durable high-water mark.** Whatever the transport, the writes and the process have done, a
client that is made now has a pin that is behind none with which a call returned, and that is where
the epoch begins or was verified in a signed response. -/
theorem remoteClient_pin {config : RemoteConfig} {s : Deployment}
    (h : (machine config).Reach (fun _ _ ↦ True) s) {seed : Except Exn Ed25519.PrivateKey}
    {opened : Except Exn Unit} {c : AuthenticatedReplayClient}
    (hc : remoteClient config s.disk seed opened = .ok c) :
    (∀ p ∈ s.returned, p.le c.pin) ∧ Known config s.verified c.pin := by
  obtain ⟨stored, hs⟩ := inv_of_reach h
  obtain ⟨-, hknown, hle⟩ := hs.remoteClient hc
  refine ⟨fun q hq ↦ ?_, hknown⟩
  obtain ⟨p, hp, hqp⟩ := hs.returned q hq
  exact Pin.le_trans hqp (hle p hp)

end Client

/-! ## A crash between two calls -/

section Again

variable [Platform] [Ed25519] {c : AuthenticatedReplayClient} {a : Call} {transport : Transport}
  {v : Verified} {config : RemoteConfig} {s : Deployment} {t : Troubles} {status : String}

theorem AuthenticatedReplayClient.call_of_exchange (h : c.exchange a transport = .ok v)
    (hstatus : PyValue.item v.items "status" = .str (.ofString status))
    (hne : status ≠ "checkpoint-mismatch") (hle : c.pin.le v.pin) :
    c.call a transport = (.ok v, { c with pin := v.pin }) := by
  have hother :
      (PyValue.item v.items "status").isText (.ofString "checkpoint-mismatch") ≠ true := by
    rw [hstatus, Ne, PyValue.isText_iff]
    exact fun heq ↦ hne (PyStr.ofString_injective (PyValue.str.inj heq))
  rw [AuthenticatedReplayClient.call, h, andThen_ok, if_neg hother, advance_pin hle]

/-- The deployment after such a call: its pin is in the file, or the write has failed. -/
theorem called_of_exchange (h : c.exchange a transport = .ok v)
    (hstatus : PyValue.item v.items "status" = .str (.ofString status))
    (hne : status ≠ "checkpoint-mismatch") (hle : c.pin.le v.pin)
    {r : Except Interruption Unit × Disk}
    (hwrite : atomicCheckpoint t config.windows config.checkpointPath
      ({ c with pin := v.pin } : AuthenticatedReplayClient).state s.disk = r) :
    s.called config c a transport t =
      { disk := r.2
        client := match r.1 with
          | .error .crashed => none
          | _ => some { c with pin := v.pin }
        returned := match r.1 with
          | .ok _ => v.pin :: s.returned
          | .error _ => s.returned
        verified := v :: s.verified } := by
  rw [Deployment.called, AuthenticatedReplayClient.durableCall,
    c.call_of_exchange h hstatus hne hle, h]
  dsimp only
  rw [hwrite]
  obtain ⟨result, disk⟩ := r
  cases result with
  | ok u => rfl
  | error i => cases i <;> rfl

variable [PemKeys]

theorem step_start {seed : Except Exn Ed25519.PrivateKey} {opened : Except Exn Unit}
    (hclient : s.client = none) (h : remoteClient config s.disk seed opened = .ok c) :
    (machine config).step s (.start seed opened) = some { s with client := some c } := by
  simp only [machine, hclient, h]

theorem step_call (hclient : s.client = some c) (hfresh : s.disk.get? t.temporary = none)
    (hne : t.temporary ≠ config.checkpointPath) :
    (machine config).step s (.call a transport t) = some (s.called config c a transport t) := by
  simp only [machine, hclient]
  exact if_pos ⟨hfresh, hne⟩

end Again

section Pins

variable [Platform] {serviceId epoch : PyValue} {x : String}

/-- The pin of a new client exists as soon as its epoch has a genesis digest. -/
theorem exists_normalizeCheckpointState (label : String)
    (hgenesis : genesisCheckpointDigest serviceId epoch = .ok x) (hx : isDigest x = true) :
    ∃ p : Pin, p.checkpoint = 0 ∧
      normalizeCheckpointState serviceId epoch (.int 0) .none label = .ok p := by
  have hzero : requireInteger (.int 0) (label ++ " checkpoint") 0 = .ok ⟨0, le_rfl⟩ :=
    requireInteger_eq_ok.mpr rfl
  refine ⟨⟨0, x, le_rfl, hx⟩, rfl, ?_⟩
  refine bind_eq_ok.mpr ⟨_, hzero, bind_eq_ok.mpr ⟨_, hgenesis, ?_⟩⟩
  rw [if_pos rfl]
  exact bind_eq_ok.mpr ⟨_, requireDigest_ofString hx, rfl⟩

theorem normalizeCheckpointState_of_ne (label : String)
    (hgenesis : genesisCheckpointDigest serviceId epoch = .ok x) {p : Pin}
    (hp : p.checkpoint ≠ 0) :
    normalizeCheckpointState serviceId epoch (.int p.checkpoint) (.str (.ofString p.digest))
      label = .ok p := by
  have hcheckpoint : requireInteger (.int p.checkpoint) (label ++ " checkpoint") 0 =
      .ok ⟨p.checkpoint, p.nonneg⟩ := requireInteger_eq_ok.mpr rfl
  refine bind_eq_ok.mpr ⟨_, hcheckpoint, bind_eq_ok.mpr ⟨_, hgenesis, ?_⟩⟩
  rw [if_neg hp]
  refine raiseIf_bind_eq_ok.mpr ⟨Bool.noConfusion, ?_⟩
  exact bind_eq_ok.mpr ⟨_, requireDigest_ofString p.isDigest_digest, rfl⟩

end Pins

namespace Sample

attribute [local instance] pythonPlatform Broker.Sample.keyedHash

@[reducible] def pemKeys : PemKeys where
  load _ := .ok (some [1])

attribute [local instance] pemKeys

def config : RemoteConfig where
  serviceId := .str (.ofString "replay")
  epoch := .int 1
  serverPublicKeyPem := .str (.ofString "pem")
  checkpointPath := "replay-checkpoint-signer.json"
  windows := false

def client (p : Pin) : AuthenticatedReplayClient := ⟨"replay", id [2], 5000, id [1], 1, p⟩

def service : ReferenceReplayService := ⟨"replay", id [1]⟩

/-- The checkpoint of the service after some requests. -/
def pin (n : ℕ) : Pin :=
  ⟨n + 1, Platform.sha256 [n], Int.natCast_nonneg (n + 1), Platform.isDigest_sha256 [n]⟩

/-- The nonce of a request is not one that the service has issued. -/
def decision (n : ℕ) : Decision := ⟨false, "unknown", [], 1, pin n, 6⟩

def payload : PyValue := .ofNamed [
  ("nonce", .str (.ofString "AAAAAAAAAAAAAAAAAAAAAAAAAAAAAAAAAAAAAAAAAAA")), ("now", .int 5)]

def inspect (n : ℕ) : Call :=
  ⟨.str (.ofString "nonce-inspect"), .str (.ofString "attestation.nonces"), payload, 5, [n]⟩

/-- A write in which nothing fails, and one that ends before the file is replaced. -/
def smooth : Troubles := ⟨fun _ ↦ none, ".replay-aaaaaaaa", []⟩

def crashAtReplace : WriteStep → Option Interruption
  | .replace => some .crashed
  | _ => none

def crash : Troubles := ⟨crashAtReplace, ".replay-bbbbbbbb", []⟩

theorem atomicCheckpoint_smooth {data : PyValue} {bytes : List ℕ}
    (h : data.canonicalBytes = .ok bytes) :
    atomicCheckpoint smooth config.windows config.checkpointPath data [] =
      (.ok (), [(config.checkpointPath, bytes ++ [10])]) := by
  have hwrite : ∀ disk : Disk, writeTemporary smooth data disk =
      (.ok (bytes ++ [10]), disk.put smooth.temporary (bytes ++ [10])) := by
    intro disk
    simp only [writeTemporary, attempt, h]
    rfl
  simp only [atomicCheckpoint, hwrite]
  rfl

theorem atomicCheckpoint_crash {data : PyValue} {bytes line : List ℕ}
    (h : data.canonicalBytes = .ok bytes) :
    atomicCheckpoint crash config.windows config.checkpointPath data
        [(config.checkpointPath, line)] =
      (.error .crashed, [(config.checkpointPath, line), (crash.temporary, bytes ++ [10])]) := by
  have hwrite : ∀ disk : Disk, writeTemporary crash data disk =
      (.ok (bytes ++ [10]), disk.put crash.temporary (bytes ++ [10])) := by
    intro disk
    simp only [writeTemporary, attempt, h]
    rfl
  simp only [atomicCheckpoint, hwrite]
  rfl

theorem exists_genesis : ∃ x, genesisCheckpointDigest config.serviceId config.epoch = .ok x ∧
    isDigest x = true := by
  have hscope : requireScope config.serviceId "service ID" = .ok "replay" := rfl
  have hepoch : requireInteger config.epoch "epoch" 1 = .ok ⟨1, le_rfl⟩ :=
    requireInteger_eq_ok.mpr rfl
  have hbytes : (PyValue.ofNamed [
      ("schema", .str (.ofString "event-horizon.replay-genesis.v1")),
      ("service_id", .str (.ofString "replay")),
      ("epoch", .int 1)]).canonicalBytes.isOk = true := by decide +kernel
  obtain ⟨bytes, h⟩ := isOk_iff.mp hbytes
  refine ⟨_, bind_eq_ok.mpr ⟨_, hscope, bind_eq_ok.mpr ⟨_, hepoch, ?_⟩⟩,
    Platform.isDigest_sha256 bytes⟩
  exact map_eq_ok.mpr ⟨bytes, h, rfl⟩

theorem remoteClient_eq {disk : Disk} {restored : PyValue × PyValue} {p : Pin}
    (hread : readWitness config disk = .ok restored)
    (hpin : normalizeCheckpointState config.serviceId config.epoch restored.1 restored.2 "client" =
      .ok p) :
    remoteClient config disk (.ok (id [2])) (.ok ()) = .ok (client p) := by
  have hscope : requireScope config.serviceId "service ID" = .ok "replay" := rfl
  have hkey : loadPublicKey config.serverPublicKeyPem = .ok (id [1]) := rfl
  have hepoch : requireInteger config.epoch "client epoch" 1 = .ok ⟨1, le_rfl⟩ :=
    requireInteger_eq_ok.mpr rfl
  refine bind_eq_ok.mpr ⟨_, rfl, bind_eq_ok.mpr ⟨_, hscope, bind_eq_ok.mpr ⟨_, hread, ?_⟩⟩⟩
  refine bind_eq_ok.mpr ⟨_, rfl, bind_eq_ok.mpr ⟨_, hkey, bind_eq_ok.mpr ⟨_, hepoch, ?_⟩⟩⟩
  exact bind_eq_ok.mpr ⟨_, hpin, rfl⟩

theorem ofConfig_client (p : Pin) : OfConfig config (client p) := ⟨rfl, rfl, rfl⟩

theorem isCanonicalString_word :
    ∀ t ∈ ["nonce", "AAAAAAAAAAAAAAAAAAAAAAAAAAAAAAAAAAAAAAAAAAA", "now",
    "unknown", spellSignature [0], spellSignature [1]], IsCanonicalString t := by
  have hword : ∀ t ∈ ["nonce", "AAAAAAAAAAAAAAAAAAAAAAAAAAAAAAAAAAAAAAAAAAA", "now", "unknown",
      spellSignature [0], spellSignature [1]],
      isAscii t = true ∧ t.toList.length ≤ maxCanonicalStringBytes := by decide +kernel
  exact fun t ht ↦ isCanonicalString_of_isAscii (hword t ht).1 (hword t ht).2

theorem signable_inspect {p : Pin} (hp : p.checkpoint ≤ 2) {n : ℕ} (hn : n ≤ 1) :
    (client p).Signable (inspect n) where
  operation := ⟨"nonce-inspect", by decide, rfl⟩
  partition := ⟨"attestation.nonces", by decide, rfl⟩
  payload := by
    refine ⟨_, rfl, (PyValue.canonicalizes_ofNamed ?_).mpr ⟨by decide, by decide, ?_⟩⟩
    · simp [isCanonicalString_word]
    · simp [isCanonicalString_word]
      decide
  service := (by decide : isScope "replay" = true)
  identifier := by
    obtain rfl | rfl : n = 0 ∨ n = 1 := by omega
    · exact isCanonicalString_word _ (by simp [inspect])
    · exact isCanonicalString_word _ (by simp [inspect])
  epoch := le_rfl
  numbers := by
    have hnonneg := p.nonneg
    simp [client, inspect, maxSafeInteger]
    omega

theorem encodes_decision {n : ℕ} (hn : n ≤ 1) : (decision n).Encodes where
  status := isCanonicalString_word _ (by simp [decision])
  result := (PyValue.canonicalizes_ofNamed (by simp [decision])).mpr (by simp [decision]; decide)
  numbers := by
    simp [decision, pin, maxSafeInteger]
    omega

theorem exists_state {p : Pin} (hp : p.checkpoint ≤ 2) :
    ∃ bytes, (client p).state.canonicalBytes = .ok bytes := by
  have hnonneg := p.nonneg
  have hdigest := isCanonicalString_of_isDigest p.isDigest_digest
  have hkey := isCanonicalString_replayKeyId (id [1] : List ℕ)
  have hservice : IsCanonicalString "replay" :=
    isCanonicalString_of_isScope (by decide : isScope "replay" = true)
  have hdepth : 1 ≤ maxCanonicalDepth := by decide
  have hnumbers : p.checkpoint.natAbs ≤ maxSafeInteger ∧ 1 ≤ maxSafeInteger := by
    rw [maxSafeInteger]
    omega
  have hnames : ∀ k ∈ ["service_id", "epoch", "server_key_id", "checkpoint", "checkpoint_digest"],
      IsCanonicalString k := fun k hk ↦ isCanonicalString_name k (by revert k; decide)
  simp only [List.forall_mem_cons] at hnames
  rw [AuthenticatedReplayClient.state]
  refine PyValue.canonicalBytes_eq_ok.mpr (canonicalizes_of_encodes ?_ ?_)
  · exact (by decide : 5 ≤ maxCanonicalItems)
  · rw [id] at hkey
    simp [client, hnames, hkey, hservice, hdigest, hnumbers, hdepth]

theorem exists_exchange {p : Pin} {n : ℕ} (hle : p.le (pin n)) (hp : p.checkpoint ≤ 2)
    (hn : n ≤ 1) : ∃ v, (client p).exchange (inspect n) (service.answering (decision n)) = .ok v ∧
      v.pin = pin n ∧ PyValue.item v.items "status" = .str (.ofString "unknown") :=
  ReferenceReplayService.exchange_answering ⟨rfl, rfl, rfl, hle, (by decide : (0 : ℤ) ≤ 6)⟩
    (encodes_decision hn) (signable_inspect hp hn)

section Steps

variable {p : Pin} {n : ℕ} {returned : List Pin} {verified : List Verified} {line : List ℕ}

/-- The response to a call is verified, and what the call comes to is up to its write. -/
theorem exists_called (hle : p.le (pin n)) (hp : p.checkpoint ≤ 2) (hn : n ≤ 1) :
    ∃ v bytes, v.pin = pin n ∧ (client (pin n)).state.canonicalBytes = .ok bytes ∧
      ∀ {t : Troubles} {disk : Disk} {r : Except Interruption Unit × Disk},
        atomicCheckpoint t config.windows config.checkpointPath (client (pin n)).state disk = r →
        Deployment.called ⟨disk, some (client p), returned, verified⟩ config (client p) (inspect n)
            (service.answering (decision n)) t =
          { disk := r.2
            client := match r.1 with
              | .error .crashed => none
              | _ => some (client (pin n))
            returned := match r.1 with
              | .ok _ => pin n :: returned
              | .error _ => returned
            verified := v :: verified } := by
  obtain ⟨v, hv, hpin, hstatus⟩ := exists_exchange hle hp hn
  have hle' : (pin n).checkpoint ≤ 2 := by
    rw [pin]
    dsimp only
    omega
  obtain ⟨bytes, hbytes⟩ := exists_state hle'
  have hclient : ({ client p with pin := v.pin } : AuthenticatedReplayClient) = client (pin n) := by
    rw [hpin]
    rfl
  refine ⟨v, bytes, hpin, hbytes, fun {t disk r} hwrite ↦ ?_⟩
  rw [← hclient] at hwrite
  rw [called_of_exchange hv hstatus (by decide) (hpin ▸ hle) hwrite, hclient, hpin]

theorem step_smooth (hle : p.le (pin n)) (hp : p.checkpoint ≤ 2) (hn : n ≤ 1) :
    ∃ v bytes, v.pin = pin n ∧ (client (pin n)).state.canonicalBytes = .ok bytes ∧
      (machine config).step ⟨[], some (client p), returned, verified⟩
          (.call (inspect n) (service.answering (decision n)) smooth) =
        some ⟨[(config.checkpointPath, bytes ++ [10])], some (client (pin n)), pin n :: returned,
          v :: verified⟩ := by
  obtain ⟨v, bytes, hpin, hbytes, hcalled⟩ := exists_called hle hp hn
  refine ⟨v, bytes, hpin, hbytes, ?_⟩
  rw [step_call rfl rfl (by decide), hcalled (atomicCheckpoint_smooth hbytes)]

/-- A call in which the client crashes before its pin is in the file. -/
theorem step_crash (hle : p.le (pin n)) (hp : p.checkpoint ≤ 2) (hn : n ≤ 1) :
    ∃ v bytes, v.pin = pin n ∧
      (machine config).step
          ⟨[(config.checkpointPath, line)], some (client p), returned, verified⟩
          (.call (inspect n) (service.answering (decision n)) crash) =
        some ⟨[(config.checkpointPath, line), (crash.temporary, bytes)], none, returned,
          v :: verified⟩ := by
  obtain ⟨v, bytes, hpin, hbytes, hcalled⟩ := exists_called hle hp hn
  refine ⟨v, bytes ++ [10], hpin, ?_⟩
  rw [step_call rfl rfl (by decide), hcalled (atomicCheckpoint_crash hbytes)]

end Steps

/-- A client is started and called, and it crashes before the pin of a second call is in the file. A
client is started again, with the pin of the first call. -/
theorem exists_reach : ∃ v v' disk, v.pin = pin 0 ∧ v'.pin = pin 1 ∧
    (machine config).Reach (fun _ _ ↦ True) ⟨disk, some (client (pin 0)), [pin 0], [v', v]⟩ ∧
    remoteClient config disk (.ok (id [2])) (.ok ()) = .ok (client (pin 0)) := by
  obtain ⟨x, hgenesis, hx⟩ := exists_genesis
  obtain ⟨p, hzero, hp⟩ := exists_normalizeCheckpointState "client" hgenesis hx
  have hfirst : remoteClient config [] (.ok (id [2])) (.ok ()) = .ok (client p) :=
    remoteClient_eq rfl hp
  have hle : p.le (pin 0) := .inl (by rw [hzero]; decide)
  have hle' : (pin 0).le (pin 1) := .inl (by decide)
  obtain ⟨v, bytes, hv, hbytes, hreturned⟩ := step_smooth hle (by omega) (by decide)
  obtain ⟨v', torn, hv', hcrashed⟩ := step_crash hle' (by decide) le_rfl
  -- the file is the one of the first call
  have hstored : Stored config [(config.checkpointPath, bytes ++ [10]), (crash.temporary, torn)]
      (pin 0) := ⟨client (pin 0), ofConfig_client _, rfl, bytes, hbytes, rfl⟩
  have hagain := remoteClient_eq hstored.readWitness_eq
    (normalizeCheckpointState_of_ne "client" hgenesis (by decide))
  have hstarted : (machine config).Reach (fun _ _ ↦ True) ⟨[], some (client p), [], []⟩ :=
    Machine.Path.refl.tail trivial (step_start rfl hfirst)
  have hrestarted := ((hstarted.tail trivial hreturned).tail trivial hcrashed).tail trivial
    (step_start rfl hagain)
  exact ⟨v, v', _, hv, hv', hrestarted, hagain⟩

end Sample

/-- A client that is started again after a crash: its pin is the one of the call that returned, and
not the later one that was verified. -/
theorem remoteClient_pin_sample :
    let _ := pythonPlatform
    let _ := Broker.Sample.keyedHash
    let _ := Sample.pemKeys
    ∃ s c, (machine Sample.config).Reach (fun _ _ ↦ True) s ∧
      remoteClient Sample.config s.disk (.ok (id [2])) (.ok ()) = .ok c ∧
      s.returned = [Sample.pin 0] ∧ s.verified.map Verified.pin = [Sample.pin 1, Sample.pin 0] ∧
      (∀ p ∈ s.returned, p.le c.pin) ∧ Known Sample.config s.verified c.pin := by
  intro _ _ _
  obtain ⟨v, v', disk, hv, hv', hreach, hc⟩ := Sample.exists_reach
  refine ⟨_, _, hreach, hc, rfl, ?_, remoteClient_pin hreach hc⟩
  rw [List.map_cons, List.map_singleton, hv, hv']

end EventHorizon.Replay
