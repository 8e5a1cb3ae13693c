import EventHorizon.Writes.Adapter

/-!
# When a write can be prepared

`prepare` writes its temporary file before it inserts the record of the write, and it inserts, where
a record of an aborted or interrupted write may be in the way. So a payload that cannot be encoded
leaves a file without a record, and a write that is prepared again leaves its file and raises.
`reliable_iff` says exactly when `prepare` is atomic and can be repeated. Paths are followed as they
are: a name with slashes and dots may lead out of the base directory, or to the log itself.
-/

namespace EventHorizon.Writes

open Keys (bindText bindText_eq_ok)

namespace FilesystemWriteAdapter

variable (w : FilesystemWriteAdapter) (s : Files) (operationId : PyStr) (payload : Payload)
  (createdAt preparedAt : String)

/-- The files without the record of an operation in the log. -/
def forget (log : TransactionLog) (operationId : String) : Files :=
  w.withLog s (log.filter fun r ↦ r.1 ≠ operationId)

/-- What is meant to hold of `prepare`: when it raises, everything under the base directory is as
before; and when a record of an aborted or interrupted write is there, it does what it would do
without it. -/
structure Reliable : Prop where
  atomic : ∀ e, (w.prepare s operationId payload createdAt preparedAt).1 = .error e →
    ∀ path, w.basePath <+: path →
      (w.prepare s operationId payload createdAt preparedAt).2.get? path = s.get? path
  repeatable : ∀ id log record, operationId = .ofString id → w.log s = .ok log →
    log.get? id = some record → record.state = .aborted ∨ record.state = .pending →
    let again := w.prepare s operationId payload createdAt preparedAt
    let first := w.prepare (w.forget s log id) operationId payload createdAt preparedAt
    again.1 = first.1 ∧ ∀ answer, again.1 = .ok answer →
      (w.log again.2).map (fun log ↦ log.get? id) = (w.log first.2).map (fun log ↦ log.get? id) ∧
      ∀ path, w.openTemp s id = .ok path → again.2.get? path = first.2.get? path

/-- The payload can be encoded, and the log has no record of the operation. -/
def Records (s : Files) (id : String) (payload : Payload) : Prop :=
  (∃ json, w.dumps (.dict payload.items) = .ok json) ∧
    ∃ log, w.log s = .ok log ∧ log.get? id = none

/-- The log is there. If a temporary file is to be written, then the record can be inserted after
it; or else the file changes nothing under the base directory, and it is the log that it replaces
unless the payload cannot be encoded. -/
structure Dependable : Prop where
  exists_log : s.get? w.logPath = none → s.isDir w.basePath = false
  written : ∀ id path octets, (w.plan s operationId payload).1 = .ok (.write id path octets) →
    w.Records (s.put path (.file (.octets octets))) id payload ∨
    (w.basePath <+: path → s.get? path = some (.file (.octets octets))) ∧
      ((∀ json, w.dumps (.dict payload.items) ≠ .ok json) ∨ path = w.logPath)

variable {w s operationId payload createdAt preparedAt}

/-! ## The log -/

theorem connect_of_exists (h : s.get? w.logPath = none → s.isDir w.basePath = false) :
    (w.connect s).2 = s := by
  rw [connect]
  split
  · rfl
  · rfl
  case h_3 hnone => rw [h hnone]; rfl

theorem connect_of_log {log : TransactionLog} (h : w.log s = .ok log) :
    w.connect s = (.ok (), s) := by
  rw [connect]
  rw [FilesystemWriteAdapter.log] at h
  split at h
  case h_1 log' hlog => rw [hlog]
  case h_2 data hdata => rw [hdata]
  case h_3 => cases h

theorem log_withLog {log : TransactionLog} : w.log (w.withLog s log) = .ok log := by
  rw [FilesystemWriteAdapter.log, withLog, Table.get?_put_self]

theorem plan_of_missing (operationId : PyStr) (payload : Payload) (hnone : s.get? w.logPath = none)
    (hdir : s.isDir w.basePath = true) :
    ∃ e, w.plan s operationId payload = (.error e, s.put w.logPath (.file (.octets []))) := by
  have hconnect : w.connect s = (.ok (), s.put w.logPath (.file (.octets []))) := by
    rw [connect, hnone]
    exact if_pos hdir
  have hlog : w.log (s.put w.logPath (.file (.octets []))) =
      .error ⟨.databaseError, "no such table: transactions"⟩ := by
    rw [FilesystemWriteAdapter.log, Table.get?_put_self]
    dsimp only
    rw [w.image_nil]
  refine ⟨⟨.databaseError, "no such table: transactions"⟩, ?_⟩
  rw [plan, getStatus, hconnect, andThen_ok, hlog]
  rfl

/-! ## Before the temporary file -/

theorem plan_of_log {id : String} {log : TransactionLog} (h : w.log s = .ok log) :
    w.plan s (.ofString id) payload =
      let write := do
        let octets ← w.contentBytes payload
        let path ← w.openTemp s id
        return Plan.write id path octets
      match log.get? id with
      | some existing =>
        match existing.state with
        | .committed => (.ok (.done (.alreadyCommitted existing.result)), s)
        | .prepared => (.ok (.done (.alreadyPrepared existing.result)), s)
        | .aborted | .pending => (write, s)
      | none => (write, s) := by
  have hbind : bindText (.ofString id) = .ok id := bindText_eq_ok.mpr rfl
  rw [plan, getStatus, connect_of_log h, andThen_ok, h, andThen_ok, hbind]
  rfl

theorem plan_snd (h : s.get? w.logPath = none → s.isDir w.basePath = false) :
    (w.plan s operationId payload).2 = s := by
  rw [plan]
  have hstatus : (w.getStatus s operationId).2 = s := by
    rw [getStatus]
    refine andThen_snd (P := fun s' ↦ s' = s) (fun _ _ ↦ connect_of_exists h) fun _ _ ↦ ?_
    refine andThen_snd (P := fun s' ↦ s' = s) (fun _ _ ↦ connect_of_exists h) fun _ _ ↦ ?_
    exact andThen_snd (P := fun s' ↦ s' = s) (fun _ _ ↦ connect_of_exists h)
      fun _ _ ↦ connect_of_exists h
  refine andThen_snd (P := fun s' ↦ s' = s) (fun _ _ ↦ hstatus) fun found _ ↦ ?_
  dsimp only
  split
  · split
    all_goals exact hstatus
  · exact hstatus

theorem exists_log_of_plan {p : Plan} (h : (w.plan s operationId payload).1 = .ok p) :
    ∃ id log, operationId = .ofString id ∧ w.log s = .ok log := by
  have hexists : s.get? w.logPath = none → s.isDir w.basePath = false := by
    intro hnone
    by_contra hdir
    obtain ⟨e, he⟩ := plan_of_missing operationId payload hnone
      (Bool.of_not_eq_false hdir)
    rw [he] at h
    cases h
  rw [plan] at h
  obtain ⟨found, hfound, -⟩ := andThen_fst_eq_ok.mp h
  rw [getStatus] at hfound
  obtain ⟨_, -, hfound⟩ := andThen_fst_eq_ok.mp hfound
  obtain ⟨log, hlog, hfound⟩ := andThen_fst_eq_ok.mp hfound
  obtain ⟨id, hid, -⟩ := andThen_fst_eq_ok.mp hfound
  rw [connect_of_exists hexists] at hlog
  exact ⟨id, log, bindText_eq_ok.mp hid, hlog⟩

/-- A write is planned for an operation that has no record, or one that was aborted or interrupted.
-/
theorem plan_eq_write {id : String} {path : List String} {octets : List ℕ}
    (h : (w.plan s operationId payload).1 = .ok (.write id path octets)) :
    operationId = .ofString id ∧ w.openTemp s id = .ok path ∧ ∃ log, w.log s = .ok log ∧
      ∀ record, log.get? id = some record → record.state = .aborted ∨ record.state = .pending := by
  obtain ⟨id', log, rfl, hlog⟩ := exists_log_of_plan h
  rw [plan_of_log hlog] at h
  have hwrite : ∀ {r : Except Exn Plan}, r = (do
      let octets ← w.contentBytes payload
      let path ← w.openTemp s id'
      return Plan.write id' path octets) → r = .ok (.write id path octets) →
      id' = id ∧ w.openTemp s id' = .ok path := by
    rintro r rfl hr
    obtain ⟨octets', -, hr⟩ := bind_eq_ok.mp hr
    obtain ⟨path', hpath, hr⟩ := bind_eq_ok.mp hr
    cases hr
    exact ⟨rfl, hpath⟩
  cases hrecord : log.get? id' with
  | none =>
    rw [hrecord] at h
    obtain ⟨rfl, hpath⟩ := hwrite rfl h
    exact ⟨rfl, hpath, log, hlog, fun record hr ↦ by rw [hrecord] at hr; cases hr⟩
  | some record =>
    rw [hrecord] at h
    cases hstate : record.state with
    | committed =>
      simp only [hstate] at h
      cases h
    | prepared =>
      simp only [hstate] at h
      cases h
    | aborted =>
      simp only [hstate] at h
      obtain ⟨rfl, hpath⟩ := hwrite rfl h
      refine ⟨rfl, hpath, log, hlog, fun record' hr ↦ .inl ?_⟩
      rw [hrecord, Option.some.injEq] at hr
      exact hr ▸ hstate
    | pending =>
      simp only [hstate] at h
      obtain ⟨rfl, hpath⟩ := hwrite rfl h
      refine ⟨rfl, hpath, log, hlog, fun record' hr ↦ .inr ?_⟩
      rw [hrecord, Option.some.injEq] at hr
      exact hr ▸ hstate

/-! ## From the temporary file on -/

variable {id : String} {path : List String} {octets : List ℕ}

theorem log_put (h : path ≠ w.logPath) :
    w.log (s.put path (.file (.octets octets))) = w.log s := by
  rw [FilesystemWriteAdapter.log, FilesystemWriteAdapter.log, Table.get?_put_ne h.symm]

theorem connect_put {log : TransactionLog} (h : w.log s = .ok log) :
    w.connect (s.put path (.file (.octets octets))) =
      (.ok (), s.put path (.file (.octets octets))) := by
  by_cases hpath : path = w.logPath
  · rw [connect, hpath, Table.get?_put_self]
  · exact connect_of_log ((log_put hpath).trans h)

theorem carryOut_of_not_records (createdAt preparedAt : String) {log : TransactionLog}
    (h : w.log s = .ok log)
    (hrecords : ¬w.Records (s.put path (.file (.octets octets))) id payload) :
    ∃ e, w.carryOut s id path octets payload createdAt preparedAt =
      (.error e, s.put path (.file (.octets octets))) := by
  rw [carryOut, createPending]
  rw [connect_put h, andThen_ok]
  cases hdumps : w.dumps (.dict payload.items) with
  | error e => exact ⟨e, rfl⟩
  | ok json =>
    rw [andThen_ok]
    cases hlog : w.log (s.put path (.file (.octets octets))) with
    | error e => exact ⟨e, rfl⟩
    | ok log' =>
      rw [andThen_ok]
      cases hrecord : log'.get? id with
      | none => exact absurd ⟨⟨json, hdumps⟩, log', hlog, hrecord⟩ hrecords
      | some record => exact ⟨_, rfl⟩

/-- A payload that cannot be encoded is refused with the same exception, whatever the log has. -/
theorem carryOut_of_dumps {log : TransactionLog} {e : Exn} (h : w.log s = .ok log)
    (hdumps : w.dumps (.dict payload.items) = .error e) :
    w.carryOut s id path octets payload createdAt preparedAt =
      (.error e, s.put path (.file (.octets octets))) := by
  rw [carryOut, createPending]
  rw [connect_put h, andThen_ok, hdumps]
  rfl

theorem carryOut_of_records {log : TransactionLog} (h : w.log s = .ok log)
    (hrecords : w.Records (s.put path (.file (.octets octets))) id payload) :
    (w.carryOut s id path octets payload createdAt preparedAt).1 = .ok (.prepared id) := by
  obtain ⟨⟨json, hdumps⟩, log', hlog, hrecord⟩ := hrecords
  rw [carryOut, createPending]
  rw [connect_put h, andThen_ok, hdumps, andThen_ok, hlog, andThen_ok, hrecord]
  dsimp only [Option.isSome_none]
  rw [if_neg Bool.false_ne_true, andThen_ok, markPrepared, connect_of_log log_withLog, andThen_ok,
    log_withLog, andThen_ok, Table.get?_put_self]
  rfl

/-! ## Without the record -/

theorem isDir_logPath {log : TransactionLog} (h : w.log s = .ok log) :
    s.isDir w.logPath = false := by
  rw [FilesystemWriteAdapter.log] at h
  rw [FileTree.isDir]
  split at h
  case h_1 log' hlog => rw [hlog]
  case h_2 data hdata => rw [hdata]
  case h_3 => cases h

theorem log_forget {log : TransactionLog} :
    w.log (w.forget s log id) = .ok (log.filter fun r ↦ r.1 ≠ id) := log_withLog

theorem openTemp_forget {log : TransactionLog} (h : w.log s = .ok log) :
    w.openTemp (w.forget s log id) id = w.openTemp s id := by
  have hfileAt : (w.forget s log id).fileAt w.basePath (tempNames id) =
      s.fileAt w.basePath (tempNames id) :=
    FileTree.fileAt_congr fun _ ↦ FileTree.isDir_put_file (isDir_logPath h)
  rw [openTemp, openTemp, hfileAt]

/-- The same is planned without the record of an aborted or interrupted write. -/
theorem plan_forget (payload : Payload) {log : TransactionLog} {record : TransactionRecord}
    (h : w.log s = .ok log) (hrecord : log.get? id = some record)
    (hstate : record.state = .aborted ∨ record.state = .pending) :
    (w.plan (w.forget s log id) (.ofString id) payload).1 =
      (w.plan s (.ofString id) payload).1 := by
  have hnone : Table.get? (log.filter fun r ↦ r.1 ≠ id) id = none := by
    rw [Table.get?_filter_ne, if_pos rfl]
  rw [plan_of_log h, plan_of_log log_forget, hnone, hrecord, openTemp_forget h]
  rcases hstate with hstate | hstate <;> simp only [hstate]

theorem exists_forget {log : TransactionLog} :
    (w.forget s log id).get? w.logPath = none → (w.forget s log id).isDir w.basePath = false := by
  intro hnone
  rw [forget, withLog, Table.get?_put_self] at hnone
  cases hnone

theorem prepare_of_error (createdAt preparedAt : String) {e : Exn}
    (h : (w.plan s operationId payload).1 = .error e) :
    w.prepare s operationId payload createdAt preparedAt =
      (.error e, (w.plan s operationId payload).2) := by
  rw [prepare, andThen, h]

theorem prepare_of_write (hexists : s.get? w.logPath = none → s.isDir w.basePath = false)
    (h : (w.plan s operationId payload).1 = .ok (.write id path octets)) :
    w.prepare s operationId payload createdAt preparedAt =
      w.carryOut s id path octets payload createdAt preparedAt := by
  rw [prepare, andThen, h]
  dsimp only
  rw [plan_snd hexists]

/-! ## When a write can be prepared -/

theorem put_same {node : FileNode Content} :
    (∀ path', w.basePath <+: path' → (s.put path node).get? path' = s.get? path') ↔
      (w.basePath <+: path → s.get? path = some node) := by
  constructor
  · intro h hbase
    rw [← h path hbase, Table.get?_put_self]
  · intro h path' hbase
    by_cases hpath : path' = path
    · rw [hpath, Table.get?_put_self, h (hpath ▸ hbase)]
    · rw [Table.get?_put_ne hpath]

/-- A write that is prepared again raises, where a first one would not. -/
theorem Reliable.dumps_or {log : TransactionLog} (h : w.Reliable s operationId payload createdAt
    preparedAt)
    (hlog : w.log s = .ok log)
    (hplan : (w.plan s operationId payload).1 = .ok (.write id path octets))
    (hrecords : ¬w.Records (s.put path (.file (.octets octets))) id payload) :
    (∀ json, w.dumps (.dict payload.items) ≠ .ok json) ∨ path = w.logPath := by
  by_contra hcon
  rw [not_or, not_forall] at hcon
  obtain ⟨⟨json, hdumps⟩, hpath⟩ := hcon
  rw [not_not] at hdumps
  obtain ⟨rfl, -, log', hlog', hstate⟩ := plan_eq_write hplan
  obtain rfl := Except.ok.inj (hlog.symm.trans hlog')
  have hexists : s.get? w.logPath = none → s.isDir w.basePath = false := fun hnone ↦ by
    rw [FilesystemWriteAdapter.log, hnone] at hlog
    cases hlog
  cases hrecord : log.get? id with
  | none => exact hrecords ⟨⟨json, hdumps⟩, log, (log_put hpath).trans hlog, hrecord⟩
  | some record =>
    have hplan₀ := (plan_forget payload hlog hrecord (hstate record hrecord)).trans
      hplan
    have hfirst : w.Records ((w.forget s log id).put path (.file (.octets octets))) id payload := by
      refine ⟨⟨json, hdumps⟩, _, (log_put hpath).trans log_forget, ?_⟩
      rw [Table.get?_filter_ne, if_pos rfl]
    obtain ⟨hsame, -⟩ := h.repeatable id log record rfl hlog hrecord (hstate record hrecord)
    obtain ⟨e, he⟩ := carryOut_of_not_records createdAt preparedAt
      hlog
      hrecords
    rw [prepare_of_write hexists hplan, prepare_of_write exists_forget hplan₀, he,
      carryOut_of_records log_forget hfirst] at hsame
    cases hsame

theorem Dependable.atomic (h : w.Dependable s operationId payload) {e : Exn}
    (he : (w.prepare s operationId payload createdAt preparedAt).1 = .error e) {path' : List String}
    (hbase : w.basePath <+: path') :
    (w.prepare s operationId payload createdAt preparedAt).2.get? path' = s.get? path' := by
  cases hplan : (w.plan s operationId payload).1 with
  | error e' => rw [prepare_of_error _ _ hplan, plan_snd h.exists_log]
  | ok p =>
    cases p with
    | done answer =>
      rw [prepare, andThen, hplan] at he
      cases he
    | write id path octets =>
      obtain ⟨-, -, log, hlog, -⟩ := plan_eq_write hplan
      rw [prepare_of_write h.exists_log hplan] at he ⊢
      by_cases hrecords : w.Records (s.put path (.file (.octets octets))) id payload
      · rw [carryOut_of_records hlog hrecords] at he
        cases he
      · obtain hleft | ⟨hsame, -⟩ := h.written id path octets hplan
        · exact absurd hleft hrecords
        · obtain ⟨e', he'⟩ := carryOut_of_not_records createdAt preparedAt hlog hrecords
          rw [he']
          exact put_same.mpr hsame path' hbase

/-- With a record in the way, what is carried out is the same when the file replaces the log, and
when the payload cannot be encoded. -/
theorem carryOut_forget {log : TransactionLog} (hlog : w.log s = .ok log)
    (h : (∀ json, w.dumps (.dict payload.items) ≠ .ok json) ∨ path = w.logPath) :
    let again := w.carryOut s id path octets payload createdAt preparedAt
    let first := w.carryOut (w.forget s log id) id path octets payload createdAt preparedAt
    again.1 = first.1 ∧ (∀ answer, again.1 = .ok answer → again = first) := by
  obtain hdumps | hpath := h
  · cases he : w.dumps (.dict payload.items) with
    | ok json => exact absurd he (hdumps json)
    | error e =>
      intro again first
      have hagain : again = (.error e, s.put path (.file (.octets octets))) :=
        carryOut_of_dumps hlog he
      have hfirst : first = (.error e, (w.forget s log id).put path (.file (.octets octets))) :=
        carryOut_of_dumps log_forget he
      rw [hagain, hfirst]
      exact ⟨rfl, fun answer hok ↦ (nomatch hok)⟩
  · have hput : (w.forget s log id).put path (.file (.octets octets)) =
        s.put path (.file (.octets octets)) := by
      rw [forget, withLog, hpath, Table.put_put]
    intro again first
    have hsame : again = first := by
      dsimp only [again, first]
      rw [carryOut, carryOut, hput]
    exact ⟨congrArg Prod.fst hsame, fun _ _ ↦ hsame⟩

theorem Dependable.repeatable (createdAt preparedAt : String)
    (h : w.Dependable s (.ofString id) payload) {log : TransactionLog}
    {record : TransactionRecord} (hlog : w.log s = .ok log) (hrecord : log.get? id = some record)
    (hstate : record.state = .aborted ∨ record.state = .pending) :
    let again := w.prepare s (.ofString id) payload createdAt preparedAt
    let first := w.prepare (w.forget s log id) (.ofString id) payload createdAt preparedAt
    again.1 = first.1 ∧ (∀ answer, again.1 = .ok answer → again = first) := by
  have hforget := plan_forget payload hlog hrecord hstate
  cases hplan : (w.plan s (.ofString id) payload).1 with
  | error e =>
    rw [prepare_of_error _ _ hplan, prepare_of_error _ _ (hforget.trans hplan)]
    exact ⟨rfl, fun answer hok ↦ (nomatch hok)⟩
  | ok p =>
    cases p with
    | done answer =>
      rw [plan_of_log hlog, hrecord] at hplan
      rcases hstate with hstate | hstate
      all_goals
        simp only [hstate] at hplan
        obtain ⟨octets', -, hplan⟩ := bind_eq_ok.mp hplan
        obtain ⟨path', -, hplan⟩ := bind_eq_ok.mp hplan
        cases hplan
    | write id' path octets =>
      obtain ⟨hid, -⟩ := plan_eq_write hplan
      obtain rfl : id = id' := PyStr.ofString_injective hid
      rw [prepare_of_write h.exists_log hplan, prepare_of_write exists_forget (hforget.trans hplan)]
      refine carryOut_forget hlog ?_
      obtain ⟨hdumps, log', hlog', hnone⟩ | ⟨-, hout⟩ := h.written id path octets hplan
      · -- the record is in the way, so it must have been the log that the file replaced
        by_cases hpath : path = w.logPath
        · exact .inr hpath
        · rw [log_put hpath, hlog, Except.ok.injEq] at hlog'
          rw [← hlog', hrecord] at hnone
          cases hnone
      · exact hout

/-- **When a write can be prepared.** -/
theorem reliable_iff (w : FilesystemWriteAdapter) (s : Files) (operationId : PyStr)
    (payload : Payload) (createdAt preparedAt : String) :
    w.Reliable s operationId payload createdAt preparedAt ↔ w.Dependable s operationId payload := by
  constructor
  · intro h
    have hexists : s.get? w.logPath = none → s.isDir w.basePath = false := by
      intro hnone
      by_contra hdir
      obtain ⟨e, he⟩ := plan_of_missing operationId payload hnone
        (Bool.of_not_eq_false hdir)
      have hprepare := prepare_of_error createdAt preparedAt
        (congrArg Prod.fst he)
      have hatomic := h.atomic e (congrArg Prod.fst hprepare) w.logPath (List.prefix_append _ _)
      rw [hprepare, he, Table.get?_put_self, hnone] at hatomic
      cases hatomic
    refine ⟨hexists, fun id path octets hplan ↦ ?_⟩
    obtain ⟨-, -, log, hlog, -⟩ := plan_eq_write hplan
    by_cases hrecords : w.Records (s.put path (.file (.octets octets))) id payload
    · exact .inl hrecords
    · obtain ⟨e, he⟩ := carryOut_of_not_records createdAt preparedAt
        hlog hrecords
      have hprepare := (prepare_of_write hexists hplan).trans he
      refine .inr ⟨put_same.mp ?_, h.dumps_or hlog hplan hrecords⟩
      have hatomic := h.atomic e (congrArg Prod.fst hprepare)
      rw [hprepare] at hatomic
      exact hatomic
  · intro h
    refine ⟨fun e he path hbase ↦ h.atomic he hbase, ?_⟩
    rintro id log record rfl hlog hrecord hstate
    obtain ⟨hfst, hsame⟩ := h.repeatable createdAt preparedAt hlog
      hrecord hstate
    refine ⟨hfst, fun answer hok ↦ ?_⟩
    rw [hsame answer hok]
    exact ⟨rfl, fun _ _ ↦ rfl⟩

/-! ## A write that was aborted -/

/-- An adapter at `/base`, with a log that has an aborted write. -/
def samples : FilesystemWriteAdapter where
  basePath := ["base"]
  maxFileSize := 1048576
  dumps := fun _ ↦ .ok "\x7b\"content\": \"v\", \"path\": \"p\"\x7d"
  refuses := fun _ ↦ none
  osText := fun _ ↦ ""
  image := fun _ ↦ .error "no such table: transactions"
  image_nil := rfl

def samplePayload : Payload where
  items := [(.str (.ofString "path"), .str (.ofString "p")),
    (.str (.ofString "content"), .str (.ofString "v"))]
  octets := []

def sampleFiles : Files := [
  (["base"], .dir),
  (["base", "transactions.sqlite3"], .file (.database [("w", {
    state := .aborted
    payloadJson := "\x7b\"content\": \"v\", \"path\": \"p\"\x7d"
    preparedAt := some "2026-01-01T00:00:00Z"
    committedAt := none
    abortedAt := some "2026-01-01T00:00:01Z"
    result := none
    createdAt := "2026-01-01T00:00:00Z"
    updatedAt := "2026-01-01T00:00:01Z" })]))]

/-- A write that was aborted is prepared again: the record is still there, so the insertion fails,
and the temporary file stays. -/
theorem not_reliable_aborted : ¬samples.Reliable sampleFiles (.ofString "w") samplePayload
    "2026-01-01T00:00:02Z" "2026-01-01T00:00:02Z" := by
  intro h
  have hraises : (samples.prepare sampleFiles (.ofString "w") samplePayload
      "2026-01-01T00:00:02Z" "2026-01-01T00:00:02Z").1 =
      .error ⟨.sqliteError, "UNIQUE constraint failed: transactions.operation_id"⟩ := rfl
  have hsame := h.atomic _ hraises ["base", ".tmp.w"] ⟨[".tmp.w"], rfl⟩
  have hstays : ((samples.prepare sampleFiles (.ofString "w") samplePayload
      "2026-01-01T00:00:02Z" "2026-01-01T00:00:02Z").2.get?
      ["base", ".tmp.w"]).isSome = true := rfl
  rw [hsame] at hstays
  cases hstays

end FilesystemWriteAdapter

end EventHorizon.Writes
