import ComposeBastion.Jobs.Model
import ComposeBastion.Lib.Serial

namespace ComposeBastion

open Serial

/-!
# Backup and recovery schedules

`services/backupSchedules.ts` and `services/recoveryCenter.ts`: `runDueBackupSchedules` and
`runDueRecoverySchedules` read the due rows without a lock, prepare a record for each, and then
fire the row in a transaction that locks it, checks it again, advances `next_run_at` and enqueues
the job.

* `ScheduleRow`, `ScheduleDb` — a schedule, and the jobs that were enqueued for it;
* `fireBackupSchedule`, `fireRecoverySchedule` — the transactions, statement by statement;
* `SchedulerState`, `Scheduler.step` — schedulers and other clients, interleaved;
* `schedules_fire_once` — an occurrence yields at most one job, and only the transaction that
  moves `next_run_at` past it adds one.
-/

/-! ### Schedules -/

inductive ScheduleKind
  | backup | recovery
  deriving DecidableEq, Repr

/-- A row of `backup_schedules` or `recovery_schedules`, less the columns that say what is
    captured.  `interval_ms` carries the check of its column, and `rowVersion` is `xmin`. -/
structure ScheduleRow where
  id : Id
  enabled : Bool
  intervalMs : { n : ℕ // 300000 ≤ n }
  lastRunAt : Option Time
  nextRunAt : Time
  lastStatus : Option String
  lastError : Option String
  lastDrillStatus : Option String
  createdBy : Option Id
  rowVersion : ℕ
  deriving DecidableEq, Repr

/-- A job that was enqueued for a schedule: `volume.backup` or `hostPath.backup` of a new backup,
    or `recovery.create` of a new recovery point.  `occurrence` is the `next_run_at` it was
    enqueued for. -/
structure ScheduledJob where
  id : Id
  subjectId : Id
  createdBy : Option Id
  occurrence : Time
  deriving DecidableEq, Repr

/-- What a schedule id stands for; `uuid()` does not return an id twice. -/
inductive ScheduleSlot
  | unused
  | present (row : ScheduleRow)
  | deleted
  deriving DecidableEq, Repr

/-- `SELECT … WHERE id = $1`. -/
def ScheduleSlot.row : ScheduleSlot → Option ScheduleRow
  | present row => some row
  | unused | deleted => none

/-- What is stored under one schedule id, with the jobs that were enqueued for it. -/
structure ScheduleDb where
  slot : ScheduleSlot
  jobs : List ScheduledJob
  deriving DecidableEq, Repr

/-- The table and the id of a schedule. -/
abbrev ScheduleKey := ScheduleKind × Id

/-- A `Date` read from a `timestamptz`: whole milliseconds. -/
def jsMillis (t : Time) : ℤ := t / 1000

/-- A `timestamptz` written from a `Date`. -/
def ofJsMillis (t : ℤ) : Time := t * 1000

/-! ### Transactions -/

/-- An `UPDATE` of the row, which stamps it with the transaction. -/
def updateSchedule (txid : ℕ) (f : ScheduleRow → ScheduleRow) (db : ScheduleDb) : ScheduleDb :=
  match db.slot with
  | .present row => { db with slot := .present { f row with rowVersion := txid } }
  | .unused | .deleted => db

/-- A `DELETE` of the row. -/
def deleteSchedule (db : ScheduleDb) : ScheduleDb :=
  match db.slot with
  | .present _ => { db with slot := .deleted }
  | .unused | .deleted => db

/-- An `INSERT` of a row with this id. -/
def insertSchedule (row : ScheduleRow) (id : Id) (db : ScheduleDb) : ScheduleDb :=
  { db with slot := .present { row with id := id } }

/-- An `INSERT` of a job. -/
def insertScheduledJob (job : ScheduledJob) (db : ScheduleDb) : ScheduleDb :=
  { db with jobs := db.jobs ++ [job] }

/-- What a firing transaction is given: the row the scheduler had read, the clock when the row is
    checked and how far it has moved on when `next_run_at` is computed, and either the ids of the
    record and the job that are inserted or the error that ends the admission or the insertion. -/
structure FireInput where
  row : ScheduleRow
  txid : ℕ
  checkedAt : ℤ
  elapsed : ℕ
  startedAt : Time
  enqueue : Except String (Id × Id)

/-- The checks of the locked row: it is enabled and due, and nobody has written it since it was
    read. -/
def canFire (input : FireInput) (current : ScheduleRow) : Bool :=
  current.enabled && !(input.checkedAt < jsMillis current.nextRunAt)
    && current.rowVersion = input.row.rowVersion

/-- `new Date(Date.now() + Number(current.interval_ms))`. -/
def nextRunAfter (input : FireInput) (current : ScheduleRow) : Time :=
  ofJsMillis (input.checkedAt + input.elapsed + current.intervalMs.1)

/-- The job that is inserted for the locked row. -/
def enqueuedJob (ids : Id × Id) (current : ScheduleRow) : ScheduledJob :=
  ⟨ids.1, ids.2, current.createdBy, current.nextRunAt⟩

/-- The transaction that fires a schedule, with the assignments of its `UPDATE`. -/
def fireSchedule (assign : FireInput → ScheduleRow → ScheduleRow) (input : FireInput) :
    Tx ScheduleDb :=
  .read fun db =>
    match db.slot.row with
    | none => .commit
    | some current =>
      if canFire input current then
        .write (updateSchedule input.txid (assign input))
          (match input.enqueue with
          | .error _ => .rollback
          | .ok ids => .write (insertScheduledJob (enqueuedJob ids current)) .commit)
      else .commit

/-- The `UPDATE` of `runDueBackupSchedules`. -/
def advanceBackupSchedule (input : FireInput) (row : ScheduleRow) : ScheduleRow :=
  { row with
    lastRunAt := some input.startedAt
    nextRunAt := nextRunAfter input row
    lastStatus := some "queued"
    lastError := none }

/-- The `UPDATE` of `runDueRecoverySchedules`. -/
def advanceRecoverySchedule (input : FireInput) (row : ScheduleRow) : ScheduleRow :=
  { row with
    lastRunAt := some input.startedAt
    nextRunAt := nextRunAfter input row }

def fireBackupSchedule : FireInput → Tx ScheduleDb := fireSchedule advanceBackupSchedule

def fireRecoverySchedule : FireInput → Tx ScheduleDb := fireSchedule advanceRecoverySchedule

/-- The columns of a schedule that other services assign: the outcome of its last backup or drill,
    and, for whoever edits it, whether and how often it runs. -/
structure ScheduleEdit where
  enabled : Option Bool
  intervalMs : Option { n : ℕ // 300000 ≤ n }
  lastStatus : Option (Option String)
  lastError : Option (Option String)
  lastDrillStatus : Option (Option String)

/-- The assignments of an edit. -/
def ScheduleEdit.assign (edit : ScheduleEdit) (row : ScheduleRow) : ScheduleRow :=
  { row with
    enabled := edit.enabled.getD row.enabled
    intervalMs := edit.intervalMs.getD row.intervalMs
    lastStatus := edit.lastStatus.getD row.lastStatus
    lastError := edit.lastError.getD row.lastError
    lastDrillStatus := edit.lastDrillStatus.getD row.lastDrillStatus }

/-- What clients other than the schedulers do with a schedule: `createBackupSchedule`,
    `createRecoverySchedule`; `deleteBackupSchedule`, `deleteRecoverySchedule` and the cascades
    onto them; and every other `UPDATE`. -/
inductive ScheduleChange
  | create (row : ScheduleRow)
  | delete
  | edit (txid : ℕ) (edit : ScheduleEdit)

/-- The transaction of a change. -/
def ScheduleChange.tx (id : Id) : ScheduleChange → Tx ScheduleDb
  | create row => .read fun db =>
      if db.slot = .unused then .write (insertSchedule row id) .commit else .rollback
  | delete => .write deleteSchedule .commit
  | edit txid assignments => .write (updateSchedule txid assignments.assign) .commit

/-- A transaction on one schedule. -/
inductive ScheduleRequest
  | fire (kind : ScheduleKind) (input : FireInput)
  | change (key : ScheduleKey) (change : ScheduleChange)

/-- The schedule a transaction locks, and what it does. -/
def scheduleTx : ScheduleRequest → ScheduleKey × Tx ScheduleDb
  | .fire .backup input => ((.backup, input.row.id), fireBackupSchedule input)
  | .fire .recovery input => ((.recovery, input.row.id), fireRecoverySchedule input)
  | .change key change => (key, change.tx key.2)

/-! ### Schedulers -/

/-- The database sessions, and the due rows each scheduler still has to fire. -/
structure SchedulerState where
  sessions : State ScheduleKey ScheduleDb
  due : ℕ → List (ScheduleKind × ScheduleRow)

/-- What a scheduler or another client does next. -/
inductive SchedulerOp
  | select (worker : ℕ) (kind : ScheduleKind) (now : Time) (ids : List Id)
  | prepared (worker : ℕ) (txid : ℕ) (checkedAt : ℤ) (elapsed : ℕ) (startedAt : Time)
      (enqueue : Except String (Id × Id))
  | prepareFailed (worker : ℕ)
  | change (session : ℕ) (key : ScheduleKey) (change : ScheduleChange)
  | acquire (session : ℕ)
  | statement (session : ℕ)
  | disconnect (session : ℕ)

/-- `SELECT … WHERE enabled = true AND next_run_at <= now() ORDER BY next_run_at ASC LIMIT 20`,
    over a table whose rows have the given ids. -/
def dueRows (db : ScheduleKey → ScheduleDb) (kind : ScheduleKind) (now : Time) (ids : List Id) :
    List ScheduleRow :=
  (((ids.filterMap fun id => (db (kind, id)).slot.row).filter fun row =>
    row.enabled && row.nextRunAt ≤ now).mergeSort fun a b => a.nextRunAt ≤ b.nextRunAt).take 20

namespace Scheduler

/-- A scheduler takes the next of its rows. -/
def takeDue (s : SchedulerState) (worker : ℕ) (rest : List (ScheduleKind × ScheduleRow)) :
    SchedulerState :=
  { s with due := Function.update s.due worker rest }

/-- A database session moves. -/
def session (s : SchedulerState) (op : Op ScheduleRequest) : SchedulerState :=
  { s with sessions := Serial.step scheduleTx s.sessions op }

/-- One step of the schedulers and the other clients. -/
def step (s : SchedulerState) : SchedulerOp → SchedulerState
  | .select worker kind now ids =>
    takeDue s worker ((dueRows s.sessions.db kind now ids).map fun row => (kind, row))
  | .prepared worker txid checkedAt elapsed startedAt enqueue =>
    match s.due worker with
    | [] => s
    | (kind, row) :: rest =>
      session (takeDue s worker rest) (.start worker
        (.fire kind ⟨row, txid, checkedAt, elapsed, startedAt, enqueue⟩))
  | .prepareFailed worker => takeDue s worker (s.due worker).tail
  | .change i key change => session s (.start i (.change key change))
  | .acquire i => session s (.acquire i)
  | .statement i => session s (.statement i)
  | .disconnect i => session s (.disconnect i)

/-- No session runs, no scheduler has read anything, and no job was enqueued. -/
def initial (slots : ScheduleKey → ScheduleSlot) : SchedulerState :=
  ⟨Serial.initial fun key => ⟨slots key, []⟩, fun _ => []⟩

end Scheduler

/-! ### Firing -/

/-- What is stored under a schedule id is in order: each occurrence has at most one job, and
    `next_run_at` is past all of them. -/
structure FiredOnce (db : ScheduleDb) : Prop where
  nodup : (db.jobs.map ScheduledJob.occurrence).Nodup
  past : ∀ row, db.slot = .present row → ∀ job ∈ db.jobs, job.occurrence < row.nextRunAt
  unused : db.slot = .unused → db.jobs = []

/-- A transaction adds no job, or it adds one for the occurrence it moves `next_run_at` past. -/
def FiresPast (db db' : ScheduleDb) : Prop :=
  db'.jobs = db.jobs
    ∨ ∃ row row' job, db.slot = .present row ∧ db'.slot = .present row'
        ∧ db'.jobs = db.jobs ++ [job] ∧ job.occurrence = row.nextRunAt
        ∧ row.nextRunAt < row'.nextRunAt

theorem millis_lt {next checkedAt : ℤ} {elapsed intervalMs : ℕ} (hdue : next / 1000 ≤ checkedAt)
    (hinterval : 300000 ≤ intervalMs) : next < (checkedAt + elapsed + intervalMs) * 1000 := by
  omega

/-- **The advance.**  A row that is due by the clock of the scheduler is advanced past the
    occurrence. -/
theorem nextRunAt_lt_nextRunAfter {input : FireInput} {row : ScheduleRow}
    (h : canFire input row = true) : row.nextRunAt < nextRunAfter input row := by
  have hdue : row.nextRunAt / 1000 ≤ input.checkedAt := by
    simp only [canFire, jsMillis, Bool.and_eq_true, Bool.not_eq_true'] at h
    exact Int.not_lt.mp (of_decide_eq_false h.1.2)
  exact millis_lt hdue row.intervalMs.2

/-- What firing a schedule does: nothing, or it advances the row and adds the job. -/
theorem fireSchedule_apply (assign : FireInput → ScheduleRow → ScheduleRow) (input : FireInput)
    (db : ScheduleDb) :
    (fireSchedule assign input).apply db = db
      ∨ ∃ row ids, db.slot = .present row ∧ canFire input row = true
        ∧ (fireSchedule assign input).apply db
          = ⟨.present { assign input row with rowVersion := input.txid },
              db.jobs ++ [enqueuedJob ids row]⟩ := by
  obtain ⟨slot, jobs⟩ := db
  cases slot with
  | unused => exact Or.inl rfl
  | deleted => exact Or.inl rfl
  | present row =>
    simp only [fireSchedule, Tx.apply, Tx.run, ScheduleSlot.row]
    split
    · rename_i hfire
      cases henqueue : input.enqueue with
      | error error =>
        -- the `UPDATE` is rolled back with the rest
        exact Or.inl rfl
      | ok ids => exact Or.inr ⟨row, ids, rfl, hfire, rfl⟩
    · exact Or.inl rfl

/-- Firing a schedule whose assignment advances it. -/
theorem fireSchedule_firesPast {assign : FireInput → ScheduleRow → ScheduleRow}
    (hassign : ∀ input row, (assign input row).nextRunAt = nextRunAfter input row)
    (input : FireInput) {db : ScheduleDb} (h : FiredOnce db) :
    FiredOnce ((fireSchedule assign input).apply db)
      ∧ FiresPast db ((fireSchedule assign input).apply db) := by
  rcases fireSchedule_apply assign input db with hsame | ⟨row, ids, hrow, hfire, hdb⟩
  · rw [hsame]
    exact ⟨h, Or.inl rfl⟩
  · have hlt := nextRunAt_lt_nextRunAfter hfire
    have hpast := h.past row hrow
    rw [hdb]
    refine ⟨⟨?_, ?_, ?_⟩, Or.inr ⟨row, _, enqueuedJob ids row, hrow, rfl, rfl, rfl, ?_⟩⟩
    · -- the new occurrence is the current `next_run_at`, which is past those of all jobs
      rw [List.map_append, List.nodup_append]
      refine ⟨h.nodup, List.nodup_singleton _, ?_⟩
      intro t ht t' ht'
      obtain ⟨job, hjob, rfl⟩ := List.mem_map.mp ht
      have : t' = row.nextRunAt := List.mem_singleton.mp ht'
      exact this ▸ Int.ne_of_lt (hpast job hjob)
    · intro row' hrow' job hjob
      cases hrow'
      show job.occurrence < (assign input row).nextRunAt
      rw [hassign]
      rcases List.mem_append.mp hjob with hjob | hjob
      · exact Int.lt_trans (hpast job hjob) hlt
      · rw [List.mem_singleton.mp hjob]
        exact hlt
    · intro hunused
      cases hunused
    · show row.nextRunAt < (assign input row).nextRunAt
      rw [hassign]
      exact hlt

/-- What every change of a schedule does to the row it finds. -/
theorem change_apply (id : Id) (change : ScheduleChange) (db : ScheduleDb) :
    (change.tx id).apply db = db
      ∨ (db.slot = .unused ∧ ∃ row, (change.tx id).apply db = ⟨.present row, db.jobs⟩)
      ∨ ∃ row, db.slot = .present row ∧ ((change.tx id).apply db = ⟨.deleted, db.jobs⟩
          ∨ ∃ row', row'.nextRunAt = row.nextRunAt
            ∧ (change.tx id).apply db = ⟨.present row', db.jobs⟩) := by
  obtain ⟨slot, jobs⟩ := db
  cases change with
  | create row =>
    cases slot with
    | unused => exact Or.inr (Or.inl ⟨rfl, _, rfl⟩)
    | present row' => exact Or.inl rfl
    | deleted => exact Or.inl rfl
  | delete =>
    cases slot with
    | unused => exact Or.inl rfl
    | present row => exact Or.inr (Or.inr ⟨row, rfl, Or.inl rfl⟩)
    | deleted => exact Or.inl rfl
  | edit txid assignments =>
    cases slot with
    | unused => exact Or.inl rfl
    | present row =>
      exact Or.inr (Or.inr ⟨row, rfl, Or.inr
        ⟨{ assignments.assign row with rowVersion := txid }, rfl, rfl⟩⟩)
    | deleted => exact Or.inl rfl

theorem change_firesPast (id : Id) (change : ScheduleChange) {db : ScheduleDb} (h : FiredOnce db) :
    FiredOnce ((change.tx id).apply db) ∧ FiresPast db ((change.tx id).apply db) := by
  rcases change_apply id change db with hsame | ⟨hunused, row, hdb⟩ | ⟨row, hrow, hdb | hdb⟩
  · rw [hsame]
    exact ⟨h, Or.inl rfl⟩
  · rw [hdb]
    have hjobs := h.unused hunused
    refine ⟨⟨h.nodup, fun _ _ job hjob => ?_, fun _ => hjobs⟩, Or.inl rfl⟩
    rw [hjobs] at hjob
    cases hjob
  · rw [hdb]
    refine ⟨⟨h.nodup, fun _ hrow' => ?_, fun hunused => ?_⟩, Or.inl rfl⟩
    · cases hrow'
    · cases hunused
  · obtain ⟨row', hnext, hdb⟩ := hdb
    rw [hdb]
    refine ⟨⟨h.nodup, fun _ hrow' job hjob => ?_, fun hunused => ?_⟩, Or.inl rfl⟩
    · cases hrow'
      rw [hnext]
      exact h.past row hrow job hjob
    · cases hunused

/-- **One transaction.** -/
theorem scheduleTx_firesPast (request : ScheduleRequest) {db : ScheduleDb} (h : FiredOnce db) :
    FiredOnce ((scheduleTx request).2.apply db)
      ∧ FiresPast db ((scheduleTx request).2.apply db) := by
  cases request with
  | fire kind input =>
    cases kind with
    | backup => exact fireSchedule_firesPast (fun _ _ => rfl) input h
    | recovery => exact fireSchedule_firesPast (fun _ _ => rfl) input h
  | change key change => exact change_firesPast key.2 change h

/-! ### Runs -/

namespace Scheduler

/-- The sessions are serialised, and what each key has committed is in order. -/
structure Inv (s : SchedulerState) : Prop where
  sessions : Serial.Inv scheduleTx s.sessions
  firedOnce : ∀ key, FiredOnce (s.sessions.db key)

theorem inv_initial (slots : ScheduleKey → ScheduleSlot) : Inv (initial slots) where
  sessions := Serial.inv_initial _
  firedOnce := by
    refine fun key => ⟨List.nodup_nil, fun row hrow job hjob => ?_, fun _ => rfl⟩
    cases hjob

/-- A step moves one database session at most. -/
theorem step_sessions (s : SchedulerState) (op : SchedulerOp) :
    (step s op).sessions = s.sessions
      ∨ ∃ op', (step s op).sessions = Serial.step scheduleTx s.sessions op' := by
  cases op with
  | select worker kind now ids => exact Or.inl rfl
  | prepareFailed worker => exact Or.inl rfl
  | prepared worker txid checkedAt elapsed startedAt enqueue =>
    simp only [step]
    split
    · exact Or.inl rfl
    · rename_i kind row rest hdue
      exact Or.inr ⟨.start worker (.fire kind ⟨row, txid, checkedAt, elapsed, startedAt, enqueue⟩),
        rfl⟩
  | change i key change => exact Or.inr ⟨.start i (.change key change), rfl⟩
  | acquire i => exact Or.inr ⟨.acquire i, rfl⟩
  | statement i => exact Or.inr ⟨.statement i, rfl⟩
  | disconnect i => exact Or.inr ⟨.disconnect i, rfl⟩

/-- **One step.**  It keeps the invariant, and what it commits fires past the occurrence. -/
theorem Inv.step {s : SchedulerState} (h : Inv s) (op : SchedulerOp) :
    Inv (step s op)
      ∧ ∀ key, FiresPast (s.sessions.db key) ((Scheduler.step s op).sessions.db key) := by
  rcases step_sessions s op with hsame | ⟨op', hstep⟩
  · exact ⟨⟨hsame ▸ h.sessions, fun key => hsame ▸ h.firedOnce key⟩,
      fun key => by rw [hsame]; exact Or.inl rfl⟩
  · have hkey : ∀ key, FiredOnce ((Scheduler.step s op).sessions.db key)
        ∧ FiresPast (s.sessions.db key) ((Scheduler.step s op).sessions.db key) := by
      intro key
      rw [hstep]
      rcases h.sessions.step_db op' key with hsame | ⟨request, -, hcommit⟩
      · rw [hsame]
        exact ⟨h.firedOnce key, Or.inl rfl⟩
      · rw [hcommit]
        exact scheduleTx_firesPast request (h.firedOnce key)
    exact ⟨⟨hstep ▸ h.sessions.step op', fun key => (hkey key).1⟩, fun key => (hkey key).2⟩

end Scheduler

/-- **Schedules fire at most once per occurrence.**  In every interleaving of schedulers and other
    clients, an occurrence of a schedule has at most one job, and a step that adds a job for an
    occurrence moves `next_run_at` past it. -/
theorem schedules_fire_once (slots : ScheduleKey → ScheduleSlot) (ops : List SchedulerOp)
    (key : ScheduleKey) :
    ((((Runs.exec Scheduler.step (Scheduler.initial slots) ops).sessions.db key).jobs.map
        ScheduledJob.occurrence).Nodup)
      ∧ ∀ op, FiresPast ((Runs.exec Scheduler.step (Scheduler.initial slots) ops).sessions.db key)
          ((Scheduler.step (Runs.exec Scheduler.step (Scheduler.initial slots) ops) op).sessions.db
            key) := by
  have hinv : Scheduler.Inv (Runs.exec Scheduler.step (Scheduler.initial slots) ops) :=
    Runs.exec_invariant (fun s op hs => (hs.step op).1) (Scheduler.inv_initial slots) ops
  exact ⟨(hinv.firedOnce key).nodup, fun op => (hinv.step op).2 key⟩

/-- A nightly backup, due at the epoch. -/
def nightlySlots (key : ScheduleKey) : ScheduleSlot :=
  if key = (.backup, "s1") then
    .present ⟨"s1", true, ⟨86400000, by decide⟩, none, 0, none, none, none, none, 1⟩
  else .unused

-- two schedulers read the row while it is due, and both get as far as the transaction
example : (((Runs.exec Scheduler.step (Scheduler.initial nightlySlots)
    [.select 1 .backup 5 ["s1"], .select 2 .backup 5 ["s1"],
      .prepared 1 2 7 0 7000 (.ok ("j1", "b1")), .prepared 2 3 7 1 7000 (.ok ("j2", "b2")),
      .acquire 1, .acquire 2, .statement 1, .statement 1, .statement 1, .statement 1,
      .acquire 2, .statement 2, .statement 2]).sessions.db (.backup, "s1")).jobs.map
        ScheduledJob.id) = ["j1"] := by
  decide +kernel

end ComposeBastion
