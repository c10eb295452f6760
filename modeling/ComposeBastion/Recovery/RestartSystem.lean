import ComposeBastion.Recovery.Executors
import ComposeBastion.Recovery.RestoreReconciler

namespace ComposeBastion

/-!
# An operation that stops its source, and the reconcilers

One recovery point with the operation that owns it: the capture it was created for, or the
migration whose final point it is.  The executor of the operation, the restart reconcilers and the
reconcilers of restore attempts act on it one statement or remote command at a time; the executor
may lose its lease or crash at any moment, and every await of it may throw.

* `SourceOperation` — the operation: its point, its job and its executor;
* `SourceState` — the rows, the job, the target, the executor, the reconcilers, and a log of what
  the parties awaited;
* `settle` — how the environment answers a request of the executor;
* `SourceOp`, `SourceState.step` — the steps of all parties.
-/

/-! ### The operation -/

/-- The executor of an operation. -/
inductive OperationKind
  | capture (stopFirst : Bool)
  | migration (migrationRunId targetHostId : Id) (allowedPathRoots : List String)
      (plan : TargetPlan)

/-- The migration of an operation. -/
def OperationKind.migrationRunId : OperationKind → Option Id
  | capture _ => none
  | migration migrationRunId _ _ _ => some migrationRunId

/-- `payload->>'recoveryPointId'` is the point, or `payload->>'migrationRunId'` its migration. -/
def ActionPayload.concernsPoint (recoveryPointId : Id) (migrationRunId : Option Id) :
    ActionPayload → Bool
  | .recoveryCreate id | .recoveryCapture id | .recoveryVerify id | .recoveryRestore id _ =>
    id = recoveryPointId
  | .migrationExecute id => migrationRunId = some id
  | _ => false

/-- An operation on a point, as a worker claims its job. -/
structure SourceOperation where
  recoveryPointId : Id
  kind : OperationKind
  job : JobRow
  running : job.status = .running
  bound : job.payload.concernsPoint recoveryPointId kind.migrationRunId = true

/-- What the worker runs. -/
def SourceOperation.program (operation : SourceOperation) : Exec Bool :=
  match operation.kind with
  | .capture stopFirst => do
    let _ ← runRecoveryCreate
      { stopFirst := stopFirst, restartAfterStopFirst := true,
        deferRestartObligationResolution := false }
    .ret false
  | .migration migrationRunId _ _ plan => runMigrationExecute migrationRunId plan

/-- The row `beginRecoveryRestoreAttempt` is given for the restore of a migration. -/
def SourceOperation.attemptContext (operation : SourceOperation) (attemptToken : Id) :
    AttemptContext :=
  let (targetHostId, allowedPathRoots) :=
    match operation.kind with
    | .capture _ => ("", [])
    | .migration _ targetHostId allowedPathRoots _ => (targetHostId, allowedPathRoots)
  { attemptToken := attemptToken
    recoveryPointId := some operation.recoveryPointId
    backupId := none
    targetHostId := targetHostId
    restoreScope := operation.recoveryPointId
    operationJobId := some operation.job.id
    migrationRunId := operation.kind.migrationRunId
    allowedPathRoots := allowedPathRoots
    retainOnSuccess := none }

/-! ### The state -/

/-- Where a restart reconciler stands with its obligation. -/
inductive RestartPhase
  | starting (ids restartFailedIds : List ContainerId)
  | failing (restartFailedIds : List ContainerId)
  deriving DecidableEq, Repr

/-- A restart reconciler that claimed the point. -/
structure RestartPass where
  obligation : SourceRestartObligation
  phase : RestartPhase
  deriving DecidableEq, Repr

/-- Where a reconciler of restore attempts stands: the claim is renewed before and after every
    remote command. -/
inductive CleanupPhase
  | cleaning (resources : List RestoreResource)
  | renewed (resource : RestoreResource) (resources : List RestoreResource)
  | returned (resources : List RestoreResource)
  | failing (remoteOutcomeUnknown : Bool)
  deriving DecidableEq, Repr

/-- A reconciler that claimed a restore attempt. -/
structure CleanupPass where
  attempt : AttemptRow
  phase : CleanupPhase
  deriving DecidableEq, Repr

/-- What the log keeps. -/
inductive SourceEvent
  | executor (request : Request) (answer : Answer request)
  | restarted (token : Id) (id : ContainerId)

/-- The system. -/
structure SourceState where
  row : RestartRow
  attempts : AttemptTable
  resources : ResourceTable
  jobStatus : JobStatus
  otherJobs : List JobRow
  migrations : List MigrationLink
  -- what the attempt has created on the target, and the commands whose end nobody has seen
  target : List RestoreResource
  inFlight : List RestoreResource
  executor : Option (Exec Bool)
  restarts : ℕ → Option RestartPass
  cleanups : ℕ → Option CleanupPass
  issued : List Id
  log : List SourceEvent

/-- `operation_jobs`. -/
def SourceState.jobs (operation : SourceOperation) (s : SourceState) : JobTable :=
  s.otherJobs.foldl Table.insert
    ((∅ : JobTable).insert { operation.job with status := s.jobStatus })

/-- The state in which a worker has claimed the job. -/
def SourceState.initial (operation : SourceOperation) : SourceState where
  row := .fresh operation.kind.migrationRunId
  attempts := ∅
  resources := ∅
  jobStatus := .running
  otherJobs := []
  migrations := []
  target := []
  inFlight := []
  executor := some operation.program
  restarts := fun _ => none
  cleanups := fun _ => none
  issued := []
  log := []

/-! ### Answering the executor -/

/-- What the environment decides about a request. -/
inductive Choice
  | succeed
  | refuse (created : Bool)
  | fail (applied captureReconciliationRequired : Bool)
  | inspected (containerIds runningIds : List ContainerId)
  | uuid (id : Id)
  | compensated (remaining : List RestoreResource)

/-- An `UPDATE` of the attempts. -/
def SourceState.update (s : SourceState) (u : AttemptUpdate) : SourceState :=
  { s with attempts := u.apply s.attempts }

/-- A statement of the executor that returns nothing: `after` is the state once it is committed, and
    is absent where the statement cannot be.  One that throws may have been committed all the
    same. -/
def settleWrite (s : SourceState) (after : Option SourceState) :
    Choice → Option (Except Thrown Unit × SourceState)
  | .succeed => after.map fun s' => (.ok (), s')
  | .fail applied _ => some (.error {}, if applied then after.getD s else s)
  | _ => none

/-- `withActiveLease`: the statement is committed only while the job runs under the lease. -/
def SourceState.fenced (s s' : SourceState) : Option SourceState :=
  if s.jobStatus = .running then some s' else none

/-- `recoveryRestoreAttemptCleanupIsDeferred`. -/
def recoveryRestoreAttemptCleanupIsDeferred (t : AttemptTable) (attemptToken : Id) (now : Time) :
    Bool :=
  (t.find attemptToken).any fun row => row.cleanupNotBefore.any (now < ·)

/-- The row after a statement on it, when it may be committed: whether it met the row. -/
def settleStatement (s : SourceState) (fenced : Bool) (statement : RestartStatement) :
    Choice → Option (Except Thrown Bool × SourceState)
  | .succeed =>
    if fenced && s.jobStatus ≠ .running then none
    else match statement.apply s.row with
      | some row => some (.ok true, { s with row := row })
      | none => some (.ok false, s)
  | .fail applied _ =>
    if applied && !(fenced && s.jobStatus ≠ .running) then
      some (.error {}, { s with row := (statement.apply s.row).getD s.row })
    else some (.error {}, s)
  | _ => none

/-- `docker stop` or `docker start` on the source. -/
def settleCommand (s : SourceState) : Choice → Option (Except Thrown Bool × SourceState)
  | .succeed => some (.ok true, s)
  | .refuse _ => some (.ok false, s)
  | .fail _ _ => some (.error {}, s)
  | _ => none

/-- A remote mutation: a command that fails for the caller may still create its resource later; one
    that exits with an error may have created it only where its compensation is registered. -/
def settleDispatch (s : SourceState) (mutation : RestoreMutation) :
    Choice → Option (Except Thrown Bool × SourceState)
  | .succeed => some (.ok true, { s with target := mutation.resource :: s.target })
  | .refuse created =>
    some (.ok false, if created && mutation.trackedBefore then
      { s with target := mutation.resource :: s.target } else s)
  | .fail applied _ =>
    some (.error {}, if applied then { s with target := mutation.resource :: s.target }
      else { s with inFlight := mutation.resource :: s.inFlight })
  | _ => none

/-- How a request of the executor may be answered: nothing where the choice does not fit. -/
def settle (operation : SourceOperation) (s : SourceState) (now : Time) (choice : Choice) :
    (request : Request) → Option (Answer request × SourceState)
  | .work =>
    match choice with
    | .succeed => some (.ok (), s)
    | .fail _ required => some (.error { captureReconciliationRequired := required }, s)
    | _ => none
  | .assertActive | .recordDispatch => settleWrite s (s.fenced s) choice
  | .randomUuid =>
    match choice with
    | .uuid id =>
      if id ∉ s.issued && uuidText id = id then
        some (.ok id, { s with issued := id :: s.issued })
      else none
    | _ => none
  | .inspect =>
    match choice with
    | .inspected containerIds runningIds => some (.ok (containerIds, runningIds), s)
    | .fail _ _ => some (.error {}, s)
    | _ => none
  | .statement fenced statement => settleStatement s fenced statement choice
  | .stop _ | .start _ => settleCommand s choice
  | .beginAttempt attemptToken =>
    settleWrite s (match beginRecoveryRestoreAttempt s.attempts
        (operation.attemptContext attemptToken) now with
      | .ok attempts => s.fenced { s with attempts := attempts }
      | .error _ => none) choice
  | .register attemptToken resource =>
    settleWrite s (s.fenced { s with
      resources := registerRecoveryRestoreResource s.resources s.attempts attemptToken resource.1
        resource.2 now
      attempts := (attemptHeartbeat attemptToken now).apply s.attempts }) choice
  | .observed attemptToken resource =>
    settleWrite s (s.fenced { s with
      resources := markRecoveryRestoreResourceObserved s.resources attemptToken resource.1 resource.2
      attempts := (attemptHeartbeat attemptToken now).apply s.attempts }) choice
  | .awaitingDisposition attemptToken =>
    settleWrite s (s.fenced
      (s.update (markRecoveryRestoreAttemptAwaitingDisposition attemptToken now))) choice
  | .cleanupPending attemptToken remoteOutcomeUnknown =>
    settleWrite s (some (s.update
      (markRecoveryRestoreAttemptCleanupPending attemptToken "" remoteOutcomeUnknown now))) choice
  | .cleanupIsDeferred attemptToken =>
    match choice with
    | .succeed => some (.ok (recoveryRestoreAttemptCleanupIsDeferred s.attempts attemptToken now), s)
    | .fail _ _ => some (.error {}, s)
    | _ => none
  | .cleaned attemptToken =>
    settleWrite s (s.fenced (s.update (markRecoveryRestoreAttemptCleaned attemptToken now))) choice
  | .dispatch mutation => settleDispatch s mutation choice
  | .rollback actions =>
    match choice with
    | .compensated remaining =>
      if remaining.all (· ∈ actions) then
        some (.ok remaining,
          { s with target := s.target.filter fun r => r ∉ actions || r ∈ remaining })
      else none
    | _ => none

/-! ### The steps -/

/-- A step of the system. -/
inductive SourceOp
  -- the executor: its current await settles, or its process ends
  | executor (now : Time) (choice : Choice)
  | crash
  -- the job ends without success, or is completed; the other jobs change
  | endJob
  | completeJob (now : Time)
  | otherJobs (jobs : List JobRow) (migrations : List MigrationLink)
  -- a command on the target that nobody waits for ends
  | lands (created : Bool)
  -- the restart reconcilers
  | claimRestart (worker : ℕ) (token : Id) (now : Time)
  | renewRestart (worker : ℕ) (now : Time)
  | startContainer (worker : ℕ) (succeeded : Bool)
  | recordRestart (worker : ℕ) (rejected applied : Bool)
  | dropRestart (worker : ℕ)
  -- the reconcilers of restore attempts
  | claimAttempt (worker : ℕ) (attemptId token : Id) (now : Time)
  | renewAttempt (worker : ℕ) (now : Time)
  | removeResource (worker : ℕ) (choice : Choice)
  | recordAttempt (worker : ℕ) (now : Time)
  | dropAttempt (worker : ℕ)

namespace SourceState

/-- The restart reconciler `worker` moves. -/
def setRestart (s : SourceState) (worker : ℕ) (pass : Option RestartPass) : SourceState :=
  { s with restarts := Function.update s.restarts worker pass }

/-- The attempt reconciler `worker` moves. -/
def setCleanup (s : SourceState) (worker : ℕ) (pass : Option CleanupPass) : SourceState :=
  { s with cleanups := Function.update s.cleanups worker pass }

/-- A job of the point or of its migration is queued or running. -/
def jobActive (operation : SourceOperation) (s : SourceState) : Bool :=
  (s.jobs operation).rows.any fun job => job.status.active
    && job.payload.concernsPoint operation.recoveryPointId operation.kind.migrationRunId

/-- The executor's current await settles. -/
def runExecutor (operation : SourceOperation) (s : SourceState) (now : Time) (choice : Choice) :
    SourceState :=
  match s.executor with
  | some (.await request next) =>
    match settle operation s now choice request with
    | some (answer, s') =>
      { s' with executor := some (next answer), log := s.log ++ [.executor request answer] }
    | none => s
  | _ => s

/-- The executor's process ends: a command it was waiting for goes on. -/
def crash (s : SourceState) : SourceState :=
  match s.executor with
  | some (.await (.dispatch mutation) _) =>
    { s with executor := none, inFlight := mutation.resource :: s.inFlight }
  | _ => { s with executor := none }

/-- `completeJob`, of the job of the operation: the retention of the target and the disposition of
    the source are one transaction with it. -/
def completeJob (operation : SourceOperation) (s : SourceState) (now : Time) : SourceState :=
  match s.executor, operation.kind with
  | some (.ret _), .capture _ =>
    if s.jobStatus = .running then { s with jobStatus := .completed } else s
  | some (.ret sourceLeftStopped), .migration migrationRunId _ _ _ =>
    if s.jobStatus = .running then
      match finalizeSuccessfulRestoreAttempt s.attempts operation.job
          (some ⟨migrationRunId, operation.recoveryPointId⟩) none none now,
        s.row.finalizeLinkedMigrationSuccess sourceLeftStopped with
      | .ok attempts, some row =>
        { s with attempts := attempts, row := row, jobStatus := .completed }
      | _, _ => s
    else s
  | _, _ => s

/-- A command on the target that nobody waits for ends. -/
def lands (s : SourceState) (created : Bool) : SourceState :=
  match s.inFlight with
  | [] => s
  | resource :: inFlight =>
    { s with
      inFlight := inFlight
      target := if created then resource :: s.target else s.target }

/-- `claimRecoverySourceRestartObligations`, of this point. -/
def claimRestart (operation : SourceOperation) (s : SourceState) (worker : ℕ) (token : Id)
    (now : Time) : SourceState :=
  if (s.restarts worker).isNone && s.row.restartClaimable (s.jobActive operation) now
      && token ∉ s.issued then
    let obligation : SourceRestartObligation := ⟨s.row.obligationIds, token⟩
    let pass : RestartPass :=
      ⟨obligation, if obligation.containerIds.isEmpty then .failing []
        else .starting obligation.containerIds []⟩
    { s with
      row := s.row.claimRestart token now
      restarts := Function.update s.restarts worker (some pass)
      issued := token :: s.issued }
  else s

/-- A `docker start` of a restart reconciler returns. -/
def startContainer (s : SourceState) (worker : ℕ) (succeeded : Bool) : SourceState :=
  match s.restarts worker with
  | some ⟨obligation, .starting (id :: ids) restartFailedIds⟩ =>
    if succeeded then
      { s with
        restarts := Function.update s.restarts worker
          (some ⟨obligation, .starting ids restartFailedIds⟩)
        log := s.log ++ [.restarted obligation.token id] }
    else s.setRestart worker (some ⟨obligation, .starting ids (restartFailedIds ++ [id])⟩)
  | _ => s

/-- The statement that ends the pass of a restart reconciler.  Where `recordRestartSuccess` throws,
    `recordRestartFailure` follows. -/
def recordRestart (s : SourceState) (worker : ℕ) (rejected applied : Bool) : SourceState :=
  match s.restarts worker with
  | some ⟨obligation, .starting [] []⟩ =>
    let recorded := { s with row := s.row.recordRestartSuccess obligation }
    if rejected then
      (if applied then recorded else s).setRestart worker (some ⟨obligation, .failing []⟩)
    else recorded.setRestart worker none
  | some ⟨obligation, .starting [] restartFailedIds⟩
  | some ⟨obligation, .failing restartFailedIds⟩ =>
    let recorded := { s with row := s.row.recordRestartFailure obligation restartFailedIds }
    (if rejected && !applied then s else recorded).setRestart worker none
  | _ => s

/-- `claimRestoreAttempts`, of one attempt: what is bound to a completed job is decided first. -/
def claimAttempt (operation : SourceOperation) (s : SourceState) (worker : ℕ) (attemptId token : Id)
    (now : Time) : SourceState :=
  let jobs := s.jobs operation
  let s := (s.update (retainCompletedAttempts jobs now)).update (releaseCompletedAttempts jobs now)
  let u := ComposeBastion.claimAttempt jobs s.migrations now attemptId token
  match (s.cleanups worker).isNone && token ∉ s.issued,
    (s.attempts.find attemptId).filter u.guard with
  | true, some attempt =>
    { s with
      attempts := u.apply s.attempts
      cleanups := Function.update s.cleanups worker (some ⟨u.assign attempt,
        .cleaning ((openResources s.resources attempt).map fun r => (r.kind, r.resourceName))⟩)
      issued := token :: s.issued }
  | _, _ => s

/-- The renewal of the claim on an attempt, before a command and after it. -/
def renewAttempt (s : SourceState) (worker : ℕ) (now : Time) : SourceState :=
  match s.cleanups worker with
  | some ⟨attempt, .cleaning (resource :: resources)⟩ =>
    let u := renewRestoreAttemptClaim attempt now
    if u.hits s.attempts then
      (s.update u).setCleanup worker (some ⟨attempt, .renewed resource resources⟩)
    else s.setCleanup worker (some ⟨attempt, .failing false⟩)
  | some ⟨attempt, .returned resources⟩ =>
    let u := renewRestoreAttemptClaim attempt now
    if u.hits s.attempts then
      (s.update u).setCleanup worker (some ⟨attempt, .cleaning resources⟩)
    else s.setCleanup worker (some ⟨attempt, .failing false⟩)
  | _ => s

/-- The removal of a resource from the target. -/
def removeResource (s : SourceState) (worker : ℕ) (choice : Choice) : SourceState :=
  match s.cleanups worker, choice with
  | some ⟨attempt, .renewed resource resources⟩, .succeed =>
    { s with target := s.target.filter (· ≠ resource) }.setCleanup worker
      (some ⟨attempt, .returned resources⟩)
  | some ⟨attempt, .renewed _ _⟩, .refuse _ => s.setCleanup worker (some ⟨attempt, .failing false⟩)
  | some ⟨attempt, .renewed _ _⟩, .fail _ _ => s.setCleanup worker (some ⟨attempt, .failing true⟩)
  | _, _ => s

/-- The end of the cleanup of an attempt: `completeClaimedAttempt`, in one transaction with the
    release of the source, or `failClaimedAttempt`. -/
def recordAttempt (s : SourceState) (worker : ℕ) (now : Time) : SourceState :=
  match s.cleanups worker with
  | some ⟨attempt, .cleaning []⟩ =>
    let u := completeClaimedAttempt attempt now
    if u.hits s.attempts then
      { s.update u with row := s.row.releaseSourceRestartAfterCleanup attempt.migrationRunId
        }.setCleanup worker none
    else s.setCleanup worker (some ⟨attempt, .failing false⟩)
  | some ⟨attempt, .failing remoteOutcomeUnknown⟩ =>
    (s.update (failClaimedAttempt attempt remoteOutcomeUnknown "" now)).setCleanup worker none
  | _ => s

/-- One step of the system. -/
def step (operation : SourceOperation) (s : SourceState) : SourceOp → SourceState
  | .executor now choice => s.runExecutor operation now choice
  | .crash => s.crash
  | .endJob => if s.jobStatus.active then { s with jobStatus := .failed } else s
  | .completeJob now => s.completeJob operation now
  | .otherJobs jobs migrations => { s with otherJobs := jobs, migrations := migrations }
  | .lands created => s.lands created
  | .claimRestart worker token now => s.claimRestart operation worker token now
  | .renewRestart worker now =>
    match s.restarts worker with
    | some pass => { s with row := s.row.renewRestartClaim pass.obligation now }
    | none => s
  | .startContainer worker succeeded => s.startContainer worker succeeded
  | .recordRestart worker rejected applied => s.recordRestart worker rejected applied
  | .dropRestart worker => s.setRestart worker none
  | .claimAttempt worker attemptId token now => s.claimAttempt operation worker attemptId token now
  | .renewAttempt worker now => s.renewAttempt worker now
  | .removeResource worker choice => s.removeResource worker choice
  | .recordAttempt worker now => s.recordAttempt worker now
  | .dropAttempt worker => s.setCleanup worker none

end SourceState

end ComposeBastion
