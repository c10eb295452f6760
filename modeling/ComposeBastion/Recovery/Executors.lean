import ComposeBastion.Lib.Program
import ComposeBastion.Recovery.SourceRestart

namespace ComposeBastion

/-!
# The executors that stop a source

`runRecoveryCreate` (`services/recoveryCapture.ts`), `runRecoveryRestoreInternal`
(`services/recoveryRestore.ts`) and `runMigrationExecute` (`services/migrationExecute.ts`, under an
operation job and a stop-first strategy) as programs that await: every database statement, every
remote command and every other `await` is a request, and any of them may throw.

* `Request`, `Answer` — what an executor awaits;
* `Fault` — the properties of a thrown error that some handler reads;
* `stopContainersWithRestartOnFailure`, `startContainersOneByOne` — `recoveryContainerControl.ts`;
* `runRecoveryCreate` — the stop-first capture, with its `catch` and `finally`;
* `runRecoveryRestoreInternal` — the restore of a migration target, with its compensation;
* `runMigrationExecute` — capture, restore, and the compensation of a failure.

Awaits that touch neither the restart obligation, the restore attempt nor a container are one
request, `work`.
-/

/-! ### Requests and answers -/

/-- A resource of a restore plan. -/
abbrev RestoreResource := RestoreResourceKind × String

/-- A remote mutation of a restore: what it creates, and whether its compensation is registered
    before the command (`onMutationIntent`) or after it (`trackOwnedDirectoryTree`). -/
structure RestoreMutation where
  resource : RestoreResource
  trackedBefore : Bool
  deriving DecidableEq, Repr

/-- What an executor awaits. -/
inductive Request
  -- anything that concerns none of the below
  | work
  | assertActive
  | randomUuid
  | inspect
  -- the recovery point, under the execution fence or outside of it
  | statement (fenced : Bool) (statement : RestartStatement)
  -- `docker stop` and `docker start` on the source
  | stop (id : ContainerId)
  | start (id : ContainerId)
  -- the ledger of the restore attempt
  | beginAttempt (attemptToken : Id)
  | register (attemptToken : Id) (resource : RestoreResource)
  | observed (attemptToken : Id) (resource : RestoreResource)
  | awaitingDisposition (attemptToken : Id)
  | cleanupPending (attemptToken : Id) (remoteOutcomeUnknown : Bool)
  | cleanupIsDeferred (attemptToken : Id)
  | cleaned (attemptToken : Id)
  -- remote mutations of the target, and their compensation
  | recordDispatch
  | dispatch (mutation : RestoreMutation)
  | rollback (actions : List RestoreResource)
  deriving DecidableEq, Repr

/-- `RecoveryRestoreCleanup`: the attempt, and the compensations that are not completed. -/
structure RestoreCleanup where
  attemptToken : Id
  actions : List RestoreResource
  deriving DecidableEq, Repr

/-- A thrown error, as far as a handler looks into it. -/
structure Fault where
  stoppedIds : Option (List ContainerId) := none
  restartFailedIds : Option (List ContainerId) := none
  sourceStoppedIds : Option (List ContainerId) := none
  captureReconciliationRequired : Bool := false
  remoteOutcomeUnknown : Bool := false
  cleanupRequired : Option RestoreCleanup := none
  deriving DecidableEq, Repr

/-- What a request returns when it does not throw: for a statement whether it met its row, for a
    command whether it exited with 0. -/
abbrev Value : Request → Type
  | .work | .assertActive | .beginAttempt _ | .register _ _ | .observed _ _
  | .awaitingDisposition _ | .cleanupPending _ _ | .cleaned _ | .recordDispatch => Unit
  | .randomUuid => Id
  | .inspect => List ContainerId × List ContainerId
  | .statement _ _ | .stop _ | .start _ | .cleanupIsDeferred _ | .dispatch _ => Bool
  | .rollback _ => List RestoreResource

/-- What a request itself throws: of its errors only the one of an ambiguous capture commit is told
    from the others. -/
structure Thrown where
  captureReconciliationRequired : Bool := false
  deriving DecidableEq, Repr

/-- The outcome of a request. -/
abbrev Answer (request : Request) : Type := Except Thrown (Value request)

/-- An executor, or a part of one. -/
abbrev Exec (α : Type) := Program Request Answer Fault α

/-- `await`. -/
def awaited (request : Request) : Exec (Value request) :=
  .await request fun
    | .ok value => .ret value
    | .error thrown =>
      .throw { captureReconciliationRequired := thrown.captureReconciliationRequired }

/-! ### `recoveryContainerControl.ts` -/

/-- The loop of `stopContainersOneByOne`. -/
def stopContainersOneByOne (stoppedIds : List ContainerId) : List ContainerId → Exec Unit
  | [] => .ret ()
  | id :: ids =>
    .await (.stop id) fun
      -- a transport failure leaves the outcome open: the container counts as stopped
      | .error _ => .throw { stoppedIds := some (stoppedIds ++ [id]) }
      | .ok false => .throw { stoppedIds := some stoppedIds }
      | .ok true => stopContainersOneByOne (stoppedIds ++ [id]) ids

/-- The loop of `startContainersOneByOne`: the ids that could not be started. -/
def startEach (failures : List ContainerId) : List ContainerId → Exec (List ContainerId)
  | [] => .ret failures
  | id :: ids =>
    .await (.start id) fun
      | .ok true => startEach failures ids
      | .ok false | .error _ => startEach (failures ++ [id]) ids

/-- `startContainersOneByOne`. -/
def startContainersOneByOne (containerIds : List ContainerId) : Exec Unit := do
  let failures ← startEach [] containerIds
  if failures.isEmpty then .ret () else .throw { restartFailedIds := some failures }

/-- `stopContainersWithRestartOnFailure`. -/
def stopContainersWithRestartOnFailure (containerIds restartIds : List ContainerId) : Exec Unit :=
  (stopContainersOneByOne [] containerIds).tryCatch fun error => do
    let stoppedIds := error.stoppedIds.getD []
    let toRestart := restartIds.filter (· ∈ stoppedIds)
    if toRestart.isEmpty then .throw error
    else
      (startContainersOneByOne toRestart).attempt
        (fun restartError => .throw
          { stoppedIds := some stoppedIds
            restartFailedIds := some (restartError.restartFailedIds.getD toRestart) })
        fun _ => .throw error

/-! ### `resolveRecoverySourceRestartObligation` -/

/-- A statement that throws where it meets no row (`assertRecoveryCaptureAttemptUpdated`). -/
def statementUpdating (fenced : Bool) (statement : RestartStatement) : Exec Unit := do
  let updated ← awaited (.statement fenced statement)
  if updated then .ret () else .throw {}

/-- `resolveRecoverySourceRestartObligation`. -/
def resolveRecoverySourceRestartObligation (sourceLeftStopped : Bool)
    (containerIds : List ContainerId) (resolution : RestartResolution)
    (durableAfterLeaseLoss : Bool) (captureAttemptToken : Option Id) : Exec Unit :=
  let statement := .resolve sourceLeftStopped containerIds resolution captureAttemptToken
  (statementUpdating true statement).tryCatch fun fencedError =>
    if !durableAfterLeaseLoss || captureAttemptToken.isNone then .throw fencedError
    else
      (awaited (.statement false statement)).attempt (fun _ => .throw {})
        fun _ => .throw fencedError

/-! ### `runRecoveryCreate` -/

/-- The options of `runRecoveryCreate`. -/
structure CaptureOptions where
  stopFirst : Bool
  restartAfterStopFirst : Bool
  deferRestartObligationResolution : Bool
  deriving DecidableEq, Repr

/-- What `runRecoveryCreate` returns, as far as a migration reads it. -/
structure CaptureResult where
  sourceLeftStopped : Bool
  stoppedContainerIds : List ContainerId

/-- Recording the obligation and stopping the containers, before `stoppedForBackup` is set. -/
def stopForBackup (captureAttemptToken : Id) (containerIds restartContainerIds : List ContainerId) :
    Exec Unit := do
  awaited .assertActive
  statementUpdating true (.recordObligation captureAttemptToken restartContainerIds)
  (stopContainersWithRestartOnFailure containerIds restartContainerIds).tryCatch fun stopError => do
    if (stopError.restartFailedIds.getD []).isEmpty then
      resolveRecoverySourceRestartObligation false restartContainerIds .stopNotApplied true
        (some captureAttemptToken)
    .throw stopError

/-- The capture itself, once the containers are stopped or were left running. -/
def captureArtifacts (options : CaptureOptions) (captureAttemptToken : Id)
    (restartContainerIds : List ContainerId) (stoppedForBackup : Bool) : Exec CaptureResult := do
  awaited .assertActive
  awaited .work
  if stoppedForBackup && !options.restartAfterStopFirst
      && !options.deferRestartObligationResolution then
    resolveRecoverySourceRestartObligation true restartContainerIds .intentionallyLeftStopped false
      (some captureAttemptToken)
  awaited .work
  let leftStopped := stoppedForBackup && !options.restartAfterStopFirst
  .ret
    { sourceLeftStopped := leftStopped
      stoppedContainerIds := if leftStopped then restartContainerIds else [] }

/-- The `catch` of `runRecoveryCreate`: it rethrows in every case. -/
def captureFailed (options : CaptureOptions) (captureAttemptToken : Id)
    (restartContainerIds : List ContainerId) (stoppedForBackup : Bool) (thrown : Fault) :
    Exec CaptureResult :=
  if thrown.captureReconciliationRequired then .throw thrown
  else
    let restartFailedIds := thrown.restartFailedIds.getD []
    let sourceStoppedIds :=
      if !restartFailedIds.isEmpty then restartFailedIds
      else if stoppedForBackup && !options.restartAfterStopFirst then restartContainerIds
      else []
    -- the properties the handler sets on what it throws
    let withStopped := fun (fault : Fault) =>
      if sourceStoppedIds.isEmpty then fault
      else { fault with sourceStoppedIds := some sourceStoppedIds }
    let failure :=
      RestartStatement.recordCaptureFailure captureAttemptToken sourceStoppedIds restartFailedIds
    (statementUpdating true failure).attempt
      (fun failureUpdateError =>
        (awaited (.statement false failure)).attempt
          (fun _ => .throw
            { sourceStoppedIds := some sourceStoppedIds
              restartFailedIds := some restartFailedIds })
          fun _ => .throw (withStopped failureUpdateError))
      fun _ => .throw (withStopped thrown)

/-- The inner `finally` of `runRecoveryCreate`, where the containers were stopped and are to be
    started again. -/
def restartAfterCapture (captureAttemptToken : Id) (restartContainerIds : List ContainerId) :
    Exec Unit :=
  (startContainersOneByOne restartContainerIds).attempt
    (fun restartThrown =>
      let failedIds := restartThrown.restartFailedIds.getD []
      let restartFailedIds :=
        uniqueContainerIds (if failedIds.isEmpty then restartContainerIds else failedIds)
      let update := RestartStatement.recordRestartFailed captureAttemptToken restartFailedIds
      let failed : Fault :=
        { restartFailedIds := some restartFailedIds, sourceStoppedIds := some restartFailedIds }
      (statementUpdating true update).attempt
        (fun _ => (awaited (.statement false update)).attempt (fun _ => .throw failed)
          fun _ => .throw failed)
        fun _ => .throw failed)
    fun _ =>
      resolveRecoverySourceRestartObligation false restartContainerIds .restarted true
        (some captureAttemptToken)

/-- The `try … catch … finally` around the capture: what the `finally` throws replaces the outcome
    of the rest. -/
def captureStopFirst (options : CaptureOptions) (captureAttemptToken : Id)
    (containerIds restartContainerIds : List ContainerId) : Exec CaptureResult :=
  let shouldStopFirst := options.stopFirst && !restartContainerIds.isEmpty
  let failed := captureFailed options captureAttemptToken restartContainerIds
  (if shouldStopFirst then stopForBackup captureAttemptToken containerIds restartContainerIds
    else .ret ()).attempt (failed false) fun _ => do
      let outcome ← ((captureArtifacts options captureAttemptToken restartContainerIds
        shouldStopFirst).tryCatch (failed shouldStopFirst)).settled
      if shouldStopFirst && options.restartAfterStopFirst then
        restartAfterCapture captureAttemptToken restartContainerIds
      .ofExcept outcome

/-- `runRecoveryCreate`; the outer `finally`, which only removes a local directory, throws
    nothing. -/
def runRecoveryCreate (options : CaptureOptions) : Exec CaptureResult := do
  awaited .assertActive
  awaited .work
  let captureAttemptToken ← awaited .randomUuid
  awaited .work
  statementUpdating true (.beginCapture captureAttemptToken)
  let (containerIds, restartContainerIds) ← awaited .inspect
  captureStopFirst options captureAttemptToken containerIds restartContainerIds

/-! ### `runRecoveryRestoreInternal` -/

/-- `buildRecoveryRestorePlan`: the resources that are registered, and the remote mutations of the
    restore in their order, each of a registered resource. -/
structure TargetPlan where
  resources : List RestoreResource
  mutations : List RestoreMutation
  registered : ∀ mutation ∈ mutations, mutation.resource ∈ resources

/-- `markRecoveryRestoreAttemptCleanupPending(…).catch(() => undefined)`. -/
def markCleanupPendingQuietly (attemptToken : Id) (remoteOutcomeUnknown : Bool) : Exec Unit :=
  (awaited (.cleanupPending attemptToken remoteOutcomeUnknown)).tryCatch fun _ => .ret ()

/-- `cleanup()` of `createRecoveryRestoreCleanup`.  What it throws carries the compensations that
    are still to be completed. -/
def RestoreCleanup.cleanup (cleanup : RestoreCleanup) :
    Program Request Answer RestoreCleanup Unit :=
  (awaited (.cleanupIsDeferred cleanup.attemptToken)).attempt (fun _ => .throw cleanup)
    fun deferred =>
      if deferred then .throw cleanup
      else
        (awaited (.rollback cleanup.actions)).attempt (fun _ => .throw cleanup) fun actions =>
          if actions.isEmpty then
            (awaited (.cleaned cleanup.attemptToken)).attempt
              (fun _ => .throw { cleanup with actions := actions }) fun _ => .ret ()
          else
            (markCleanupPendingQuietly cleanup.attemptToken false).attempt
              (fun _ => .throw { cleanup with actions := actions })
              fun _ => .throw { cleanup with actions := actions }

/-- `mutate`: the dispatch is recorded under the lease, and a command that throws leaves the attempt
    with an unknown remote outcome. -/
def mutate (attemptToken : Id) (mutation : RestoreMutation) : Exec Bool :=
  (do
    awaited .recordDispatch
    awaited (.dispatch mutation)).tryCatch fun _ => do
      markCleanupPendingQuietly attemptToken true
      .throw { remoteOutcomeUnknown := true }

/-- The remote mutations of a restore.  What it throws carries the compensations tracked so far. -/
def restoreMutations (attemptToken : Id) (actions : List RestoreResource) :
    List RestoreMutation → Program Request Answer (Fault × List RestoreResource)
      (List RestoreResource)
  | [] => (awaited .work).attempt (fun fault => .throw (fault, actions)) fun _ => .ret actions
  | mutation :: mutations =>
    (awaited .work).attempt (fun fault => .throw (fault, actions)) fun _ =>
      let before := if mutation.trackedBefore then actions ++ [mutation.resource] else actions
      (mutate attemptToken mutation).attempt (fun fault => .throw (fault, before)) fun succeeded =>
        if succeeded then
          restoreMutations attemptToken
            (if mutation.trackedBefore then before else actions ++ [mutation.resource]) mutations
        else .throw ({}, before)

/-- The `catch` of `runRecoveryRestoreInternal`. -/
def restoreFailed (attemptToken : Id) (error : Fault) (actions : List RestoreResource) :
    Exec RestoreCleanup :=
  let cleanup : RestoreCleanup := ⟨attemptToken, actions⟩
  if error.remoteOutcomeUnknown then .throw { error with cleanupRequired := some cleanup }
  else do
    markCleanupPendingQuietly attemptToken false
    cleanup.cleanup.attempt (fun cleanup => .throw { cleanupRequired := some cleanup })
      fun _ => .throw error

/-- `finish`: the resources are observed and the attempt waits for the completion of its job. -/
def finishRestore (attemptToken : Id) (actions : List RestoreResource) :
    List RestoreResource → Exec RestoreCleanup
  | [] => do
    awaited (.awaitingDisposition attemptToken)
    .ret ⟨attemptToken, actions⟩
  | resource :: resources => do
    awaited (.observed attemptToken resource)
    finishRestore attemptToken actions resources

/-- The registration of the planned resources. -/
def registerResources (attemptToken : Id) : List RestoreResource → Exec Unit
  | [] => .ret ()
  | resource :: resources => do
    awaited (.register attemptToken resource)
    registerResources attemptToken resources

/-- `runRecoveryRestoreInternal`, under a migration.  Every `return finish(…)` of the `try` block
    returns the promise without awaiting it, so the `catch` does not see what `finish` throws. -/
def runRecoveryRestoreInternal (plan : TargetPlan) (beforeRemoteMutation : Exec Unit) :
    Exec RestoreCleanup := do
  awaited .assertActive
  awaited .work
  let attemptToken ← awaited .randomUuid
  awaited (.beginAttempt attemptToken)
  registerResources attemptToken plan.resources
  if plan.resources.any (·.1 ≠ .database) then beforeRemoteMutation
  (restoreMutations attemptToken [] plan.mutations).attempt
    (fun (error, actions) => restoreFailed attemptToken error actions)
    fun actions => finishRestore attemptToken actions plan.resources

/-! ### `runMigrationExecute` -/

/-- The `let` variables of `runMigrationExecute` that its `catch` reads. -/
structure MigrationVariables where
  sourceHadRunningContainers : Bool := false
  sourceWasStopped : Bool := false
  restartIds : List ContainerId := []
  captureConfirmedStoppedIds : List ContainerId := []

/-- `armMigrationSourceRestartObligation`. -/
def armMigrationSourceRestartObligation (migrationRunId : Id) (containerIds : List ContainerId)
    (blocked requireTargetCleanupBlocked error : Bool) : Exec Unit :=
  let containerIds := uniqueContainerIds containerIds
  if containerIds.isEmpty then .ret ()
  else statementUpdating false
    (.arm migrationRunId containerIds blocked requireTargetCleanupBlocked error)

/-- `shouldRestart` of `rollbackSource`, for a strategy other than `clone`. -/
def MigrationVariables.shouldRestart (vars : MigrationVariables) : Bool :=
  if !vars.captureConfirmedStoppedIds.isEmpty then
    vars.sourceWasStopped && !vars.restartIds.isEmpty
  else vars.sourceWasStopped && vars.sourceHadRunningContainers

/-- `rollbackSource`. -/
def rollbackSource (vars : MigrationVariables) : Exec Bool :=
  if !vars.shouldRestart then .ret false
  else do
    if !vars.restartIds.isEmpty then startContainersOneByOne vars.restartIds
    awaited .work
    .ret true

/-- The rollback of the source, and the resolution of its obligation. -/
def rollbackAndResolve (vars : MigrationVariables) : Exec Unit := do
  let restarted ← rollbackSource vars
  if restarted then
    resolveRecoverySourceRestartObligation false vars.restartIds .restarted true none

/-- What is recorded again after the rollback failed. -/
def MigrationVariables.rearmIds (vars : MigrationVariables) (rollbackError : Fault) :
    List ContainerId :=
  let failedIds := uniqueContainerIds (rollbackError.restartFailedIds.getD [])
  if failedIds.isEmpty then vars.restartIds else failedIds

/-- The failed run is recorded, and `error` is thrown. -/
def failMigration (error : Fault) : Exec Bool := do
  awaited .work
  .throw error

/-- The end of the `catch`: the source is rolled back, and the run recorded as failed. -/
def rollbackAndFail (migrationRunId : Id) (vars : MigrationVariables) (error : Fault) :
    Exec Bool :=
  if vars.sourceWasStopped then
    (rollbackAndResolve vars).attempt
      (fun rollbackError =>
        (if !vars.restartIds.isEmpty then
          armMigrationSourceRestartObligation migrationRunId (vars.rearmIds rollbackError) false
            false true
        else .ret ()).attempt (fun _ => failMigration {}) fun _ => failMigration {})
      fun _ => failMigration error
  else failMigration error

/-- The variables once the `catch` has taken up what the error says. -/
def MigrationVariables.afterError (vars : MigrationVariables) (error : Fault) :
    MigrationVariables :=
  let confirmed := uniqueContainerIds
    (vars.captureConfirmedStoppedIds ++ error.sourceStoppedIds.getD [])
  { vars with
    captureConfirmedStoppedIds := confirmed
    restartIds := uniqueContainerIds (vars.restartIds ++ confirmed)
    sourceWasStopped := vars.sourceWasStopped || !confirmed.isEmpty }

/-- The `catch` of `runMigrationExecute`: it rethrows in every case. -/
def compensate (migrationRunId : Id) (vars : MigrationVariables)
    (restoreCleanup : Option RestoreCleanup) (error : Fault) : Exec Bool :=
  let vars := vars.afterError error
  match restoreCleanup.or error.cleanupRequired with
  | none => rollbackAndFail migrationRunId vars error
  | some cleanup =>
    if vars.sourceWasStopped && vars.restartIds.isEmpty then .throw {}
    else
      -- nothing is removed from the target before the restart of the source is durably blocked
      (if vars.sourceWasStopped then
          armMigrationSourceRestartObligation migrationRunId vars.restartIds true false false
        else .ret ()).attempt (fun _ => .throw {}) fun _ =>
          cleanup.cleanup.attempt
            (fun _ =>
              (if vars.sourceWasStopped then
                  armMigrationSourceRestartObligation migrationRunId vars.restartIds true false true
                else .ret ()).attempt (fun _ => failMigration error) fun _ => failMigration error)
            fun _ =>
              (if vars.sourceWasStopped then
                  armMigrationSourceRestartObligation migrationRunId vars.restartIds false true
                    false
                else .ret ()).attempt (fun _ => .throw {}) fun _ =>
                  rollbackAndFail migrationRunId vars error

/-- `applySuccessfulCapture`. -/
def MigrationVariables.afterCapture (vars : MigrationVariables) (capture : CaptureResult) :
    MigrationVariables :=
  let confirmed :=
    uniqueContainerIds (vars.captureConfirmedStoppedIds ++ capture.stoppedContainerIds)
  { vars with
    captureConfirmedStoppedIds := confirmed
    restartIds := uniqueContainerIds (vars.restartIds ++ confirmed)
    sourceWasStopped :=
      vars.sourceWasStopped || capture.sourceLeftStopped || !confirmed.isEmpty }

/-- `runMigrationExecute` under an operation job, for `safe_move` and `warm_move`: what it returns
    is `sourceLeftStopped` of its result. -/
def runMigrationExecute (migrationRunId : Id) (plan : TargetPlan) : Exec Bool :=
  let start : Exec (List ContainerId) := do
    awaited .work
    let (_, runningIds) ← awaited .inspect
    .ret runningIds
  start.attempt (compensate migrationRunId {} none) fun runningIds =>
    let inspected : MigrationVariables :=
      { sourceHadRunningContainers := !runningIds.isEmpty, restartIds := runningIds }
    let capture : Exec CaptureResult := do
      awaited .work
      runRecoveryCreate
        { stopFirst := true, restartAfterStopFirst := false,
          deferRestartObligationResolution := true }
    capture.attempt (compensate migrationRunId inspected none) fun capture =>
      let captured := inspected.afterCapture capture
      let restore : Exec RestoreCleanup := do
        awaited .work
        runRecoveryRestoreInternal plan
          (if captured.sourceWasStopped && !captured.restartIds.isEmpty then
            armMigrationSourceRestartObligation migrationRunId captured.restartIds true false false
          else .ret ())
      restore.attempt (compensate migrationRunId captured none) fun cleanup =>
        (awaited .work).attempt (compensate migrationRunId captured (some cleanup)) fun _ =>
          .ret captured.sourceWasStopped

end ComposeBastion
