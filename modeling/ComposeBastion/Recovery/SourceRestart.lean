import ComposeBastion.Recovery.RestoreAttempts

namespace ComposeBastion

/-!
# The restart obligation of a recovery point

A stop-first capture, and a migration after it, record in `recovery_points.metadata` which source
containers have to be started again.  The statements that read and write that record are spread over
`services/recoveryCapture.ts`, `services/migrationExecute.ts`,
`services/recoveryRestartReconciliation.ts`, `services/recoveryRestoreAttempts.ts` and
`services/jobs.ts`; all of them address one point by its id.

* `RestartRow` — the row of one recovery point;
* `obligationIds`, `pendingIds` — what a reconciler reads, and what still has to be started;
* `RestartStatement` — the statements of the executor that owns the point;
* `claimRestart`, `renewRestartClaim`, `recordRestartSuccess`, `recordRestartFailure` — the
  statements of `reconcileRecoverySourceRestartObligations`;
* `releaseSourceRestartAfterCleanup`, `finalizeLinkedMigrationSuccess` — the end of a migration.
-/

/-- The id of a container that was inspected: `docker inspect ''` fails. -/
abbrev ContainerId := { text : String // text ≠ "" }

/-- `sourceRestartReconciliationState`. -/
inductive RestartState
  | pending | blockedTargetCleanup | running | failed | completed
  deriving DecidableEq, Repr

/-- `sourceRestartResolution`. -/
inductive RestartResolution
  | workerLossRestarted | restarted | intentionallyLeftStopped | stopNotApplied
  deriving DecidableEq, Repr

/-- A row of `recovery_points`: the columns and metadata fields of its restart obligation. -/
structure RestartRow where
  migrationRunId : Option Id
  deletionClaimToken : Option Id
  captureAttemptToken : Option Id
  sourceRestartPending : Bool
  sourceRestartContainerIds : Option (List ContainerId)
  sourceStoppedIds : Option (List ContainerId)
  stoppedContainerIds : Option (List ContainerId)
  restartFailedIds : List ContainerId
  sourceLeftStopped : Bool
  reconciliationState : Option RestartState
  reconciliationToken : Option Id
  reconciliationStartedAt : Option Time
  targetCleanupBlocked : Bool
  resolution : Option RestartResolution
  deriving DecidableEq, Repr

/-- `[...new Set(ids)]`, which is `stringArray` and `uniqueContainerIds` on non-empty strings. -/
def uniqueContainerIds (ids : List ContainerId) : List ContainerId := ids.eraseDups

@[simp] theorem mem_uniqueContainerIds {id : ContainerId} {ids : List ContainerId} :
    id ∈ uniqueContainerIds ids ↔ id ∈ ids := List.mem_eraseDups

namespace RestartRow

/-- The ids a reconciler reads from the row when it claims it. -/
def obligationIds (row : RestartRow) : List ContainerId :=
  uniqueContainerIds
    ((row.sourceRestartContainerIds.or (row.sourceStoppedIds.or row.stoppedContainerIds)).getD [])

/-- The containers that still have to be started. -/
def pendingIds (row : RestartRow) : List ContainerId :=
  if row.sourceRestartPending then row.obligationIds else []

/-- The restart waits for the cleanup of the migration target. -/
def blocked (row : RestartRow) : Bool :=
  row.sourceRestartPending && row.reconciliationState = some .blockedTargetCleanup
    && row.targetCleanupBlocked

/-- A point as it is inserted, of a migration or of its own. -/
def fresh (migrationRunId : Option Id) : RestartRow where
  migrationRunId := migrationRunId
  deletionClaimToken := none
  captureAttemptToken := none
  sourceRestartPending := false
  sourceRestartContainerIds := none
  sourceStoppedIds := none
  stoppedContainerIds := none
  restartFailedIds := []
  sourceLeftStopped := false
  reconciliationState := none
  reconciliationToken := none
  reconciliationStartedAt := none
  targetCleanupBlocked := false
  resolution := none

end RestartRow

/-! ### The statements of the executor -/

/-- What an executor writes to its point. -/
inductive RestartStatement
  | beginCapture (captureAttemptToken : Id)
  | recordObligation (captureAttemptToken : Id) (containerIds : List ContainerId)
  | resolve (sourceLeftStopped : Bool) (containerIds : List ContainerId)
      (resolution : RestartResolution) (captureAttemptToken : Option Id)
  | recordCaptureFailure (captureAttemptToken : Id) (sourceStoppedIds restartFailedIds :
      List ContainerId)
  | recordRestartFailed (captureAttemptToken : Id) (restartFailedIds : List ContainerId)
  | arm (migrationRunId : Id) (containerIds : List ContainerId) (blocked : Bool)
      (requireTargetCleanupBlocked : Bool) (error : Bool)
  deriving DecidableEq, Repr

namespace RestartStatement

/-- The `WHERE` of a statement. -/
def guard (row : RestartRow) : RestartStatement → Bool
  | beginCapture _ => row.deletionClaimToken.isNone
  | recordObligation token _ | recordCaptureFailure token _ _ | recordRestartFailed token _ =>
    row.captureAttemptToken = some token
  | resolve _ _ _ token => token.all fun token => row.captureAttemptToken = some token
  | arm migrationRunId _ blocked requireTargetCleanupBlocked _ =>
    row.migrationRunId = some migrationRunId
      && (!blocked || row.reconciliationState ≠ some .running)
      && (!requireTargetCleanupBlocked || row.blocked)

/-- The `SET` of a statement. -/
def assign (row : RestartRow) : RestartStatement → RestartRow
  | beginCapture token => { row with captureAttemptToken := some token }
  | recordObligation _ containerIds =>
    { row with
      sourceRestartPending := true
      sourceRestartContainerIds := some containerIds
      reconciliationState := some .pending
      sourceLeftStopped := true
      sourceStoppedIds := some containerIds }
  | resolve sourceLeftStopped containerIds resolution _ =>
    { row with
      sourceRestartPending := false
      sourceRestartContainerIds := some []
      sourceLeftStopped := sourceLeftStopped
      sourceStoppedIds := some (if sourceLeftStopped then uniqueContainerIds containerIds else [])
      stoppedContainerIds :=
        some (if sourceLeftStopped then uniqueContainerIds containerIds else [])
      restartFailedIds := []
      reconciliationState := some .completed
      reconciliationToken := none
      reconciliationStartedAt := none
      resolution := some resolution }
  | recordCaptureFailure _ [] _ => row
  | recordCaptureFailure _ (id :: ids) restartFailedIds =>
    { row with
      sourceLeftStopped := true
      sourceStoppedIds := some (id :: ids)
      restartFailedIds := restartFailedIds }
  | recordRestartFailed _ restartFailedIds =>
    { row with
      sourceLeftStopped := !restartFailedIds.isEmpty
      sourceStoppedIds := some restartFailedIds
      restartFailedIds := restartFailedIds }
  | arm _ containerIds blocked _ error =>
    { row with
      sourceRestartPending := true
      sourceRestartContainerIds := some containerIds
      sourceLeftStopped := true
      sourceStoppedIds := some containerIds
      stoppedContainerIds := some containerIds
      restartFailedIds := if !blocked && error then containerIds else []
      reconciliationState := some (if blocked then .blockedTargetCleanup else .pending)
      reconciliationToken := none
      reconciliationStartedAt := none
      targetCleanupBlocked := blocked
      resolution := none }

/-- The row after a statement, when its `WHERE` meets it. -/
def apply (row : RestartRow) (statement : RestartStatement) : Option RestartRow :=
  if statement.guard row then some (statement.assign row) else none

theorem apply_eq_some {row row' : RestartRow} {statement : RestartStatement}
    (h : statement.apply row = some row') :
    statement.guard row = true ∧ row' = statement.assign row := by
  unfold apply at h
  split at h
  · rename_i hguard
    exact ⟨hguard, (Option.some.inj h).symm⟩
  · cases h

/-- The ids a statement leaves to be started. -/
def records : RestartStatement → List ContainerId
  | recordObligation _ containerIds | arm _ containerIds _ _ _ => containerIds
  | beginCapture _ | resolve _ _ _ _ | recordCaptureFailure _ _ _ | recordRestartFailed _ _ => []

end RestartStatement

/-! ### The reconciler of restart obligations -/

/-- `RECOVERY_SOURCE_RESTART_CLAIM_STALE_MS`. -/
def recoverySourceRestartClaimStale : Time := seconds (2 * 60)

/-- The `WHERE` of `claimRecoverySourceRestartObligations`; `jobActive` says whether a job of the
    point or of its migration is queued or running. -/
def RestartRow.restartClaimable (row : RestartRow) (jobActive : Bool) (now : Time) : Bool :=
  row.sourceRestartPending && row.reconciliationState ≠ some .blockedTargetCleanup
    && !row.targetCleanupBlocked
    && (row.reconciliationState ≠ some .running
      || row.reconciliationStartedAt.all (· < now - recoverySourceRestartClaimStale))
    && !jobActive

/-- The `UPDATE` of a claim. -/
def RestartRow.claimRestart (row : RestartRow) (token : Id) (now : Time) : RestartRow :=
  { row with
    reconciliationState := some .running
    reconciliationToken := some token
    reconciliationStartedAt := some now }

/-- `RestartObligation`, as far as it is not the point itself. -/
structure SourceRestartObligation where
  containerIds : List ContainerId
  token : Id
  deriving DecidableEq, Repr

/-- `renewRestartClaim`. -/
def RestartRow.renewRestartClaim (row : RestartRow) (obligation : SourceRestartObligation)
    (now : Time) : RestartRow :=
  if row.reconciliationToken = some obligation.token && row.sourceRestartPending then
    { row with reconciliationStartedAt := some now }
  else row

/-- `recordRestartSuccess`. -/
def RestartRow.recordRestartSuccess (row : RestartRow) (obligation : SourceRestartObligation) :
    RestartRow :=
  if row.reconciliationToken = some obligation.token then
    { row with
      sourceRestartPending := false
      sourceRestartContainerIds := some []
      sourceLeftStopped := false
      sourceStoppedIds := some []
      stoppedContainerIds := some []
      restartFailedIds := []
      reconciliationState := some .completed
      reconciliationToken := none
      resolution := some .workerLossRestarted }
  else row

/-- `restartFailedIds.length ? restartFailedIds : obligation.containerIds`. -/
def SourceRestartObligation.unresolvedIds (obligation : SourceRestartObligation)
    (restartFailedIds : List ContainerId) : List ContainerId :=
  if (uniqueContainerIds restartFailedIds).isEmpty then obligation.containerIds
  else uniqueContainerIds restartFailedIds

/-- `recordRestartFailure`. -/
def RestartRow.recordRestartFailure (row : RestartRow) (obligation : SourceRestartObligation)
    (restartFailedIds : List ContainerId) : RestartRow :=
  if row.reconciliationToken = some obligation.token then
    { row with
      sourceRestartPending := true
      sourceRestartContainerIds := some (obligation.unresolvedIds restartFailedIds)
      sourceLeftStopped := true
      sourceStoppedIds := some (obligation.unresolvedIds restartFailedIds)
      restartFailedIds := obligation.unresolvedIds restartFailedIds
      reconciliationState := some .failed
      reconciliationToken := none }
  else row

/-! ### The end of a migration -/

/-- `releaseSourceRestartAfterCleanup`. -/
def RestartRow.releaseSourceRestartAfterCleanup (row : RestartRow) (migrationRunId : Option Id) :
    RestartRow :=
  if migrationRunId.isSome && row.migrationRunId = migrationRunId && row.blocked then
    { row with
      reconciliationState := some .pending
      reconciliationToken := none
      reconciliationStartedAt := none
      targetCleanupBlocked := false }
  else row

/-- `finalizeLinkedMigrationSuccess`, of the obligation of the final point: an error when the source
    was left stopped without an obligation that is blocked, or has one and was not. -/
def RestartRow.finalizeLinkedMigrationSuccess (row : RestartRow) (sourceLeftStopped : Bool) :
    Option RestartRow :=
  if !sourceLeftStopped then (if row.sourceRestartPending then none else some row)
  else if row.blocked && row.sourceRestartContainerIds.any (· ≠ []) then
    some { row with
      sourceRestartPending := false
      sourceRestartContainerIds := some []
      sourceLeftStopped := true
      sourceStoppedIds := some (row.sourceRestartContainerIds.getD [])
      stoppedContainerIds := some (row.sourceRestartContainerIds.getD [])
      restartFailedIds := []
      reconciliationState := some .completed
      reconciliationToken := none
      reconciliationStartedAt := none
      targetCleanupBlocked := false
      resolution := some .intentionallyLeftStopped }
  else none

end ComposeBastion
