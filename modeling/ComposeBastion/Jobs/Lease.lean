import ComposeBastion.Jobs.Model
import ComposeBastion.Lib.Runs
import Mathlib.Data.List.Sort

namespace ComposeBastion

/-!
# Job leases: the statements of `services/jobs.ts`

Every function that writes `operation_jobs.status`, the lease columns or `attempt_count`, as
one atomic function of the table and of the statement's clock reading `now`.  The rest of a
transaction (linked recovery rows, GitHub bindings, audit callbacks) can only let it commit
or make it throw, so it appears as one Boolean: `committed = false` is a rollback.

* `claimNextJob`, `renewJobLease`, `withActiveJobLeaseTransaction`, `completeJob`, `failJob`,
  `recoverExpiredJobs`, `cancelQueuedJob`, `retryJob`/`requeueJob`,
  `markSelfUpdateHandoffPending` — the worker's and the API's statements;
* `finalizePendingSelfUpdate`, `failUnreconciledSelfUpdate` — the two statements of
  `reconcileSelfUpdateHandoffs` that end a handed-off self-update;
* `JobOp`, `JobSystem.step` — all of them as the steps of one system.
-/

/-! ### Constants and job classes -/

def JOB_LEASE_SECONDS : ℕ := 60

def MAX_AUTO_ATTEMPTS : ℕ := 3

/-- `AUTO_RETRY_JOB_TYPES`. -/
def autoRetryJobTypes : List JobType :=
  [.hostCheck, .hostSync, .gitTestRemote, .backupVerify, .recoveryVerify]

/-- `MANUAL_RETRY_JOB_TYPES`. -/
def manualRetryJobTypes : List JobType :=
  autoRetryJobTypes ++ [.hostConfigureRegistryTrust, .deployAnalyze, .deployExecute]

/-- `NON_IDEMPOTENT_WORKER_LOSS_RETRY_TYPES`. -/
def nonIdempotentWorkerLossRetryTypes : List JobType :=
  [.hostConfigureRegistryTrust, .deployAnalyze, .deployExecute]

/-- `JobLease`: the worker and the attempt a claim handed out. -/
structure JobLease where
  workerId : Id
  attemptCount : ℕ
  deriving DecidableEq, Repr

/-! ### Claiming and renewing -/

/-- The rows of `SELECT id … WHERE status = 'queued' ORDER BY created_at FOR UPDATE
    SKIP LOCKED`; `locked` are the rows some other transaction holds at that moment. -/
def queuedInOrder (locked : List Id) (jobs : JobTable) : List JobRow :=
  (jobs.rows.filter fun row => row.status == .queued && !locked.contains row.id).insertionSort
    fun a b => a.createdAt ≤ b.createdAt

/-- The assignments of `claimNextJob`. -/
def claimRow (now : Time) (workerId : Id) (row : JobRow) : JobRow :=
  { row with
    status := .running
    startedAt := some (row.startedAt.getD now)
    completedAt := none
    error := none
    leaseOwner := some workerId
    leaseExpiresAt := some (now + seconds JOB_LEASE_SECONDS)
    attemptCount := row.attemptCount + 1
    updatedAt := now }

theorem claimRow_id (now : Time) (workerId : Id) (row : JobRow) :
    (claimRow now workerId row).id = row.id := rfl

/-- `claimNextJob`: lease the oldest queued job to `workerId` and start its next attempt. -/
def claimNextJob (now : Time) (workerId : Id) (locked : List Id) (jobs : JobTable) :
    JobTable × Option JobRow :=
  match (queuedInOrder locked jobs).head? with
  | none => (jobs, none)
  | some next =>
    (jobs.update (fun row => row.id == next.id) (claimRow now workerId)
        (claimRow_id now workerId),
      some (claimRow now workerId next))

/-- The `WHERE` clause every lease-fenced statement ends with. -/
def leasePredicate (now : Time) (lease : JobLease) (row : JobRow) : Bool :=
  row.status == .running && row.leaseOwner == some lease.workerId
    && row.attemptCount == lease.attemptCount && row.leaseExpiresAt.any (now < ·)

/-- `WHERE id = $1` followed by `leasePredicate`. -/
def heldBy (now : Time) (id : Id) (lease : JobLease) (row : JobRow) : Bool :=
  row.id == id && leasePredicate now lease row

/-- Whether some row is selected by the fenced `WHERE` clause (`rowCount === 1`). -/
def leaseActive (now : Time) (id : Id) (lease : JobLease) (jobs : JobTable) : Bool :=
  jobs.rows.any (heldBy now id lease)

/-- `renewJobLease`. -/
def renewJobLease (now : Time) (id : Id) (lease : JobLease) (jobs : JobTable) :
    JobTable × Bool :=
  (jobs.update (heldBy now id lease)
      (fun row => { row with
        leaseExpiresAt := some (now + seconds JOB_LEASE_SECONDS), updatedAt := now })
      (fun _ => rfl),
    leaseActive now id lease jobs)

/-- What a callback of `withActiveJobLeaseTransaction` does to the leased row. -/
inductive LeaseCallback
  | throws
  | otherTables
  | recordRemoteMutationDispatch (proof : RemoteMutationProof)
  | recordRemoteMutationTerminal (operationId : Id) (terminalState : RemoteMutationTerminalState)
  deriving DecidableEq, Repr

/-- `result || jsonb_build_object('remoteMutationProof', proof)`. -/
def writeRemoteMutationProof (now : Time) (proof : RemoteMutationProof) (row : JobRow) : JobRow :=
  { row with
    result := some { row.result.getD .empty with remoteMutationProof := some proof }
    updatedAt := now }

/-- The leased row after the callback; `none` when it throws.  A terminal state is recorded
    for the operation whose dispatch is on record, or not at all. -/
def LeaseCallback.run (now : Time) (row : JobRow) : LeaseCallback → Option JobRow
  | throws => none
  | otherTables => some row
  | recordRemoteMutationDispatch proof =>
      if proof.attemptCount = row.attemptCount then some (writeRemoteMutationProof now proof row)
      else none
  | recordRemoteMutationTerminal operationId terminalState =>
      match row.result.bind (·.remoteMutationProof) with
      | some proof =>
        if proof.operationId = operationId then
          some (writeRemoteMutationProof now { proof with status := .terminal terminalState } row)
        else none
      | none => none

/-- A callback keeps everything but `result` and `updated_at`, and of `result` every key but
    the proof. -/
theorem LeaseCallback.run_fields {now : Time} {row row' : JobRow} {callback : LeaseCallback}
    (h : callback.run now row = some row') :
    row'.id = row.id ∧ row'.status = row.status ∧ row'.attemptCount = row.attemptCount
      ∧ row'.leaseOwner = row.leaseOwner ∧ row'.leaseExpiresAt = row.leaseExpiresAt
      ∧ row'.result.bind (·.remoteOutcomeReconciliation)
        = row.result.bind (·.remoteOutcomeReconciliation) := by
  have hwrite : ∀ proof, (writeRemoteMutationProof now proof row).result.bind
      (·.remoteOutcomeReconciliation) = row.result.bind (·.remoteOutcomeReconciliation) := by
    intro proof
    cases hres : row.result <;> simp [writeRemoteMutationProof, hres, JobResult.empty]
  cases callback with
  | throws => cases h
  | otherTables => cases h; exact ⟨rfl, rfl, rfl, rfl, rfl, rfl⟩
  | recordRemoteMutationDispatch proof =>
    simp only [run] at h
    split at h
    · cases h; exact ⟨rfl, rfl, rfl, rfl, rfl, hwrite proof⟩
    · cases h
  | recordRemoteMutationTerminal operationId terminalState =>
    simp only [run] at h
    split at h
    · split at h
      · cases h; exact ⟨rfl, rfl, rfl, rfl, rfl, hwrite _⟩
      · cases h
    · cases h

/-- The row a fenced callback leaves behind. -/
def LeaseCallback.write (now : Time) (callback : LeaseCallback) (row : JobRow) : JobRow :=
  (callback.run now row).getD row

theorem LeaseCallback.write_id (now : Time) (callback : LeaseCallback) (row : JobRow) :
    (callback.write now row).id = row.id := by
  unfold write
  cases h : callback.run now row with
  | none => rfl
  | some row' => exact (run_fields h).1

/-- `withActiveJobLeaseTransaction`.  The result is `false` when `JobLeaseLostError` or the
    callback's own error is thrown. -/
def withActiveJobLeaseTransaction (now : Time) (id : Id) (lease : JobLease)
    (callback : LeaseCallback) (jobs : JobTable) : JobTable × Bool :=
  (jobs.update (heldBy now id lease) (callback.write now) (callback.write_id now),
    jobs.rows.any fun row => heldBy now id lease row && (callback.run now row).isSome)

/-! ### Ending an attempt -/

/-- `completeJob`. -/
def completeJob (now : Time) (id : Id) (result : JobResult) (lease : JobLease)
    (committed : Bool) (jobs : JobTable) : JobTable × Bool :=
  if committed then
    (jobs.update (heldBy now id lease)
        (fun row => { row with
          status := .completed, result := some result, error := none, completedAt := some now
          leaseOwner := none, leaseExpiresAt := none, updatedAt := now })
        (fun _ => rfl),
      leaseActive now id lease jobs)
  else (jobs, false)

/-- `completedDeploymentProofNeedsReconciliation`. -/
def completedDeploymentProofNeedsReconciliation (row : JobRow) : Bool :=
  match row.result.bind (·.remoteMutationProof) with
  | none => false
  | some proof =>
    proof.jobId == row.id && proof.attemptCount == row.attemptCount
      && proof.status == .terminal .completed
      && ((row.type == .composeDeploy && proof.phase == "compose.deploy")
        || ([JobType.composeDeployPath, .composeWriteDeployPath, .deployExecute,
              .gitCloneDeploy].contains row.type
          && proof.phase == "compose.deployPath.up"))

/-- The message `failJob` stores for the row it failed. -/
def failureMessage (sanitizedMessage : String) (row : JobRow) : String :=
  if !githubDeploymentFailureNeedsReconciliation sanitizedMessage
      && completedDeploymentProofNeedsReconciliation row then
    "REMOTE_OUTCOME_UNKNOWN: The remote Compose deployment completed, but local finalization failed: "
      ++ sanitizedMessage
  else sanitizedMessage

/-- The assignments that end an attempt with `status = 'failed'`. -/
def failRow (now : Time) (message : String) (row : JobRow) : JobRow :=
  { row with
    status := .failed, error := some message, completedAt := some now
    leaseOwner := none, leaseExpiresAt := none, updatedAt := now }

theorem failRow_id (now : Time) (message : String) (row : JobRow) :
    (failRow now message row).id = row.id := rfl

/-- `failJob`, for an error whose sanitized text is `message`. -/
def failJob (now : Time) (id : Id) (message : String) (lease : JobLease) (committed : Bool)
    (jobs : JobTable) : JobTable × Bool :=
  if committed then
    (jobs.update (heldBy now id lease)
        (fun row => failRow now (failureMessage message row) row)
        (fun row => failRow_id now (failureMessage message row) row),
      leaseActive now id lease jobs)
  else (jobs, false)

/-! ### Recovering expired attempts -/

/-- `NOT (type = 'system.self_update' AND result @> '{"handoffPending":true}')` is *true*: for
    a self-update with `result IS NULL` the condition is unknown, and the row is skipped. -/
def notHandedOff (row : JobRow) : Bool :=
  row.type != .systemSelfUpdate || row.result.any (·.handoffPending != some true)

/-- The `WHERE` clause of `recoverExpiredJobs`. -/
def leaseExpired (now : Time) (row : JobRow) : Bool :=
  row.status == .running && notHandedOff row
    && (row.leaseExpiresAt.any (· ≤ now)
      || (row.leaseOwner == none && row.leaseExpiresAt == none
        && row.startedAt.getD row.updatedAt ≤ now - seconds 120))

/-- `ORDER BY lease_expires_at ASC, created_at ASC` (nulls last). -/
def expiresBefore (a b : JobRow) : Bool :=
  match a.leaseExpiresAt, b.leaseExpiresAt with
  | some x, some y => x < y || (x == y && a.createdAt ≤ b.createdAt)
  | some _, none => true
  | none, some _ => false
  | none, none => a.createdAt ≤ b.createdAt

/-- The rows one pass of `recoverExpiredJobs` locks. -/
def expiredJobs (now : Time) (locked : List Id) (jobs : JobTable) : List JobRow :=
  ((jobs.rows.filter fun row => leaseExpired now row && !locked.contains row.id).insertionSort
    fun a b => expiresBefore a b).take 100

/-- The message `recoverExpiredJobs` stores. -/
def workerLostMessage (row : JobRow) : String :=
  "WORKER_LOST: Worker lease expired during attempt " ++ toString row.attemptCount

/-- The assignments `recoverExpiredJobs` makes to one expired row. -/
def recoverRow (now : Time) (row : JobRow) : JobRow :=
  if autoRetryJobTypes.contains row.type && row.attemptCount < MAX_AUTO_ATTEMPTS then
    { row with
      status := .queued, startedAt := none, leaseOwner := none, leaseExpiresAt := none
      error := some (workerLostMessage row), updatedAt := now }
  else failRow now (workerLostMessage row) row

theorem recoverRow_id (now : Time) (row : JobRow) : (recoverRow now row).id = row.id := by
  unfold recoverRow; split <;> rfl

/-- `recoverExpiredJobs`.  The rows were locked by the `SELECT`, so each `UPDATE … WHERE id
    AND status = 'running'` of the loop meets the row as it was read. -/
def recoverExpiredJobs (now : Time) (locked : List Id) (committed : Bool) (jobs : JobTable) :
    JobTable :=
  if committed then
    jobs.update
      (fun row => ((expiredJobs now locked jobs).map JobRow.id).contains row.id
        && row.status == .running)
      (recoverRow now) (recoverRow_id now)
  else jobs

/-! ### Cancelling and retrying -/

/-- The assignments of `cancelQueuedJob`. -/
def cancelRow (now : Time) (row : JobRow) : JobRow :=
  { row with
    status := .canceled, error := some "Canceled before start", completedAt := some now
    leaseOwner := none, leaseExpiresAt := none, updatedAt := now }

theorem cancelRow_id (now : Time) (row : JobRow) : (cancelRow now row).id = row.id := rfl

/-- `cancelQueuedJob`. -/
def cancelQueuedJob (now : Time) (id : Id) (committed : Bool) (jobs : JobTable) : JobTable :=
  if committed then
    jobs.update (fun row => row.id == id && row.status == .queued) (cancelRow now)
      (cancelRow_id now)
  else jobs

/-- `canRetryJob`. -/
def canRetryJob (row : JobRow) : Bool :=
  (row.status == .failed || row.status == .canceled) && row.hostId.isSome
    && manualRetryJobTypes.contains row.type && row.attemptCount < MAX_AUTO_ATTEMPTS
    && !(nonIdempotentWorkerLossRetryTypes.contains row.type
      && githubDeploymentFailureNeedsReconciliation (row.error.getD ""))

/-- The assignments of `requeueJob`. -/
def requeueRow (now : Time) (row : JobRow) : JobRow :=
  { row with
    status := .queued, result := none, error := none, startedAt := none, completedAt := none
    leaseOwner := none, leaseExpiresAt := none, updatedAt := now }

theorem requeueRow_id (now : Time) (row : JobRow) : (requeueRow now row).id = row.id := rfl

/-- `requeueJob`. -/
def requeueJob (now : Time) (id : Id) (jobs : JobTable) : JobTable :=
  jobs.update
    (fun row => row.id == id && (row.status == .failed || row.status == .canceled)
      && row.attemptCount < MAX_AUTO_ATTEMPTS)
    (requeueRow now) (requeueRow_id now)

/-- `retryJob`.  `admitted` is the outcome of the checks on other rows (host, registry,
    analysis, single flight); the row itself is re-read under its lock. -/
def retryJob (now : Time) (id : Id) (admitted : Bool) (jobs : JobTable) : JobTable :=
  if (jobs.find id).any canRetryJob && admitted then requeueJob now id jobs else jobs

/-! ### Self-update handoffs -/

/-- `markSelfUpdateHandoffPending`: the lease is given up, the job stays `running`. -/
def markSelfUpdateHandoffPending (now : Time) (id : Id) (lease : JobLease)
    (jobs : JobTable) : JobTable × Bool :=
  (jobs.update (fun row => heldBy now id lease row && row.type == .systemSelfUpdate)
      (fun row => { row with
        result := some { JobResult.empty with handoffPending := some true }, error := none
        leaseOwner := none, leaseExpiresAt := none, updatedAt := now })
      (fun _ => rfl),
    jobs.rows.any fun row => heldBy now id lease row && row.type == .systemSelfUpdate)

/-- `WHERE id = $1 AND type = 'system.self_update' AND status = 'running' AND
    result ->> 'handoffPending' = 'true'`. -/
def handoffPendingRow (row : JobRow) : Bool :=
  row.type == .systemSelfUpdate && row.status == .running
    && row.result.any (·.handoffPending == some true)

/-- The assignments that end a handed-off self-update. -/
def endHandoff (now : Time) (status : JobStatus) (error : Option String) (row : JobRow) :
    JobRow :=
  { row with
    status := status
    result := some { row.result.getD .empty with handoffPending := some false }
    error := error, completedAt := some now
    leaseOwner := none, leaseExpiresAt := none, updatedAt := now }

theorem endHandoff_id (now : Time) (status : JobStatus) (error : Option String) (row : JobRow) :
    (endHandoff now status error row).id = row.id := rfl

/-- `finalizePendingSelfUpdate`, for an outcome whose failure text is `error` (`none` when the
    update passed). -/
def finalizePendingSelfUpdate (now : Time) (id : Id) (error : Option String)
    (jobs : JobTable) : JobTable :=
  jobs.update (fun row => row.id == id && handoffPendingRow row)
    (endHandoff now (if error.isNone then .completed else .failed) error)
    (endHandoff_id now _ error)

/-- `failUnreconciledSelfUpdate`. -/
def failUnreconciledSelfUpdate (now : Time) (id : Id) (message : String) (jobs : JobTable) :
    JobTable :=
  jobs.update (fun row => row.id == id && handoffPendingRow row)
    (endHandoff now .failed (some message)) (endHandoff_id now _ _)

/-! ### The system of all statements -/

/-- The row `jobInsert` creates. -/
def jobInsert (now : Time) (id : Id) (action : DockerActionRequest)
    (idempotencyKey : Option String) : JobRow where
  id := id
  hostId := some (uuidText action.hostId)
  payload := action.payload
  recoveryScopes := none
  status := .queued
  result := none
  error := none
  attemptCount := 0
  leaseOwner := none
  leaseExpiresAt := none
  idempotencyKey := idempotencyKey
  createdAt := now
  updatedAt := now
  startedAt := none
  completedAt := none

/-- One step of the system: a statement or transaction of some worker or API caller, or the
    passing of time. -/
inductive JobOp
  | advanceClock (elapsed : ℕ)
  | enqueue (id : Id) (action : DockerActionRequest) (idempotencyKey : Option String)
  | claimNextJob (workerId : Id) (locked : List Id)
  | renewJobLease (id : Id) (lease : JobLease)
  | withActiveJobLeaseTransaction (id : Id) (lease : JobLease) (callback : LeaseCallback)
  | completeJob (id : Id) (result : JobResult) (lease : JobLease) (committed : Bool)
  | failJob (id : Id) (message : String) (lease : JobLease) (committed : Bool)
  | recoverExpiredJobs (locked : List Id) (committed : Bool)
  | cancelQueuedJob (id : Id) (committed : Bool)
  | retryJob (id : Id) (admitted : Bool)
  | markSelfUpdateHandoffPending (id : Id) (lease : JobLease)
  | finalizePendingSelfUpdate (id : Id) (error : Option String)
  | failUnreconciledSelfUpdate (id : Id) (message : String)

/-- The jobs table and the database clock. -/
structure JobSystem where
  jobs : JobTable
  clock : Time

/-- The table after one operation at clock reading `now`. -/
def JobOp.apply (now : Time) (jobs : JobTable) : JobOp → JobTable
  | advanceClock _ => jobs
  | enqueue id action key => jobs.insert (jobInsert now id action key)
  | claimNextJob workerId locked => (ComposeBastion.claimNextJob now workerId locked jobs).1
  | renewJobLease id lease => (ComposeBastion.renewJobLease now id lease jobs).1
  | withActiveJobLeaseTransaction id lease callback =>
      (ComposeBastion.withActiveJobLeaseTransaction now id lease callback jobs).1
  | completeJob id result lease committed =>
      (ComposeBastion.completeJob now id result lease committed jobs).1
  | failJob id message lease committed =>
      (ComposeBastion.failJob now id message lease committed jobs).1
  | recoverExpiredJobs locked committed =>
      ComposeBastion.recoverExpiredJobs now locked committed jobs
  | cancelQueuedJob id committed => ComposeBastion.cancelQueuedJob now id committed jobs
  | retryJob id admitted => ComposeBastion.retryJob now id admitted jobs
  | markSelfUpdateHandoffPending id lease =>
      (ComposeBastion.markSelfUpdateHandoffPending now id lease jobs).1
  | finalizePendingSelfUpdate id error =>
      ComposeBastion.finalizePendingSelfUpdate now id error jobs
  | failUnreconciledSelfUpdate id message =>
      ComposeBastion.failUnreconciledSelfUpdate now id message jobs

/-- The clock after one operation. -/
def JobOp.clockAfter (now : Time) : JobOp → Time
  | advanceClock elapsed => now + elapsed
  | _ => now

/-- One step of the system. -/
def JobSystem.step (s : JobSystem) (op : JobOp) : JobSystem :=
  ⟨op.apply s.clock s.jobs, op.clockAfter s.clock⟩

end ComposeBastion
