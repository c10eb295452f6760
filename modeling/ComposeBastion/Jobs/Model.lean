import ComposeBastion.Jobs.Action
import ComposeBastion.Js.Text
import ComposeBastion.Lib.Table
import Mathlib.Data.Int.Basic

namespace ComposeBastion

/-!
# The `operation_jobs` table

`JobRow` is one row of `operation_jobs` (`infra/postgres/001_init.sql`, `006`, `029`), with
the columns that some modelled statement reads.  The `jsonb` column `result` becomes a record
of the keys the services look up in it; a key that is absent is `none`.
-/

/-- A `timestamptz`, in microseconds. -/
abbrev Time := ℤ

/-- `n * interval '1 second'`. -/
def seconds (n : ℕ) : Time := n * 1000000

/-- How PostgreSQL prints the `uuid` a caller spelled `id`: in lower case. -/
def uuidText (id : Id) : Id := String.ofList (id.toList.map Char.toLower)

/-- `operation_jobs.status`. -/
inductive JobStatus
  | queued | running | completed | failed | canceled
  deriving DecidableEq, Repr

/-- The statuses no worker is going to change. -/
def JobStatus.terminal : JobStatus → Bool
  | .completed | .failed | .canceled => true
  | .queued | .running => false

/-- `status IN ('queued', 'running')`. -/
def JobStatus.active : JobStatus → Bool
  | .queued | .running => true
  | .completed | .failed | .canceled => false

/-! ### The keys of `result` -/

/-- `result.remoteOutcomeReconciliation.status`. -/
inductive ReconciliationStatus
  | inspecting | pending | reconciled
  deriving DecidableEq, Repr

/-- `result.remoteOutcomeReconciliation`. -/
structure Reconciliation where
  status : ReconciliationStatus
  claimToken : Option Id
  startedAt : Option Time
  heartbeatAt : Option Time
  attemptCount : ℕ
  nextAttemptAt : Option Time
  deriving DecidableEq, Repr

/-- `RemoteMutationTerminalState`. -/
inductive RemoteMutationTerminalState
  | completed | failed | timedOut
  deriving DecidableEq, Repr

/-- `RemoteMutationProof.status`, with the terminal state it carries when it is terminal. -/
inductive RemoteMutationProofStatus
  | dispatched
  | terminal (state : RemoteMutationTerminalState)
  deriving DecidableEq, Repr

/-- `result.remoteMutationProof`. -/
structure RemoteMutationProof where
  operationId : Id
  jobId : Id
  attemptCount : ℕ
  phase : String
  status : RemoteMutationProofStatus
  deriving DecidableEq, Repr

/-- The keys of `result` that the services read. -/
structure JobResult where
  remoteOutcomeReconciliation : Option Reconciliation
  remoteMutationProof : Option RemoteMutationProof
  handoffPending : Option Bool
  deriving DecidableEq, Repr

/-- `'{}'::jsonb`. -/
def JobResult.empty : JobResult := ⟨none, none, none⟩

/-! ### Rows -/

/-- A `DockerMutationTarget`'s kind. -/
inductive MutationTargetKind
  | hostPath | composeProject | container | image | network | volume | registryAuth
  deriving DecidableEq, Repr

/-- `DockerMutationTarget`. -/
structure DockerMutationTarget where
  hostId : Id
  kind : MutationTargetKind
  value : String
  deriving DecidableEq, Repr

/-- `DockerMutationScope`. -/
structure DockerMutationScope where
  type : JobType
  hostIds : List Id
  targets : List DockerMutationTarget
  deriving DecidableEq, Repr

/-- `StoredRecoveryDockerScopes`: the payload key `_recoveryDockerMutationScopes`. -/
structure StoredRecoveryDockerScopes where
  source : List DockerMutationScope
  target : List DockerMutationScope
  deriving DecidableEq, Repr

/-- A row of `operation_jobs`. -/
structure JobRow where
  id : Id
  hostId : Option Id
  payload : ActionPayload
  recoveryScopes : Option StoredRecoveryDockerScopes
  status : JobStatus
  result : Option JobResult
  error : Option String
  attemptCount : ℕ
  leaseOwner : Option Id
  leaseExpiresAt : Option Time
  idempotencyKey : Option String
  createdAt : Time
  updatedAt : Time
  startedAt : Option Time
  completedAt : Option Time
  deriving DecidableEq, Repr

/-- `operation_jobs.type`. -/
def JobRow.type (row : JobRow) : JobType := row.payload.type

/-- `operation_jobs`, keyed by `id`. -/
abbrev JobTable := Table JobRow JobRow.id

/-! ### Ambiguous remote outcomes -/

/-- `githubDeploymentFailureNeedsReconciliation`: the message prefixes of an ambiguous
    remote outcome. -/
def githubDeploymentFailureNeedsReconciliation (message : String) : Bool :=
  Js.startsWith message "WORKER_LOST" || Js.startsWith message "REMOTE_OUTCOME_UNKNOWN:"

/-- `LIKE '<pattern>%'`: in the pattern `_` stands for any character. -/
def likePrefix : List Char → List Char → Bool
  | [], _ => true
  | p :: ps, c :: cs => (p == '_' || p == c) && likePrefix ps cs
  | _ :: _, [] => false

/-- `error LIKE 'WORKER_LOST%' OR error LIKE 'REMOTE_OUTCOME_UNKNOWN:%'`. -/
def ambiguousError (error : Option String) : Bool :=
  error.any fun text => likePrefix "WORKER_LOST".toList text.toList
    || likePrefix "REMOTE_OUTCOME_UNKNOWN:".toList text.toList

/-- `isAmbiguousRemoteOutcome`. -/
def isAmbiguousRemoteOutcome (row : JobRow) : Bool :=
  row.status == .failed && githubDeploymentFailureNeedsReconciliation (row.error.getD "")

/-- `hasReconciledRemoteOutcome`. -/
def hasReconciledRemoteOutcome (result : Option JobResult) : Bool :=
  (result.bind (·.remoteOutcomeReconciliation)).any (·.status == .reconciled)

/-- `isUnreconciledRemoteOutcome`. -/
def isUnreconciledRemoteOutcome (row : JobRow) : Bool :=
  isAmbiguousRemoteOutcome row && !hasReconciledRemoteOutcome row.result

end ComposeBastion
