import ComposeBastion.Jobs.SingleFlight

namespace ComposeBastion

open Runs

/-!
# The admission system

Direct enqueues and retries, admissions of recovery operations, and the statements of the job
system, as the steps of one system over a fixed inventory.

* `RecoveryOperation` — the operations that go through `lockRecoveryOperationAdmission`, with
  the job row and the Docker scopes each caller builds;
* `AdmissionState.step` — one step;
* `RowFacts` — what is true of every row in every reachable state: host ids in the spelling of
  the database, and stored scopes on hosts the row can be found by.
-/

section

variable [Js.CaseMapping]

/-! ### Recovery operations -/

/-- Where a migration restores to: a reviewed restore plan, or every resource of the host. -/
inductive MigrationTarget
  | plan (plan : RestorePlan)
  | conservative (projectName : String)
  deriving DecidableEq, Repr

/-- The callers of `lockRecoveryOperationAdmission`.  The hosts of a migration are those of a
    stored plan, the others are spelled as the caller spelled them. -/
inductive RecoveryOperation
  | capture (hostId recoveryPointId : Id) (identity : RecoveryAppIdentity)
      (context : RecoverySourceContext)
  | restore (hostId recoveryPointId : Id) (drill : Bool) (plan : RestorePlan)
  | migration (sourceHostId targetHostId migrationRunId : Id) (identity : RecoveryAppIdentity)
      (context : RecoverySourceContext) (target : MigrationTarget)
  | volumeBackup (hostId backupId : Id) (volumeName : String)
  | hostPathBackup (hostId backupId : Id) (sourcePath : String)
  | volumeClone (hostId targetHostId backupId : Id) (sourceVolumeName targetVolumeName : String)
  | volumeRestore (hostId backupId : Id) (targetVolumeName : String)
  | hostPathRestore (hostId backupId : Id) (targetPath : String)
  | backupDrill (hostId backupId : Id) (volume : Bool) (target : String)
  deriving DecidableEq, Repr

namespace RecoveryOperation

/-- The `hostId` of the job. -/
def hostId : RecoveryOperation → Id
  | capture host _ _ _ => host
  | restore host _ _ _ => host
  | migration source _ _ _ _ _ => source
  | volumeBackup host _ _ => host
  | hostPathBackup host _ _ => host
  | volumeClone host _ _ _ _ => host
  | volumeRestore host _ _ => host
  | hostPathRestore host _ _ => host
  | backupDrill host _ _ _ => host

/-- The payload of the job. -/
def payload : RecoveryOperation → ActionPayload
  | capture _ point _ _ => .recoveryCreate point
  | restore _ point drill _ => .recoveryRestore point drill
  | migration _ _ run _ _ _ => .migrationExecute run
  | volumeBackup _ backup volume => .volumeBackup backup volume
  | hostPathBackup _ backup path => .hostPathBackup backup path
  | volumeClone _ target backup source volume => .volumeClone (some backup) target source volume
  | volumeRestore _ backup volume => .volumeRestore backup volume
  | hostPathRestore _ backup path => .hostPathRestore backup path
  | backupDrill _ backup _ _ => .backupDrill backup

/-- `sourceDockerScopes`. -/
def source : RecoveryOperation → List DockerMutationScope
  | capture host _ identity context =>
      [buildRecoverySourceDockerMutationScope host identity context]
  | migration source _ _ identity context _ =>
      [buildRecoverySourceDockerMutationScope (uuidText source) identity context]
  | volumeBackup host _ volume => [backupDockerMutationScope host true volume]
  | hostPathBackup host _ path => [backupDockerMutationScope host false path]
  | volumeClone host _ _ volume _ => [backupDockerMutationScope host true volume]
  | _ => []

/-- `targetDockerScopes`. -/
def target : RecoveryOperation → List DockerMutationScope
  | restore host _ _ plan => [plan.dockerMutationScope host]
  | migration _ target _ _ _ (.plan plan) => [plan.dockerMutationScope (uuidText target)]
  | migration _ target _ _ _ (.conservative projectName) =>
      [conservativeMigrationTargetDockerScope (uuidText target) projectName]
  | volumeClone _ target _ _ volume => [backupDockerMutationScope target true volume]
  | volumeRestore host _ volume => [backupDockerMutationScope host true volume]
  | hostPathRestore host _ path => [backupDockerMutationScope host false path]
  | backupDrill host _ volume target => [backupDockerMutationScope host volume target]
  | _ => []

/-- The `migration_runs` row the admission inserts. -/
def migrationRun : RecoveryOperation → Option MigrationRun
  | migration source target run _ _ _ => some ⟨run, uuidText source, uuidText target⟩
  | _ => none

end RecoveryOperation

/-- A parsed request for a recovery operation: its host ids are UUIDs. -/
structure RecoveryRequest where
  operation : RecoveryOperation
  hostId_isUuid : isUuid operation.hostId = true
  targetHostId_isUuid : operation.payload.targetHostId.all isUuid = true

/-- The job of a recovery request. -/
def RecoveryRequest.action (request : RecoveryRequest) : DockerActionRequest :=
  ⟨request.operation.hostId, request.operation.payload, request.hostId_isUuid,
    request.targetHostId_isUuid⟩

/-- The job row of an admitted recovery operation, with its scopes persisted. -/
def recoveryJobRow (now : Time) (id : Id) (request : RecoveryRequest) : JobRow :=
  { jobInsert now id request.action none with
    recoveryScopes :=
      some (persistedRecoveryScopes request.operation.source request.operation.target) }

/-! ### Steps -/

variable (inventory : Inventory)

/-- The transaction of a recovery operation.  Its job has no single-flight scope, so
    `enqueueJobInTransaction` only checks the hosts. -/
def admitRecovery (s : AdmissionState) (id : Id) (request : RecoveryRequest)
    (recoveryClear : Bool) : AdmissionState :=
  match lockRecoveryOperationAdmission inventory s
      (request.operation.source ++ request.operation.target) recoveryClear with
  | .error _ => s
  | .ok () =>
    if jobHostsAvailable inventory request.operation.hostId request.operation.payload then
      { s with
        base.jobs := s.base.jobs.insert (recoveryJobRow s.base.clock id request)
        migrationRuns := s.migrationRuns ++ request.operation.migrationRun.toList }
    else s

/-- One step of the system. -/
inductive AdmissionOp
  | enqueueJob (id : Id) (action : DockerActionRequest) (idempotencyKey : Option String)
  | retryJob (id : Id) (admitted : Bool)
  | admitRecovery (id : Id) (request : RecoveryRequest) (recoveryClear : Bool)
  | statement (op : JobOp)
  | writeResult (id : Id) (result : Option JobResult)
  | recoveryTables (restoreAttempts : List RestoreAttempt)
      (restartObligations : List RestartObligation)

/-- The statements that neither insert nor requeue. -/
def JobOp.plain : JobOp → Bool
  | enqueue _ _ _ => false
  | retryJob _ _ => false
  | _ => true

omit [Js.CaseMapping] in
/-- A reconciliation pass writing `result`. -/
def writeResult (jobs : JobTable) (id : Id) (result : Option JobResult) : JobTable :=
  jobs.update (fun row => row.id == id) (fun row => { row with result := result }) (fun _ => rfl)

/-- One step of the system. -/
def AdmissionState.step (s : AdmissionState) : AdmissionOp → AdmissionState
  | .enqueueJob id action idempotencyKey => enqueueJob inventory s id action idempotencyKey
  | .retryJob id admitted => retryAdmittedJob inventory s id admitted
  | .admitRecovery id request recoveryClear =>
      ComposeBastion.admitRecovery inventory s id request recoveryClear
  | .statement op => if op.plain then { s with base := s.base.step op } else s
  | .writeResult id result =>
      { s with base.jobs := ComposeBastion.writeResult s.base.jobs id result }
  | .recoveryTables restoreAttempts restartObligations =>
      { s with restoreAttempts := restoreAttempts, restartObligations := restartObligations }

omit [Js.CaseMapping] in
/-- No jobs and no recovery rows. -/
def AdmissionState.initial (now : Time) : AdmissionState := ⟨⟨∅, now⟩, [], [], []⟩

end

end ComposeBastion
