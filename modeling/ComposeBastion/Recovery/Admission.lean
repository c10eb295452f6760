import ComposeBastion.Jobs.Fencing
import ComposeBastion.Recovery.Scope

namespace ComposeBastion

/-!
# Admission of recovery operations

`services/recoveryOperationAdmission.ts`: a direct Docker mutation is refused while a recovery
operation on the same resources is active (`assertDockerMutationDoesNotConflictWithRecovery`),
and a recovery operation is refused while a direct mutation on them is active
(`lockRecoveryOperationAdmission`).  The two functions enumerate the jobs and resolve the
scopes on their own, and they do not agree: `resolvedDirectDockerMutationScopes` has no case
for `deploy.analyze`.

`AdmissionState` is the part of the database both of them read.
-/

/-! ### The tables -/

/-- A row of `migration_runs`, as far as admission reads it. -/
structure MigrationRun where
  id : Id
  sourceHostId : Id
  targetHostId : Id
  deriving DecidableEq, Repr

/-- `recovery_restore_resources.kind`. -/
inductive RestoreResourceKind
  | volume | network | container | directory | composeProject | database
  deriving DecidableEq, Repr

/-- A row of `recovery_restore_attempts` that still owns resources, with those resources. -/
structure RestoreAttempt where
  targetHostId : Id
  resources : List (RestoreResourceKind × String)
  deriving DecidableEq, Repr

/-- A row of `recovery_points` with `sourceRestartPending`. -/
structure RestartObligation where
  hostId : Id
  identity : RecoveryAppIdentity
  projectName : Option String
  deriving DecidableEq, Repr

/-- The tables admission reads. -/
structure AdmissionState where
  base : JobSystem
  migrationRuns : List MigrationRun
  restoreAttempts : List RestoreAttempt
  restartObligations : List RestartObligation

/-- `statusCode: 409` with its message and `activeJobId`. -/
structure AdmissionError where
  message : String
  activeJobId : Option Id
  deriving DecidableEq, Repr

/-- `host_id = ANY($1::uuid[]) OR payload->>'targetHostId' = ANY($1::text[])`. -/
def onHosts (hostIds : List Id) (row : JobRow) : Bool :=
  row.hostId.any (hostIds.map uuidText).contains || row.payload.targetHostId.any hostIds.contains

section

variable [Js.CaseMapping] (inventory : Inventory)

/-! ### Restore attempts and restart obligations -/

/-- The target kind of a restored resource. -/
def RestoreResourceKind.targetKind : RestoreResourceKind → Option MutationTargetKind
  | volume => some .volume
  | network => some .network
  | container => some .container
  | directory => some .hostPath
  | composeProject => some .composeProject
  | database => none

/-- `attemptDockerScope`. -/
def attemptDockerScope (attempt : RestoreAttempt) : Option DockerMutationScope :=
  let targets := recoveryAddTargets [] attempt.targetHostId
    (attempt.resources.filterMap fun resource => resource.1.targetKind.map (·, resource.2))
  if targets = [] then none
  else some ⟨.composeDeployPath, [attempt.targetHostId], targets⟩

/-- `activeRestoreAttemptScopes`. -/
def activeRestoreAttemptScopes (s : AdmissionState) (hostIds : List Id) :
    List DockerMutationScope :=
  (s.restoreAttempts.filter fun attempt =>
    hostIds = [] ∨ attempt.targetHostId ∈ hostIds.map uuidText).filterMap attemptDockerScope

/-- The scopes of the restart obligations on these hosts. -/
def restartObligationScopes (s : AdmissionState) (hostIds : List Id) :
    List DockerMutationScope :=
  (s.restartObligations.filter fun obligation => obligation.hostId ∈ hostIds.map uuidText).map
    fun obligation => buildRecoverySourceDockerMutationScope obligation.hostId obligation.identity
      ⟨[], [], obligation.projectName, none⟩

/-! ### A direct mutation against the active recovery operations -/

/-- The job types whose stored scopes fence direct mutations. -/
def fencingRecoveryTypes : List JobType :=
  [.recoveryCreate, .recoveryCapture, .recoveryRestore, .migrationExecute, .volumeBackup,
    .volumeRestore, .volumeClone, .hostPathBackup, .hostPathRestore, .backupDrill]

/-- `EXISTS (SELECT 1 FROM migration_runs …)`. -/
def migratesOnHosts (s : AdmissionState) (hostIds : List Id) (row : JobRow) : Bool :=
  match row.payload with
  | .migrationExecute migrationRunId => s.migrationRuns.any fun run =>
      run.id == migrationRunId && ((hostIds.map uuidText).contains run.sourceHostId
        || (hostIds.map uuidText).contains run.targetHostId)
  | _ => false

/-- The recovery jobs a direct mutation on these hosts is compared with. -/
def activeRecoveryJobs (s : AdmissionState) (hostIds : List Id) : List JobRow :=
  (s.base.jobs.rows.filter fun row =>
      row.status.active && fencingRecoveryTypes.contains row.type
        && (onHosts hostIds row || migratesOnHosts s hostIds row)).insertionSort
    fun a b => a.id ≤ b.id

/-- `assertDockerMutationDoesNotConflictWithRecovery`. -/
def assertDockerMutationDoesNotConflictWithRecovery (s : AdmissionState)
    (requested : DockerMutationScope) : Except AdmissionError Unit :=
  let conservativeRequested := conservativeRecoveryDockerMutationScope requested
  let requestedCanonical := canonicalizeDockerMutationScope inventory conservativeRequested
  let conflicts := fun candidate => dockerMutationScopesConflict requestedCanonical
    (canonicalizeDockerMutationScope inventory candidate)
  match (activeRecoveryJobs s conservativeRequested.hostIds).find?
      fun row => (storedRecoveryDockerScopes row).any conflicts with
  | some row => .error
      ⟨"This Docker mutation conflicts with an active recovery, migration, backup, restore, clone, or drill resource intent.",
        some row.id⟩
  | none =>
    if (activeRestoreAttemptScopes s conservativeRequested.hostIds).any conflicts then .error
      ⟨"This Docker mutation conflicts with a restore attempt awaiting exact-resource reconciliation.",
        none⟩
    else if (restartObligationScopes s conservativeRequested.hostIds).any conflicts then .error
      ⟨"This Docker mutation conflicts with an unresolved migration source restart or target-cleanup obligation.",
        none⟩
    else .ok ()

/-! ### A recovery operation against the active direct mutations -/

/-- The recovery and migration job types, which are compared by their own rules. -/
def recoveryOperationTypes : List JobType :=
  [.recoveryCreate, .recoveryCapture, .recoveryVerify, .recoveryRestore, .migrationExecute]

/-- `resolvedDirectDockerMutationScopes`. -/
def resolvedDirectDockerMutationScopes (row : JobRow) : List DockerMutationScope :=
  let hostId := row.hostId.getD ""
  if storedRecoveryDockerScopes row ≠ [] then storedRecoveryDockerScopes row
  else match dockerMutationScope hostId row.payload with
    | some direct => [direct]
    | none =>
      match row.payload with
      | .composeDeploy stackId => (stackScope inventory hostId stackId).toList
      | .composeStop stackId => (stackScope inventory hostId stackId).toList
      | .composeRemove stackId => (stackScope inventory hostId stackId).toList
      | .deployExecute analysisId => (analysisScope inventory hostId analysisId).toList
      | _ => []

/-- The direct jobs a recovery operation on these hosts is compared with. -/
def activeDirectJobs (s : AdmissionState) (hostIds : List Id) : List JobRow :=
  (s.base.jobs.rows.filter fun row =>
      row.status.active && !recoveryOperationTypes.contains row.type && onHosts hostIds row).insertionSort
    fun a b => a.id ≤ b.id

/-- `lockRecoveryOperationAdmission`, for the source and target scopes a caller proposes.
    `recoveryClear` is the outcome of its checks against other recovery operations and restart
    obligations. -/
def lockRecoveryOperationAdmission (s : AdmissionState) (proposed : List DockerMutationScope)
    (recoveryClear : Bool) : Except AdmissionError Unit :=
  let proposedDockerScopes := proposed.map conservativeRecoveryDockerMutationScope
  let proposedHostIds := sortedUnique (proposedDockerScopes.flatMap (·.hostIds))
  let canonicalProposed := proposedDockerScopes.map (canonicalizeDockerMutationScope inventory)
  let conflicts := fun candidate => canonicalProposed.any fun scope =>
    dockerMutationScopesConflict scope (canonicalizeDockerMutationScope inventory candidate)
  if !recoveryClear then .error
    ⟨"A conflicting recovery or migration operation is already queued or running for this application, recovery point, or exact target resource.",
      none⟩
  else match (activeDirectJobs s proposedHostIds).find?
      fun row => (resolvedDirectDockerMutationScopes inventory row).any conflicts with
    | some row => .error
        ⟨"This recovery or migration operation conflicts with an active Docker mutation for an exact source or target resource.",
          some row.id⟩
    | none =>
      if canonicalProposed ≠ [] ∧ (activeRestoreAttemptScopes s proposedHostIds).any conflicts then
        .error
          ⟨"A prior restore attempt still owns an overlapping target resource or is awaiting exact-resource reconciliation.",
            none⟩
      else .ok ()

end

end ComposeBastion
