import ComposeBastion.Recovery.Admission

namespace ComposeBastion

/-!
# Restore attempts

`services/recoveryRestoreAttempts.ts` and the completion of a restore job in `services/jobs.ts`:
a restore registers what it is about to create on the target host under an attempt, and the
attempt ends `retained` or `cleaned`.

* `AttemptRow`, `ResourceRow` — `recovery_restore_attempts` and `recovery_restore_resources`;
* `AttemptUpdate` — an `UPDATE` of attempts, with its `WHERE` and its `SET`;
* the markers of the executor, the claim of the reconciler and the writes under a claim, each as
  the update it issues;
* `finalizeSuccessfulRestoreAttempt` — what the completion of a job does to its attempt.
-/

/-! ### The tables -/

/-- `recovery_restore_attempts.status`. -/
inductive AttemptStatus
  | active | awaitingDisposition | cleanupPending | reconciling | retained | cleaned
  deriving DecidableEq, Repr

/-- A row of `recovery_restore_attempts`. -/
structure AttemptRow where
  id : Id
  recoveryPointId : Option Id
  backupId : Option Id
  targetHostId : Id
  operationJobId : Option Id
  migrationRunId : Option Id
  restoreScope : String
  allowedPathRoots : List String
  retainOnSuccess : Bool
  status : AttemptStatus
  heartbeatAt : Time
  cleanupNotBefore : Option Time
  reconciliationToken : Option Id
  reconciliationStartedAt : Option Time
  lastError : Option String
  completedAt : Option Time
  createdAt : Time
  deriving DecidableEq, Repr

/-- `recovery_restore_resources.status`. -/
inductive ResourceStatus
  | intended | observed | cleaned | preservedUnrelated
  deriving DecidableEq, Repr

/-- A row of `recovery_restore_resources`. -/
structure ResourceRow where
  attemptId : Id
  kind : RestoreResourceKind
  resourceName : String
  status : ResourceStatus
  createdAt : Time
  deriving DecidableEq, Repr

/-- The primary key of `recovery_restore_resources`. -/
def ResourceRow.key (row : ResourceRow) : Id × RestoreResourceKind × String :=
  (row.attemptId, row.kind, row.resourceName)

abbrev AttemptTable := Table AttemptRow AttemptRow.id

abbrev ResourceTable := Table ResourceRow ResourceRow.key

/-- `RECOVERY_RESTORE_QUIESCENCE_MS`. -/
def recoveryRestoreQuiescence : Time := seconds (11 * 60)

/-- `RECOVERY_RESTORE_RECONCILIATION_MARGIN_MS`. -/
def recoveryRestoreReconciliationMargin : Time := seconds 60

/-- `RECOVERY_RESTORE_CLEANUP_CLAIM_MS`. -/
def recoveryRestoreCleanupClaim : Time := seconds 120

/-! ### Updates -/

/-- `UPDATE recovery_restore_attempts SET … WHERE …`. -/
structure AttemptUpdate where
  guard : AttemptRow → Bool
  assign : AttemptRow → AttemptRow
  assign_id : ∀ row, (assign row).id = row.id

/-- The table after an update. -/
def AttemptUpdate.apply (u : AttemptUpdate) (t : AttemptTable) : AttemptTable :=
  t.update u.guard u.assign u.assign_id

/-- `RETURNING id`: whether the update met a row. -/
def AttemptUpdate.hits (u : AttemptUpdate) (t : AttemptTable) : Bool := t.rows.any u.guard

/-- `status IN ('active', 'awaiting_disposition')`. -/
def AttemptStatus.undecided : AttemptStatus → Bool
  | active | awaitingDisposition => true
  | cleanupPending | reconciling | retained | cleaned => false

/-- `status IN ('active', 'awaiting_disposition', 'cleanup_pending', 'reconciling')`. -/
def AttemptStatus.nonTerminal : AttemptStatus → Bool
  | active | awaitingDisposition | cleanupPending | reconciling => true
  | retained | cleaned => false

/-! ### The executor -/

/-- `RecoveryRestoreAttemptContext`. -/
structure AttemptContext where
  attemptToken : Id
  recoveryPointId : Option Id
  backupId : Option Id
  targetHostId : Id
  restoreScope : String
  operationJobId : Option Id
  migrationRunId : Option Id
  allowedPathRoots : List String
  retainOnSuccess : Option Bool

/-- `[…].filter(Boolean)`, of an optional id. -/
def truthyId (id : Option Id) : Bool := id.any (· ≠ "")

/-- The row `beginRecoveryRestoreAttempt` inserts. -/
def AttemptContext.row (context : AttemptContext) (now : Time) : AttemptRow where
  id := uuidText context.attemptToken
  recoveryPointId := context.recoveryPointId.map uuidText
  backupId := context.backupId.map uuidText
  targetHostId := uuidText context.targetHostId
  operationJobId := context.operationJobId.map uuidText
  migrationRunId := context.migrationRunId.map uuidText
  restoreScope := context.restoreScope
  allowedPathRoots := ((context.allowedPathRoots.map Js.trim).filter (· ≠ "")).eraseDups
  retainOnSuccess := context.retainOnSuccess.getD true
  status := .active
  heartbeatAt := now
  cleanupNotBefore := none
  reconciliationToken := none
  reconciliationStartedAt := none
  lastError := none
  completedAt := none
  createdAt := now

/-- `beginRecoveryRestoreAttempt`. -/
def beginRecoveryRestoreAttempt (t : AttemptTable) (context : AttemptContext) (now : Time) :
    Except String AttemptTable :=
  if truthyId context.recoveryPointId = truthyId context.backupId then
    .error "A restore attempt must have exactly one recovery-point or backup owner"
  else .ok (t.insert (context.row now))

/-- The first statement of `registerRecoveryRestoreResource`. -/
def registerRecoveryRestoreResource (t : ResourceTable) (attempts : AttemptTable)
    (attemptToken : Id) (kind : RestoreResourceKind) (resourceName : String) (now : Time) :
    ResourceTable :=
  if (attempts.find attemptToken).isSome then
    t.insert ⟨attemptToken, kind, resourceName, .intended, now⟩
  else t

/-- The first statement of `markRecoveryRestoreResourceObserved`. -/
def markRecoveryRestoreResourceObserved (t : ResourceTable) (attemptToken : Id)
    (kind : RestoreResourceKind) (resourceName : String) : ResourceTable :=
  t.update (fun row => row.key = (attemptToken, kind, resourceName) && row.status = .intended)
    (fun row => { row with status := .observed }) fun _ => rfl

/-- The second statement of both: `heartbeat_at = now()`. -/
def attemptHeartbeat (attemptToken : Id) (now : Time) : AttemptUpdate where
  guard row := row.id = attemptToken && row.status.undecided
  assign row := { row with heartbeatAt := now }
  assign_id _ := rfl

/-- `markRecoveryRestoreAttemptAwaitingDisposition`. -/
def markRecoveryRestoreAttemptAwaitingDisposition (attemptToken : Id) (now : Time) :
    AttemptUpdate where
  guard row := row.id = attemptToken && row.status = .active
  assign row :=
    { row with
      status := .awaitingDisposition
      heartbeatAt := now
      cleanupNotBefore := none
      lastError := none }
  assign_id _ := rfl

/-- `markRecoveryRestoreAttemptCleanupPending`. -/
def markRecoveryRestoreAttemptCleanupPending (attemptToken : Id) (error : String)
    (remoteOutcomeUnknown : Bool) (now : Time) : AttemptUpdate where
  guard row := row.id = attemptToken && !(row.status = .retained || row.status = .cleaned)
  assign row :=
    { row with
      status := .cleanupPending
      cleanupNotBefore :=
        some (if remoteOutcomeUnknown then now + recoveryRestoreQuiescence else now)
      lastError := some error }
  assign_id _ := rfl

/-- The assignments that retain an attempt. -/
def AttemptRow.retain (row : AttemptRow) (now : Time) : AttemptRow :=
  { row with
    status := .retained
    cleanupNotBefore := none
    reconciliationToken := none
    reconciliationStartedAt := none
    lastError := none
    completedAt := some now }

/-- The assignments that end an attempt as cleaned. -/
def AttemptRow.clean (row : AttemptRow) (now : Time) : AttemptRow :=
  { row with
    status := .cleaned
    cleanupNotBefore := none
    reconciliationToken := none
    reconciliationStartedAt := none
    lastError := none
    completedAt := some now }

/-- `markRecoveryRestoreAttemptRetained`. -/
def markRecoveryRestoreAttemptRetained (attemptToken : Id) (now : Time) : AttemptUpdate where
  guard row := row.id = attemptToken && row.status.undecided
  assign row := row.retain now
  assign_id _ := rfl

/-- `markRecoveryRestoreAttemptCleaned`. -/
def markRecoveryRestoreAttemptCleaned (attemptToken : Id) (now : Time) : AttemptUpdate where
  guard row := row.id = attemptToken && row.status ≠ .retained
  assign row := row.clean now
  assign_id _ := rfl

/-! ### Claiming attempts -/

/-- `migration_runs`, as far as `claimRestoreAttempts` reads it. -/
structure MigrationLink where
  id : Id
  targetHostId : Id
  recoveryPointId : Option Id
  deriving DecidableEq, Repr

/-- The job an attempt is bound to is completed. -/
def boundJobCompleted (jobs : JobTable) (row : AttemptRow) : Bool :=
  row.operationJobId.any fun jobId => (jobs.find jobId).any (·.status = .completed)

/-- The first statement of `claimRestoreAttempts`. -/
def retainCompletedAttempts (jobs : JobTable) (now : Time) : AttemptUpdate where
  guard row := boundJobCompleted jobs row && row.retainOnSuccess && row.status.undecided
  assign row :=
    { row with
      status := .retained
      cleanupNotBefore := none
      lastError := none
      completedAt := some (row.completedAt.getD now) }
  assign_id _ := rfl

/-- The second statement of `claimRestoreAttempts`. -/
def releaseCompletedAttempts (jobs : JobTable) (now : Time) : AttemptUpdate where
  guard row := boundJobCompleted jobs row && !row.retainOnSuccess && row.status.undecided
  assign row :=
    { row with
      status := .cleanupPending
      cleanupNotBefore := some now
      lastError := none }
  assign_id _ := rfl

/-- The cleanup of an attempt is due: its own time has come or, where it has none, its executor
    has been silent for the quiescence interval. -/
def cleanupDue (row : AttemptRow) (now : Time) : Bool :=
  match row.cleanupNotBefore with
  | some cleanupNotBefore => cleanupNotBefore ≤ now
  | none => row.heartbeatAt ≤ now - recoveryRestoreQuiescence

/-- Nobody holds a live claim on the attempt. -/
def claimLapsed (row : AttemptRow) (now : Time) : Bool :=
  row.status ≠ .reconciling || row.reconciliationStartedAt.all (· ≤ now - recoveryRestoreCleanupClaim)

/-- An active job other than the attempt's own restores the same recovery point on its host. -/
def restoresSamePoint (migrations : List MigrationLink) (row : AttemptRow) (job : JobRow) : Bool :=
  job.status.active && row.operationJobId ≠ some job.id &&
    match job.payload with
    | .recoveryRestore recoveryPointId _ =>
      job.hostId = some row.targetHostId && row.recoveryPointId = some recoveryPointId
    | .migrationExecute migrationRunId =>
      migrations.any fun migration => migration.id = migrationRunId
        && migration.targetHostId = row.targetHostId && row.recoveryPointId.isSome
        && migration.recoveryPointId = row.recoveryPointId
    | _ => false

/-- The `WHERE` of the `SELECT … FOR UPDATE` of `claimRestoreAttempts`. -/
def claimableAttempt (jobs : JobTable) (migrations : List MigrationLink) (now : Time)
    (row : AttemptRow) : Bool :=
  row.status.nonTerminal && cleanupDue row now && claimLapsed row now
    && row.operationJobId.all (fun jobId => (jobs.find jobId).all fun job => !job.status.active)
    && !jobs.rows.any (restoresSamePoint migrations row)

/-- A selected row, which stays locked, is claimed under a new token. -/
def claimAttempt (jobs : JobTable) (migrations : List MigrationLink) (now : Time) (id token : Id) :
    AttemptUpdate where
  guard row := row.id = id && claimableAttempt jobs migrations now row
  assign row :=
    { row with
      status := .reconciling
      reconciliationToken := some token
      reconciliationStartedAt := some now }
  assign_id _ := rfl

/-! ### Writes under a claim -/

/-- `WHERE id = $1 AND reconciliation_token = $2 AND status = 'reconciling'`. -/
def holdsClaim (attempt row : AttemptRow) : Bool :=
  row.id = attempt.id && row.reconciliationToken.isSome
    && row.reconciliationToken = attempt.reconciliationToken && row.status = .reconciling

/-- `renewRestoreAttemptClaim`. -/
def renewRestoreAttemptClaim (attempt : AttemptRow) (now : Time) : AttemptUpdate where
  guard := holdsClaim attempt
  assign row := { row with reconciliationStartedAt := some now, heartbeatAt := now }
  assign_id _ := rfl

/-- The `UPDATE` of `completeClaimedAttempt`. -/
def completeClaimedAttempt (attempt : AttemptRow) (now : Time) : AttemptUpdate where
  guard := holdsClaim attempt
  assign row := row.clean now
  assign_id _ := rfl

/-- `failClaimedAttempt`. -/
def failClaimedAttempt (attempt : AttemptRow) (remoteOutcomeUnknown : Bool) (error : String)
    (now : Time) : AttemptUpdate where
  guard := holdsClaim attempt
  assign row :=
    { row with
      status := .cleanupPending
      cleanupNotBefore := some (now + if remoteOutcomeUnknown then recoveryRestoreQuiescence
        else recoveryRestoreReconciliationMargin)
      reconciliationToken := none
      reconciliationStartedAt := none
      lastError := some error }
  assign_id _ := rfl

/-- `markResourceDisposition`: the update of the resource, when the claim still holds. -/
def markResourceDisposition (t : ResourceTable) (attempts : AttemptTable) (attempt : AttemptRow)
    (resource : ResourceRow) (status : ResourceStatus) : Option ResourceTable :=
  if (attempts.find attempt.id).any (holdsClaim attempt)
      && t.hasKey (attempt.id, resource.kind, resource.resourceName) then
    some (t.update (fun row => row.key = (attempt.id, resource.kind, resource.resourceName))
      (fun row => { row with status := status }) fun _ => rfl)
  else none

/-! ### Completing a job -/

/-- `MigrationCompletionIdentity`, as far as the attempt is checked against it. -/
structure MigrationCompletionIdentity where
  migrationRunId : Id
  recoveryPointId : Id

/-- `BackupRestoreCompletionIdentity`; `retained` is its `disposition`. -/
structure BackupRestoreCompletionIdentity where
  backupId : Id
  targetHostId : Id
  retained : Bool

/-- `retainExactRestoreAttempt`. -/
def retainExactRestoreAttempt (attempt : AttemptRow) (jobId recoveryPointId : Id)
    (migrationRunId : Option Id) (now : Time) : AttemptUpdate where
  guard row := row.id = attempt.id && row.operationJobId = some (uuidText jobId)
    && row.recoveryPointId = some (uuidText recoveryPointId) && row.backupId.isNone
    && row.migrationRunId = migrationRunId.map uuidText && row.retainOnSuccess
    && row.status = .awaitingDisposition
  assign row := row.retain now
  assign_id _ := rfl

/-- `retainExactBackupRestoreAttempt`. -/
def retainExactBackupRestoreAttempt (attempt : AttemptRow) (jobId backupId targetHostId : Id)
    (now : Time) : AttemptUpdate where
  guard row := row.id = attempt.id && row.operationJobId = some (uuidText jobId)
    && row.recoveryPointId.isNone && row.backupId = some (uuidText backupId)
    && row.targetHostId = uuidText targetHostId && row.migrationRunId.isNone
    && row.retainOnSuccess && row.status = .awaitingDisposition
  assign row := row.retain now
  assign_id _ := rfl

/-- An update that has to meet its row. -/
def AttemptUpdate.applyExact (u : AttemptUpdate) (t : AttemptTable) (error : String) :
    Except String AttemptTable :=
  if u.hits t then .ok (u.apply t) else .error error

/-- `assertExactlyOneRestoreAttempt`. -/
def assertExactlyOneRestoreAttempt (attempts : List AttemptRow) (description : String) :
    Except String AttemptRow :=
  match attempts with
  | [attempt] => .ok attempt
  | _ => .error (description ++ " requires exactly one authoritative restore attempt")

/-- The part of `finalizeSuccessfulRestoreAttempt` for the restore of a backup; `demo` says whether
    the target host is a demo host, and is `none` when the host is gone. -/
def finalizeBackupRestoreAttempt (t : AttemptTable) (attempts : List AttemptRow) (jobId : Id)
    (identity : BackupRestoreCompletionIdentity) (demo : Option Bool) (now : Time) :
    Except String AttemptTable :=
  match demo with
  | none => .error "Backup restore completion target host is no longer authoritative"
  | some true =>
    if attempts.length ≠ 0 then
      .error "Demo backup restore completion must not have a durable remote attempt"
    else .ok t
  | some false =>
    match assertExactlyOneRestoreAttempt attempts "Backup restore completion" with
    | .error error => .error error
    | .ok attempt =>
      if attempt.recoveryPointId.isSome || attempt.backupId ≠ some identity.backupId
          || attempt.targetHostId ≠ identity.targetHostId || attempt.operationJobId ≠ some jobId
          || attempt.migrationRunId.isSome
          || attempt.restoreScope ≠ "backup:" ++ identity.backupId then
        .error "Backup restore attempt does not match its exact operation identity"
      else if !identity.retained then
        if attempt.retainOnSuccess || attempt.status ≠ .cleaned then
          .error "Backup drill completion requires its exact restore attempt to be cleaned"
        else .ok t
      else if !attempt.retainOnSuccess || attempt.status ≠ .awaitingDisposition then
        .error "Backup restore completion requires its exact attempt to await retention"
      else (retainExactBackupRestoreAttempt attempt jobId identity.backupId identity.targetHostId
          now).applyExact t "Successful backup restore attempt could not be durably retained"

/-- The part of `finalizeSuccessfulRestoreAttempt` for a migration. -/
def finalizeMigrationAttempt (t : AttemptTable) (attempt : AttemptRow) (jobId : Id)
    (identity : Option MigrationCompletionIdentity) (now : Time) : Except String AttemptTable :=
  match identity with
  | none =>
    .error "Migration completion restore attempt does not match its exact operation identity"
  | some identity =>
    if attempt.recoveryPointId ≠ some identity.recoveryPointId || attempt.backupId.isSome
        || attempt.operationJobId ≠ some jobId
        || attempt.migrationRunId ≠ some identity.migrationRunId
        || attempt.restoreScope ≠ identity.recoveryPointId || !attempt.retainOnSuccess
        || attempt.status ≠ .awaitingDisposition then
      .error "Migration completion restore attempt does not match its exact operation identity"
    else (retainExactRestoreAttempt attempt jobId identity.recoveryPointId
        (some identity.migrationRunId) now).applyExact t
        "Successful restore attempt could not be durably retained"

/-- The part of `finalizeSuccessfulRestoreAttempt` for the restore of a recovery point. -/
def finalizeRecoveryAttempt (t : AttemptTable) (attempt : AttemptRow) (job : JobRow)
    (recoveryPointId : Id) (drill : Bool) (now : Time) : Except String AttemptTable :=
  if attempt.recoveryPointId ≠ some recoveryPointId || attempt.backupId.isSome
      || some attempt.targetHostId ≠ job.hostId || attempt.operationJobId ≠ some job.id
      || attempt.migrationRunId.isSome || attempt.restoreScope ≠ recoveryPointId then
    .error "Recovery restore attempt does not match its exact operation identity"
  else if drill then
    if attempt.retainOnSuccess || attempt.status ≠ .cleaned then
      .error "Recovery drill completion requires its exact restore attempt to be cleaned"
    else .ok t
  else if !attempt.retainOnSuccess || attempt.status ≠ .awaitingDisposition then
    .error "Recovery restore completion requires its exact attempt to await retention"
  else (retainExactRestoreAttempt attempt job.id recoveryPointId none now).applyExact t
    "Successful restore attempt could not be durably retained"

/-- `finalizeSuccessfulRestoreAttempt`, on the attempts of the job, which are locked. -/
def finalizeSuccessfulRestoreAttempt (t : AttemptTable) (job : JobRow)
    (migrationIdentity : Option MigrationCompletionIdentity)
    (backupRestoreIdentity : Option BackupRestoreCompletionIdentity) (demo : Option Bool)
    (now : Time) : Except String AttemptTable :=
  let attempts := t.rows.filter fun row => row.operationJobId = some job.id
  match backupRestoreIdentity with
  | some identity => finalizeBackupRestoreAttempt t attempts job.id identity demo now
  | none =>
    match job.payload with
    | .migrationExecute _ =>
      match assertExactlyOneRestoreAttempt attempts "Migration completion" with
      | .error error => .error error
      | .ok attempt => finalizeMigrationAttempt t attempt job.id migrationIdentity now
    | .recoveryRestore recoveryPointId drill =>
      match assertExactlyOneRestoreAttempt attempts "Recovery restore completion" with
      | .error error => .error error
      | .ok attempt => finalizeRecoveryAttempt t attempt job recoveryPointId drill now
    | _ =>
      if attempts.length ≠ 0 then
        .error "Operation job type does not support a bound restore attempt"
      else .ok t

/-! ### Dispositions -/

/-- How the status of an attempt may go on: a disposition is final, and one that waits for its
    cleanup is not retained any more. -/
def AttemptStatus.Leads (a b : AttemptStatus) : Prop :=
  match a with
  | active | awaitingDisposition => True
  | cleanupPending | reconciling => b = cleanupPending ∨ b = reconciling ∨ b = cleaned
  | retained => b = retained
  | cleaned => b = cleaned

theorem AttemptStatus.Leads.refl (a : AttemptStatus) : a.Leads a := by
  cases a <;> simp [Leads]

theorem AttemptStatus.Leads.trans {a b c : AttemptStatus} (h : a.Leads b) (h' : b.Leads c) :
    a.Leads c := by
  cases a <;> cases b <;> simp_all [Leads]

/-- Every attempt is still there, with a status its old one leads to. -/
def AttemptsLead (t t' : AttemptTable) : Prop :=
  ∀ id row, t.find id = some row → ∃ row', t'.find id = some row' ∧ row.status.Leads row'.status

theorem AttemptsLead.refl (t : AttemptTable) : AttemptsLead t t :=
  fun _ row h => ⟨row, h, .refl _⟩

theorem AttemptsLead.trans {t t' t'' : AttemptTable} (h : AttemptsLead t t')
    (h' : AttemptsLead t' t'') : AttemptsLead t t'' := by
  intro id row hrow
  obtain ⟨row', hrow', hleads⟩ := h id row hrow
  obtain ⟨row'', hrow'', hleads'⟩ := h' id row' hrow'
  exact ⟨row'', hrow'', hleads.trans hleads'⟩

/-- An update whose `WHERE` allows the status it sets. -/
def AttemptUpdate.Sound (u : AttemptUpdate) : Prop :=
  ∀ row, u.guard row = true → row.status.Leads (u.assign row).status

theorem AttemptUpdate.Sound.apply {u : AttemptUpdate} (h : u.Sound) (t : AttemptTable) :
    AttemptsLead t (u.apply t) := by
  intro id row hrow
  refine ⟨if u.guard row then u.assign row else row, ?_, ?_⟩
  · rw [AttemptUpdate.apply, Table.find_update, hrow, Option.map_some]
  · split
    · rename_i hguard
      exact h row hguard
    · exact .refl _

theorem AttemptUpdate.Sound.applyExact {u : AttemptUpdate} (h : u.Sound) {t t' : AttemptTable}
    {error : String} (ht : u.applyExact t error = .ok t') : AttemptsLead t t' := by
  unfold AttemptUpdate.applyExact at ht
  split at ht
  · cases ht
    exact h.apply t
  · cases ht

/-- An update of undecided attempts may set any status. -/
theorem AttemptUpdate.sound_of_undecided {u : AttemptUpdate}
    (h : ∀ row, u.guard row = true → row.status.undecided = true) : u.Sound := by
  intro row hguard
  have hundecided := h row hguard
  cases hstatus : row.status <;> simp_all [AttemptStatus.undecided, AttemptStatus.Leads]

/-- An update that keeps the status. -/
theorem AttemptUpdate.sound_of_same {u : AttemptUpdate}
    (h : ∀ row, (u.assign row).status = row.status) : u.Sound := by
  intro row _
  rw [h]
  exact .refl _

/-- An update of attempts that are not retained, and that sets a status of the cleanup. -/
theorem AttemptUpdate.sound_of_cleanup {u : AttemptUpdate}
    (hset : ∀ row, (u.assign row).status = .cleanupPending ∨ (u.assign row).status = .reconciling)
    (h : ∀ row, u.guard row = true → row.status.nonTerminal = true) : u.Sound := by
  intro row hguard
  have hstatus := h row hguard
  rcases hset row with hset | hset <;> rw [hset] <;>
    cases hrow : row.status <;> simp_all [AttemptStatus.nonTerminal, AttemptStatus.Leads]

/-- An update of attempts that are not retained, and that ends them as cleaned. -/
theorem AttemptUpdate.sound_of_cleaned {u : AttemptUpdate}
    (hset : ∀ row, (u.assign row).status = .cleaned)
    (h : ∀ row, u.guard row = true → row.status ≠ .retained) : u.Sound := by
  intro row hguard
  have hstatus := h row hguard
  rw [hset]
  cases hrow : row.status <;> simp_all [AttemptStatus.Leads]

theorem status_of_holdsClaim {attempt row : AttemptRow} (h : holdsClaim attempt row = true) :
    row.status = .reconciling := by
  simp only [holdsClaim, Bool.and_eq_true, decide_eq_true_eq] at h
  exact h.2

theorem attemptHeartbeat_sound (attemptToken : Id) (now : Time) :
    (attemptHeartbeat attemptToken now).Sound :=
  AttemptUpdate.sound_of_same fun _ => rfl

theorem markAwaitingDisposition_sound (attemptToken : Id) (now : Time) :
    (markRecoveryRestoreAttemptAwaitingDisposition attemptToken now).Sound := by
  refine AttemptUpdate.sound_of_undecided fun row hguard => ?_
  simp only [markRecoveryRestoreAttemptAwaitingDisposition, Bool.and_eq_true,
    decide_eq_true_eq] at hguard
  rw [hguard.2]
  rfl

theorem markCleanupPending_sound (attemptToken : Id) (error : String) (unknown : Bool)
    (now : Time) :
    (markRecoveryRestoreAttemptCleanupPending attemptToken error unknown now).Sound := by
  refine AttemptUpdate.sound_of_cleanup (fun _ => Or.inl rfl) fun row hguard => ?_
  cases hrow : row.status <;>
    simp_all [markRecoveryRestoreAttemptCleanupPending, AttemptStatus.nonTerminal]

theorem markRetained_sound (attemptToken : Id) (now : Time) :
    (markRecoveryRestoreAttemptRetained attemptToken now).Sound := by
  refine AttemptUpdate.sound_of_undecided fun row hguard => ?_
  simp only [markRecoveryRestoreAttemptRetained, Bool.and_eq_true] at hguard
  exact hguard.2

theorem markCleaned_sound (attemptToken : Id) (now : Time) :
    (markRecoveryRestoreAttemptCleaned attemptToken now).Sound := by
  refine AttemptUpdate.sound_of_cleaned (fun _ => rfl) fun row hguard => ?_
  simp only [markRecoveryRestoreAttemptCleaned, Bool.and_eq_true, decide_eq_true_eq] at hguard
  exact hguard.2

theorem retainCompletedAttempts_sound (jobs : JobTable) (now : Time) :
    (retainCompletedAttempts jobs now).Sound := by
  refine AttemptUpdate.sound_of_undecided fun row hguard => ?_
  simp only [retainCompletedAttempts, Bool.and_eq_true] at hguard
  exact hguard.2

theorem releaseCompletedAttempts_sound (jobs : JobTable) (now : Time) :
    (releaseCompletedAttempts jobs now).Sound := by
  refine AttemptUpdate.sound_of_undecided fun row hguard => ?_
  simp only [releaseCompletedAttempts, Bool.and_eq_true] at hguard
  exact hguard.2

theorem claimAttempt_sound (jobs : JobTable) (migrations : List MigrationLink) (now : Time)
    (id token : Id) : (claimAttempt jobs migrations now id token).Sound := by
  refine AttemptUpdate.sound_of_cleanup (fun _ => Or.inr rfl) fun row hguard => ?_
  simp only [claimAttempt, claimableAttempt, Bool.and_eq_true] at hguard
  exact hguard.2.1.1.1.1

theorem renewRestoreAttemptClaim_sound (attempt : AttemptRow) (now : Time) :
    (renewRestoreAttemptClaim attempt now).Sound :=
  AttemptUpdate.sound_of_same fun _ => rfl

theorem completeClaimedAttempt_sound (attempt : AttemptRow) (now : Time) :
    (completeClaimedAttempt attempt now).Sound := by
  refine AttemptUpdate.sound_of_cleaned (fun _ => rfl) fun row hguard => ?_
  rw [status_of_holdsClaim hguard]
  decide

theorem failClaimedAttempt_sound (attempt : AttemptRow) (unknown : Bool) (error : String)
    (now : Time) : (failClaimedAttempt attempt unknown error now).Sound := by
  refine AttemptUpdate.sound_of_cleanup (fun _ => Or.inl rfl) fun row hguard => ?_
  rw [status_of_holdsClaim hguard]
  rfl

theorem retainExactRestoreAttempt_sound (attempt : AttemptRow) (jobId recoveryPointId : Id)
    (migrationRunId : Option Id) (now : Time) :
    (retainExactRestoreAttempt attempt jobId recoveryPointId migrationRunId now).Sound := by
  refine AttemptUpdate.sound_of_undecided fun row hguard => ?_
  simp only [retainExactRestoreAttempt, Bool.and_eq_true, decide_eq_true_eq] at hguard
  rw [hguard.2]
  rfl

theorem retainExactBackupRestoreAttempt_sound (attempt : AttemptRow)
    (jobId backupId targetHostId : Id) (now : Time) :
    (retainExactBackupRestoreAttempt attempt jobId backupId targetHostId now).Sound := by
  refine AttemptUpdate.sound_of_undecided fun row hguard => ?_
  simp only [retainExactBackupRestoreAttempt, Bool.and_eq_true, decide_eq_true_eq] at hguard
  rw [hguard.2]
  rfl

theorem finalizeBackupRestoreAttempt_leads {t t' : AttemptTable} {attempts : List AttemptRow}
    {jobId : Id} {identity : BackupRestoreCompletionIdentity} {demo : Option Bool} {now : Time}
    (h : finalizeBackupRestoreAttempt t attempts jobId identity demo now = .ok t') :
    AttemptsLead t t' := by
  unfold finalizeBackupRestoreAttempt at h
  -- every branch that succeeds leaves the table alone, except the last, which retains the attempt
  repeat' split at h
  all_goals first
    | (cases h; exact .refl t)
    | cases h
    | exact AttemptUpdate.Sound.applyExact (retainExactBackupRestoreAttempt_sound _ _ _ _ _) h

theorem finalizeMigrationAttempt_leads {t t' : AttemptTable} {attempt : AttemptRow} {jobId : Id}
    {identity : Option MigrationCompletionIdentity} {now : Time}
    (h : finalizeMigrationAttempt t attempt jobId identity now = .ok t') : AttemptsLead t t' := by
  unfold finalizeMigrationAttempt at h
  split at h
  · cases h
  · split at h
    · cases h
    · exact AttemptUpdate.Sound.applyExact (retainExactRestoreAttempt_sound _ _ _ _ _) h

theorem finalizeRecoveryAttempt_leads {t t' : AttemptTable} {attempt : AttemptRow} {job : JobRow}
    {recoveryPointId : Id} {drill : Bool} {now : Time}
    (h : finalizeRecoveryAttempt t attempt job recoveryPointId drill now = .ok t') :
    AttemptsLead t t' := by
  unfold finalizeRecoveryAttempt at h
  repeat' split at h
  all_goals first
    | (cases h; exact .refl t)
    | cases h
    | exact AttemptUpdate.Sound.applyExact (retainExactRestoreAttempt_sound _ _ _ _ _) h

/-- **Completing a job** lets the statuses of the attempts go on as they may. -/
theorem finalizeSuccessfulRestoreAttempt_leads {t t' : AttemptTable} {job : JobRow}
    {migrationIdentity : Option MigrationCompletionIdentity}
    {backupRestoreIdentity : Option BackupRestoreCompletionIdentity} {demo : Option Bool}
    {now : Time}
    (h : finalizeSuccessfulRestoreAttempt t job migrationIdentity backupRestoreIdentity demo now
      = .ok t') : AttemptsLead t t' := by
  unfold finalizeSuccessfulRestoreAttempt at h
  dsimp only at h
  split at h
  · exact finalizeBackupRestoreAttempt_leads h
  · split at h
    · split at h
      · cases h
      · exact finalizeMigrationAttempt_leads h
    · split at h
      · cases h
      · exact finalizeRecoveryAttempt_leads h
    · split at h
      · cases h
      · cases h
        exact .refl t

end ComposeBastion
