import ComposeBastion.Backup.Capture

namespace ComposeBastion

open Runs DeletionClaim

/-!
# Deleting backups

`services/backups.ts`: a deletion claims the row of a backup in one transaction, deletes the remote
objects and the local file one after the other, and removes the row in another transaction.
Meanwhile operations on the backup are requested, verifications are retried, captures of it begin,
publish and fail, and reconcilers take over the claims that are no longer renewed.

* `deleteBackup`, `reconcileClaimedBackupDeletions`, `finishClaimedBackupDeletion`,
  `enforceScheduledBackupRetention` — the deleters;
* `enqueueBackupOperation`, `lockRetryAdmissionResource` — the operations;
* `BackupState.step` — all of them, interleaved with captures;
* `BackupChange`, `step_backups` — what a step does to one row;
* `backup_deletion_claims` — when a backup is claimed, and what happens under the claim.
-/

/-! ### The state -/

/-- `BACKUP_DELETION_RECONCILIATION_QUIESCENCE_MS`. -/
def backupDeletionQuiescence : Time := seconds (11 * 60)

/-- `payload->>'backupId'`. -/
def payloadBackupId : ActionPayload → Option Id
  | .volumeBackup id _ | .hostPathBackup id _ | .volumeRestore id _ | .hostPathRestore id _
  | .backupVerify id | .backupDrill id => some id
  | .volumeClone id _ _ _ => id
  | _ => none

/-- A claim and the backup as the deleter has read it. -/
abbrev ClaimedBackup := Deletion Id ClaimToken × BackupRow

/-- Where a deleter stands: how many of the remote objects it has deleted, and then whether it has
    deleted the local file. -/
inductive BackupDeleterPhase
  | idle
  | removing (claimed : ClaimedBackup) (deleted : ℕ)
  | removed (claimed : ClaimedBackup)

/-- The claim a deleter works under. -/
def BackupDeleterPhase.claimed : BackupDeleterPhase → Option ClaimedBackup
  | idle => none
  | removing claimed _ | removed claimed => some claimed

/-- A deleter, with the backups its retention has still to delete and the claims it has taken over
    and not begun. -/
structure BackupDeleter where
  retention : List Id
  queue : List ClaimedBackup
  phase : BackupDeleterPhase

/-- Every claim a deleter knows of. -/
def BackupDeleter.claims (deleter : BackupDeleter) : List ClaimedBackup :=
  deleter.phase.claimed.toList ++ deleter.queue

/-- Where a capture stands. -/
inductive CapturePhase
  | idle
  | begun (backup : BackupRow) (token : ClaimToken)
  | captured (capture : Capture)
  | uncertain (capture : Capture)
  | uncommitted (capture : Capture)
  | failing (backup : BackupRow) (token : ClaimToken)

/-- What a capture has uploaded and not yet disposed of. -/
def CapturePhase.capture : CapturePhase → Option Capture
  | captured capture | uncertain capture | uncommitted capture => some capture
  | idle | begun _ _ | failing _ _ => none

/-- The token of the attempt. -/
def CapturePhase.token : CapturePhase → Option ClaimToken
  | begun _ token | failing _ token => some token
  | captured capture | uncertain capture | uncommitted capture => some capture.token
  | idle => none

/-- The tables, the local files and the remote objects, the tokens that have been drawn, and the
    parties. -/
structure BackupState where
  backups : BackupTable
  jobs : JobTable
  attempts : AttemptTable
  files : List String
  objects : List RemoteObjectKey
  drawn : List ClaimToken
  deleters : ℕ → BackupDeleter
  captures : ℕ → CapturePhase

/-! ### Deleting -/

/-- An active job of the backup, under the id its caller has spelled. -/
def hasActiveBackupJob (s : BackupState) (id : Id) : Bool :=
  s.jobs.rows.any fun job => job.status.active && payloadBackupId job.payload = some id

/-- A restore attempt of the backup that has no disposition. -/
def hasPendingBackupAttempt (s : BackupState) (id : Id) : Bool :=
  s.attempts.rows.any fun attempt =>
    attempt.backupId = some (uuidText id) && attempt.status.nonTerminal

/-- The transaction of `deleteBackup`: the refusals, and the claim. -/
def deleteBackup (s : BackupState) (id : Id) (token : ClaimToken) (now : Time) :
    Except String (Option (BackupTable × BackupRow)) :=
  match s.backups.find (uuidText id) with
  | none => .ok none
  | some row =>
    if row.status = .queued ∨ row.status = .running then
      .error "A queued or running backup cannot be deleted"
    else if backupHasDeletionClaim row then
      .error ("A backup deletion claim already exists; reconciliation is required before another "
        ++ "deletion attempt")
    else if hasActiveBackupJob s id then
      .error "A backup with an active operation cannot be deleted"
    else if hasPendingBackupAttempt s id then
      .error "A backup with a restore attempt awaiting disposition or cleanup cannot be deleted"
    else .ok (some (take backupSchema s.backups (uuidText id) token now, row))

/-- The last transaction of `finishClaimedBackupDeletion`. -/
def finishBackupDeletion (s : BackupState) (d : Deletion Id ClaimToken) :
    Except String (Option BackupState) :=
  match s.backups.find d.key with
  | none => .ok none
  | some row =>
    if !owns backupSchema d row then .ok none
    else if hasPendingBackupAttempt s d.key then
      .error ("Backup deletion lost its cleanup-safe state; restore reconciliation is required")
    else
      let attempts := s.attempts.delete fun attempt =>
        attempt.backupId = some (uuidText d.key) && !attempt.status.nonTerminal
      .ok (some { s with attempts := attempts, backups := finish backupSchema s.backups d })

/-- The claim of one row by `reconcileClaimedBackupDeletions`. -/
def reconcileBackupDeletion (s : BackupState) (now : Time) (id : Id)
    (reconciliationToken : ClaimToken) : Option (BackupTable × ClaimedBackup) :=
  match s.backups.find id with
  | none => none
  | some row =>
    if lapsed backupSchema backupDeletionQuiescence now row && !hasActiveBackupJob s row.id
        && !hasPendingBackupAttempt s row.id then
      row.claim.token.bind fun token =>
        let backups := takeOver backupSchema s.backups id token reconciliationToken now
        (backups.find id).map fun backup => (backups, ⟨id, token, some reconciliationToken⟩, backup)
    else none

/-- The transaction of `reconcileClaimedBackupDeletions`, over the rows it has locked. -/
def reconcileClaimedBackupDeletions (now : Time) :
    List (Id × ClaimToken) → BackupState → BackupState × List ClaimedBackup
  | [], s => (s, [])
  | (id, token) :: rest, s =>
    match reconcileBackupDeletion s now id token with
    | none => reconcileClaimedBackupDeletions now rest s
    | some (backups, claimed) =>
      let tail := reconcileClaimedBackupDeletions now rest { s with backups := backups }
      (tail.1, claimed :: tail.2)

/-- `ORDER BY completed_at DESC NULLS LAST, created_at DESC`. -/
def retainedBefore (row row' : BackupRow) : Bool :=
  match row.completedAt, row'.completedAt with
  | some at', some at'' => at'' < at' || (at'' = at' && row'.createdAt ≤ row.createdAt)
  | some _, none => true
  | none, some _ => false
  | none, none => row'.createdAt ≤ row.createdAt

/-- The backups `enforceScheduledBackupRetention` selects. -/
def retentionVictims (backups : BackupTable) (scheduleId : Id) (retentionCount : ℕ) : List Id :=
  let kept := backups.rows.filter fun row => row.scheduleId = some scheduleId
    && (row.status = .completed || row.status = .partialStatus)
  ((kept.mergeSort retainedBefore).drop retentionCount).map BackupRow.id

/-! ### Operations on a backup -/

/-- The operations of `enqueueBackupOperation`; `targetPath` is what `normalizeHostTargetPath` makes
    of the path. -/
inductive BackupOperation
  | volumeRestore (targetHostId : Id) (targetVolumeName : String) (overwrite : Bool)
  | hostPathRestore (targetHostId : Id) (targetPath : Except String String) (overwrite : Bool)
  | verify
  | drill

/-- The host and the payload of the job of an operation. -/
def BackupOperation.action (backupId : Id) :
    BackupOperation → BackupRow → Except String (Id × ActionPayload)
  | volumeRestore targetHostId targetVolumeName overwrite, backup =>
    if overwrite then
      .error ("Overwrite restore is disabled because merging into an existing volume cannot be "
        ++ "rolled back safely")
    else if backup.kind ≠ .volume then
      .error "Use the host-path restore endpoint for host-path backups"
    else .ok (targetHostId, .volumeRestore backupId targetVolumeName)
  | hostPathRestore targetHostId targetPath overwrite, backup =>
    if overwrite then
      .error ("Overwrite restore is disabled because merging into an existing host path cannot be "
        ++ "rolled back safely")
    else if backup.kind ≠ .hostPath then
      .error "Use the volume restore endpoint for volume backups"
    else targetPath.map fun path => (targetHostId, .hostPathRestore backupId path)
  | verify, backup => .ok (backup.hostId, .backupVerify backupId)
  | drill, backup => .ok (backup.hostId, .backupDrill backupId)

/-- `enqueueBackupOperation`: the row is locked and must not be claimed; `admission` is what becomes
    of the other admission checks. -/
def enqueueBackupOperation (s : BackupState) (backupId : Id) (operation : BackupOperation)
    (admission : Except String Unit) (jobId : Id) (now : Time) : Except String (Option JobTable) :=
  match s.backups.find (uuidText backupId) with
  | none => .ok none
  | some row =>
    if backupHasDeletionClaim row then
      .error "A backup being deleted cannot accept new operations"
    else match operation.action backupId row, admission with
      | .error error, _ => .error error
      | _, .error error => .error error
      | .ok (hostId, payload), .ok _ =>
        .ok (some (s.jobs.insert (queuedJob jobId hostId payload now)))

/-- `lockRetryAdmissionResource`, for the jobs on backups. -/
def lockRetryAdmissionResource (s : BackupState) (payload : ActionPayload) : Bool :=
  match payload with
  | .backupVerify id => (s.backups.find (uuidText id)).any fun row => !backupHasDeletionClaim row
  | _ => true

/-! ### The system -/

/-- What becomes of the transaction that publishes: it commits, it commits and the answer is lost,
    or it is rolled back before or after the archive was copied to its place. -/
inductive PublishOutcome
  | committed | committedUnanswered | rolledBack (copied : Bool)

/-- What a deleter, a capture or another client does next. -/
inductive BackupOp
  | delete (worker : ℕ) (id : Id) (token : ClaimToken) (now : Time)
  | retention (worker : ℕ) (scheduleId : Id) (retentionCount : ℕ)
  | deleteRetained (worker : ℕ) (token : ClaimToken) (now : Time)
  | reconcile (worker : ℕ) (now : Time) (selected : List (Id × ClaimToken))
  | next (worker : ℕ)
  | heartbeat (worker : ℕ) (now : Time)
  | removeObject (worker : ℕ)
  | removeFile (worker : ℕ)
  | finish (worker : ℕ)
  | fail (worker : ℕ)
  | request (backupId : Id) (operation : BackupOperation) (admission : Except String Unit)
      (jobId : Id) (now : Time)
  | retry (jobId : Id) (admitted : Bool) (now : Time)
  | beginCapture (executor : ℕ) (backupId : Id) (token : ClaimToken) (now : Time)
  | upload (executor : ℕ) (sizeBytes : ℕ) (checksum : String) (outcome : UploadOutcome)
  | publish (executor : ℕ) (outcome : PublishOutcome) (now : Time)
  | reconcileCommit (executor : ℕ) (readable : Bool)
  | compensate (executor : ℕ) (deleted : Bool)
  | captureFailed (executor : ℕ) (message : String) (now : Time)
  | abandon (executor : ℕ)
  -- what the executors of other jobs do meanwhile
  | job (id : Id) (status : JobStatus)
  | failBackup (backupId : Id) (message : String) (now : Time)
  | attempts (attempts : AttemptTable)

namespace BackupState

/-- A deleter moves. -/
def setDeleter (s : BackupState) (worker : ℕ) (deleter : BackupDeleter) : BackupState :=
  { s with deleters := Function.update s.deleters worker deleter }

/-- A capture moves. -/
def setCapture (s : BackupState) (executor : ℕ) (phase : CapturePhase) : BackupState :=
  { s with captures := Function.update s.captures executor phase }

/-- A deletion that has claimed its row begins. -/
def claimDeletion (s : BackupState) (worker : ℕ) (retention : List Id) (id : Id)
    (token : ClaimToken) (now : Time) : BackupState :=
  match deleteBackup s id token now with
  | .ok (some (backups, backup)) =>
    { s with backups := backups }.setDeleter worker
      ⟨retention, [], .removing (⟨uuidText id, token, none⟩, backup) 0⟩
  | .ok none | .error _ => s.setDeleter worker ⟨retention, [], .idle⟩

/-- The files after an archive was copied to its place. -/
def copyArtifact (s : BackupState) (capture : Capture) : List String :=
  if capture.retainLocalArtifact then capture.backup.fileName :: s.files else s.files

/-- A capture publishes. -/
def publishCapture (s : BackupState) (executor : ℕ) (capture : Capture) (outcome : PublishOutcome)
    (now : Time) : BackupState :=
  match publishBackupCaptureAttempt s.backups capture now, outcome with
  | .ok backups, .committed =>
    { s with backups := backups, files := s.copyArtifact capture }.setCapture executor .idle
  | .ok backups, .committedUnanswered =>
    { s with backups := backups, files := s.copyArtifact capture }.setCapture executor
      (.uncertain capture)
  | .ok _, .rolledBack true =>
    { s with files := s.copyArtifact capture }.setCapture executor (.uncertain capture)
  | .ok _, .rolledBack false | .error _, _ => s.setCapture executor (.uncertain capture)

/-- `compensateUncommittedRemoteBackup`. -/
def compensateCapture (s : BackupState) (executor : ℕ) (capture : Capture) (deleted : Bool) :
    BackupState :=
  let s' := s.setCapture executor (.failing capture.backup capture.token)
  match capture.remoteObjectPendingCommit, capture.backup.backupTargetId with
  | some key, some _ =>
    if deleted then { s' with objects := s.objects.filter (· ≠ key) }
    else
      let backups := recordUncommittedRemoteBackupOrphan s.backups capture
      { s' with backups := backups }
  | _, _ => s'

/-- One step. -/
def step (s : BackupState) : BackupOp → BackupState
  | .delete worker id token now =>
    match s.deleters worker with
    | ⟨[], [], .idle⟩ => s.claimDeletion worker [] id token now
    | _ => s
  | .retention worker scheduleId retentionCount =>
    match s.deleters worker with
    | ⟨[], [], .idle⟩ =>
      s.setDeleter worker ⟨retentionVictims s.backups scheduleId retentionCount, [], .idle⟩
    | _ => s
  | .deleteRetained worker token now =>
    match s.deleters worker with
    | ⟨id :: retention, [], .idle⟩ => s.claimDeletion worker retention id token now
    | _ => s
  | .reconcile worker now selected =>
    match s.deleters worker with
    | ⟨[], [], .idle⟩ =>
      let claimed := reconcileClaimedBackupDeletions now selected s
      claimed.1.setDeleter worker ⟨[], claimed.2, .idle⟩
    | _ => s
  | .next worker =>
    match s.deleters worker with
    | ⟨retention, claimed :: queue, .idle⟩ =>
      s.setDeleter worker ⟨retention, queue, .removing claimed 0⟩
    | _ => s
  | .heartbeat worker now =>
    match (s.deleters worker).phase.claimed with
    | some claimed =>
      { s with backups := DeletionClaim.heartbeat backupSchema s.backups claimed.1 now }
    | none => s
  | .removeObject worker =>
    match (s.deleters worker).phase with
    | .removing claimed deleted =>
      -- `deleteBackupRemoteObject` refuses a backup without a target
      match (backupRemoteObjectKeys claimed.2)[deleted]?, claimed.2.backupTargetId with
      | some key, some _ =>
        { s with objects := s.objects.filter (· ≠ key) }.setDeleter worker
          { s.deleters worker with phase := .removing claimed (deleted + 1) }
      | _, _ => s
    | _ => s
  | .removeFile worker =>
    match (s.deleters worker).phase with
    | .removing claimed deleted =>
      if deleted < (backupRemoteObjectKeys claimed.2).length then s
      else
        { s with files := s.files.filter (· ≠ claimed.2.fileName) }.setDeleter worker
          { s.deleters worker with phase := .removed claimed }
    | _ => s
  | .finish worker =>
    match (s.deleters worker).phase with
    | .removed claimed =>
      let deleter := { s.deleters worker with phase := .idle }
      match finishBackupDeletion s claimed.1 with
      | .ok (some s') => s'.setDeleter worker deleter
      | .ok none | .error _ => s.setDeleter worker deleter
    | _ => s
  | .fail worker => s.setDeleter worker { s.deleters worker with phase := .idle }
  | .request backupId operation admission jobId now =>
    match enqueueBackupOperation s backupId operation admission jobId now with
    | .ok (some jobs) => { s with jobs := jobs }
    | .ok none | .error _ => s
  | .retry jobId admitted now =>
    let free := (s.jobs.find jobId).any fun job => lockRetryAdmissionResource s job.payload
    { s with jobs := retryJob now jobId (admitted && free) s.jobs }
  | .beginCapture executor backupId token now =>
    match s.captures executor, s.backups.find (uuidText backupId),
        beginBackupCaptureAttempt s.backups backupId token now with
    | .idle, some backup, .ok backups =>
      -- `randomUUID()` does not return a token again
      if token ∈ s.drawn then s
      else
        { s with backups := backups, drawn := token :: s.drawn }.setCapture executor
          (.begun backup token)
    | _, _, _ => s
  | .upload executor sizeBytes checksum outcome =>
    match s.captures executor with
    | .begun backup token =>
      let upload := if backup.backupTargetId.isNone then .skipped else outcome
      let capture : Capture := ⟨backup, token, sizeBytes, checksum, upload⟩
      { s with objects := capture.remoteObjectPendingCommit.toList ++ s.objects }.setCapture
        executor (.captured capture)
    | _ => s
  | .publish executor outcome now =>
    match s.captures executor with
    | .captured capture => s.publishCapture executor capture outcome now
    | _ => s
  | .reconcileCommit executor readable =>
    match s.captures executor with
    | .uncertain capture =>
      s.setCapture executor
        (if readable && !reconcileBackupCaptureCommit s.backups capture then .uncommitted capture
          else .idle)
    | _ => s
  | .compensate executor deleted =>
    match s.captures executor with
    | .uncommitted capture => s.compensateCapture executor capture deleted
    | _ => s
  | .captureFailed executor message now =>
    match s.captures executor with
    | .begun backup token | .captured ⟨backup, token, _, _, _⟩ | .failing backup token =>
      let backups := failBackupCapture s.backups backup.id token message now
      { s with backups := backups }.setCapture executor .idle
    | _ => s
  | .abandon executor => s.setCapture executor .idle
  | .job id status => { s with jobs := settleJob s.jobs id status }
  | .failBackup backupId message now =>
    let backups := failBackupOfJob s.backups backupId message now
    { s with backups := backups }
  | .attempts attempts => { s with attempts := attempts }

end BackupState

end ComposeBastion
