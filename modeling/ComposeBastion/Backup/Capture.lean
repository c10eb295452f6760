import ComposeBastion.Recovery.PointDeletion

namespace ComposeBastion

open DeletionClaim

/-!
# Backup records and capture attempts

The rows of `backups`, and the statements of `services/backups.ts` by which a capture attempt takes
a row, publishes its archive to it, or fails.

* `BackupRow` — a row of `backups`, with the keys of its `metadata` that the services look up;
* `beginBackupCaptureAttempt` — an attempt writes its token into the row;
* `publishBackupCaptureAttempt` — the transaction that makes the archive of an attempt the
  backup's, and `reconcileBackupCaptureCommit`, which asks whether it took place;
* `failBackupCapture` — the `UPDATE` of the `catch` block of a capture.
-/

/-! ### Rows -/

/-- `backups.status`. -/
inductive BackupStatus
  | queued | running | completed | partialStatus | failed
  deriving DecidableEq, Repr

/-- `backups.kind`. -/
inductive BackupKind
  | volume | hostPath
  deriving DecidableEq, Repr

/-- `buildRemoteObjectKey` of `attempts/<token>/<file name>`, in the namespace of a backup. -/
structure RemoteObjectKey where
  namespaceId : Id
  attemptToken : ClaimToken
  fileName : String
  deriving DecidableEq, Repr

/-- A row of `backups`. -/
structure BackupRow where
  id : Id
  hostId : Id
  kind : BackupKind
  fileName : String
  status : BackupStatus
  backupTargetId : Option Id
  sizeBytes : Option ℕ
  checksum : Option String
  remoteObjectKey : Option RemoteObjectKey
  error : Option String
  startedAt : Option Time
  completedAt : Option Time
  createdAt : Time
  -- keys of `metadata`
  claim : Claim ClaimToken
  captureAttemptToken : Option ClaimToken
  captureCommittedToken : Option ClaimToken
  orphanRemoteObjectKeys : List RemoteObjectKey
  scheduleId : Option Id
  deriving DecidableEq, Repr

/-- The claims on backups. -/
def backupSchema : Schema BackupRow Id ClaimToken where
  key := BackupRow.id
  claim := BackupRow.claim
  setClaim c row := { row with claim := c }
  key_setClaim _ _ := rfl
  claim_setClaim _ _ := rfl

abbrev BackupTable := Table BackupRow backupSchema.key

/-- `backupHasDeletionClaim`. -/
def backupHasDeletionClaim (row : BackupRow) : Bool := row.claim.token.isSome

/-- `backupRemoteObjectKeys`. -/
def backupRemoteObjectKeys (row : BackupRow) : List RemoteObjectKey :=
  (row.remoteObjectKey.toList ++ row.orphanRemoteObjectKeys).eraseDups

theorem mem_backupRemoteObjectKeys {row : BackupRow} {key : RemoteObjectKey} :
    key ∈ backupRemoteObjectKeys row
      ↔ row.remoteObjectKey = some key ∨ key ∈ row.orphanRemoteObjectKeys := by
  simp [backupRemoteObjectKeys, List.mem_eraseDups, Option.mem_toList]

/-! ### Beginning an attempt -/

/-- The assignments of `beginBackupCaptureAttempt`. -/
def BackupRow.beginCapture (token : ClaimToken) (now : Time) (row : BackupRow) : BackupRow :=
  { row with
    status := .running
    error := none
    startedAt := some (row.startedAt.getD now)
    captureAttemptToken := some token }

/-- `beginBackupCaptureAttempt`. -/
def beginBackupCaptureAttempt (backups : BackupTable) (backupId : Id) (token : ClaimToken)
    (now : Time) : Except String BackupTable :=
  if backups.rows.any fun row => row.id = uuidText backupId && row.claim.token.isNone then
    .ok (backups.update (fun row => row.id = uuidText backupId && row.claim.token.isNone)
      (·.beginCapture token now) fun _ => rfl)
  else .error "Backup is being deleted"

/-! ### Publishing -/

/-- What becomes of the upload of an archive: no target takes it, the object is verified, the upload
    fails and leaves no object, or it fails and leaves one behind. -/
inductive UploadOutcome
  | skipped
  | verified (remoteOnly : Bool)
  | failed (error : String)
  | orphaned (error : String)
  deriving DecidableEq, Repr

/-- What `completeBackupAfterCapture` knows when it publishes. -/
structure Capture where
  backup : BackupRow
  token : ClaimToken
  sizeBytes : ℕ
  checksum : String
  upload : UploadOutcome
  deriving DecidableEq, Repr

namespace Capture

/-- The key `uploadBackupArtifactToRemote` uploads to. -/
def key (capture : Capture) : RemoteObjectKey :=
  ⟨capture.backup.id, capture.token, capture.backup.fileName⟩

/-- `remoteObjectKey`: the locator of a verified upload. -/
def remoteObjectKey (capture : Capture) : Option RemoteObjectKey :=
  match capture.upload with
  | .verified _ => some capture.key
  | .skipped | .failed _ | .orphaned _ => none

/-- `remoteObjectPendingCommit`: the object that is lost if the transaction is. -/
def remoteObjectPendingCommit (capture : Capture) : Option RemoteObjectKey :=
  match capture.upload with
  | .verified _ | .orphaned _ => some capture.key
  | .skipped | .failed _ => none

/-- `status`. -/
def status (capture : Capture) : BackupStatus :=
  match capture.upload with
  | .skipped | .verified _ => .completed
  | .failed _ | .orphaned _ => .partialStatus

/-- `error`. -/
def error (capture : Capture) : Option String :=
  match capture.upload with
  | .skipped | .verified _ => none
  | .failed error | .orphaned error => some error

/-- `retainLocalArtifact`. -/
def retainLocalArtifact (capture : Capture) : Bool :=
  match capture.upload with
  | .verified remoteOnly => !remoteOnly
  | .skipped | .failed _ | .orphaned _ => true

/-- `metadata.orphanRemoteObjectKeys` of the row that is published. -/
def orphanRemoteObjectKeys (capture : Capture) (row : BackupRow) : List RemoteObjectKey :=
  match capture.upload with
  | .orphaned _ => (capture.backup.orphanRemoteObjectKeys ++ [capture.key]).eraseDups
  | .skipped | .verified _ | .failed _ => row.orphanRemoteObjectKeys

end Capture

/-- The assignments of `publishBackupCaptureAttempt`. -/
def Capture.commit (capture : Capture) (now : Time) (row : BackupRow) : BackupRow :=
  { row with
    status := capture.status
    sizeBytes := some capture.sizeBytes
    checksum := some capture.checksum
    remoteObjectKey := capture.remoteObjectKey
    error := capture.error
    completedAt := some now
    captureCommittedToken := some capture.token
    orphanRemoteObjectKeys := capture.orphanRemoteObjectKeys row }

/-- The row is the attempt's to publish. -/
def Capture.owns (capture : Capture) (row : BackupRow) : Bool :=
  row.id = capture.backup.id && row.captureAttemptToken = some capture.token
    && row.claim.token.isNone

/-- The transaction of `publishBackupCaptureAttempt`. -/
def publishBackupCaptureAttempt (backups : BackupTable) (capture : Capture) (now : Time) :
    Except String BackupTable :=
  match backups.find capture.backup.id with
  | none => .error ("Backup capture attempt no longer owns backup " ++ capture.backup.id)
  | some current =>
    if current.captureAttemptToken ≠ some capture.token ∨ current.claim.token.isSome then
      .error ("Backup capture attempt no longer owns backup " ++ capture.backup.id)
    else .ok (backups.update capture.owns (capture.commit now) fun _ => rfl)

/-- `reconcileBackupCaptureCommit`, once it has read the row: whether the archive of the attempt is
    the backup's. -/
def reconcileBackupCaptureCommit (backups : BackupTable) (capture : Capture) : Bool :=
  (backups.find capture.backup.id).any fun current =>
    current.captureCommittedToken = some capture.token
      && current.sizeBytes = some capture.sizeBytes && current.checksum = some capture.checksum
      && current.remoteObjectKey = capture.remoteObjectKey

/-! ### Failing -/

/-- The assignments that fail a backup. -/
def BackupRow.fail (message : String) (now : Time) (row : BackupRow) : BackupRow :=
  { row with status := .failed, error := some message, completedAt := some now }

/-- The `UPDATE` of the `catch` block of a capture. -/
def failBackupCapture (backups : BackupTable) (backupId : Id) (token : ClaimToken)
    (message : String) (now : Time) : BackupTable :=
  backups.update
    (fun row => row.id = uuidText backupId && row.captureAttemptToken = some token)
    (·.fail message now) fun _ => rfl

/-- The assignments of `recordUncommittedRemoteBackupOrphan`. -/
def BackupRow.recordOrphan (key : RemoteObjectKey) (row : BackupRow) : BackupRow :=
  { row with orphanRemoteObjectKeys := (row.orphanRemoteObjectKeys ++ [key]).eraseDups }

/-- The `UPDATE` of `recordUncommittedRemoteBackupOrphan`. -/
def recordUncommittedRemoteBackupOrphan (backups : BackupTable) (capture : Capture) :
    BackupTable :=
  backups.update
    (fun row => row.id = capture.backup.id && row.captureAttemptToken = some capture.token)
    (·.recordOrphan capture.key) fun _ => rfl

/-- What the failure of a backup job does to its backup. -/
def failBackupOfJob (backups : BackupTable) (backupId : Id) (message : String) (now : Time) :
    BackupTable :=
  backups.update
    (fun row => row.id = uuidText backupId && (row.status = .queued || row.status = .running))
    (·.fail message now) fun _ => rfl

end ComposeBastion
