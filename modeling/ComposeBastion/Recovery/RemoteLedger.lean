import ComposeBastion.Lib.Runs
import ComposeBastion.Lib.Table
import ComposeBastion.Recovery.BindMounts

namespace ComposeBastion

open Js

/-!
# The ledger of remote objects

`services/recoveryRemoteOrphans.ts` and the uploads of `services/recoveryCapture.ts`.  A capture
attempt writes an intent into the ledger before it stores an object, and the transaction that
makes the object the locator of its artifact removes the intent.  What is left over is found by the
orphan reconciler, which judges the owner of a ledger row by an unlocked read.

* `ObjectKey`, `artifactRelativePath` — what an object is called;
* `LedgerSystem` — the rows, the uploaders, the reconcilers and the objects of the backup targets;
* `LedgerSystem.advanceUpload` — the upload of one attempt, statement by statement;
* `LedgerSystem.advanceRun` — one run of `reconcileRemoteArtifactOrphans`, statement by statement.

A statement takes effect and returns, or fails, or takes effect and its result is lost.  A process
that is killed takes no further step.
-/

/-! ### Names of objects -/

/-- What an artifact of a recovery point holds. -/
inductive ArtifactSource where
  | metadata
  | composeYaml
  | envFile
  | volume (name : String)
  | hostFolder (sourcePath : String)

/-- `/[^a-zA-Z0-9_.-]/g` replaces every UTF-16 unit. -/
def sanitizeArtifactName (value : String) : String :=
  String.ofList ((value.toList.flatMap fun c =>
    if c.isAlphanum || c = '_' || c = '.' || c = '-' then [c]
    else if c.toNat < 0x10000 then ['_'] else ['_', '_']).take 120)

def bindMountArtifactName (sourcePath : String) : String :=
  let normalized := normalizeBindMountPath sourcePath
  let relative := if startsWith normalized "/" then dropChars 1 normalized else normalized
  sanitizeArtifactName (String.ofList (relative.toList.map fun c => if c = '/' then '_' else c))

def artifactRelativePath : ArtifactSource → String
  | .metadata => "manifest.json"
  | .composeYaml => "compose.yml"
  | .envFile => ".env"
  | .volume name => "volumes/" ++ sanitizeArtifactName name ++ ".tar.gz"
  | .hostFolder sourcePath => "binds/" ++ bindMountArtifactName sourcePath ++ ".tar.gz"

/-- `<point>/attempts/<token>/<storage key>` below the prefix of the target. -/
structure ObjectKey where
  recoveryPoint : ℕ
  attempt : ℕ
  storageKey : String
deriving DecidableEq

/-- An object of a backup target. -/
structure RemoteObject where
  target : ℕ
  key : ObjectKey
deriving DecidableEq

/-! ### Rows -/

/-- The status of a recovery point or of an artifact. -/
inductive CaptureStatus where
  | queued | running | completed | partly | failed
deriving DecidableEq

def CaptureStatus.unfinished : CaptureStatus → Bool
  | .queued | .running => true
  | _ => false

structure CapturePoint where
  id : ℕ
  backupTarget : ℕ
  status : CaptureStatus
  captureAttemptToken : Option ℕ
  deletionClaimed : Bool
deriving DecidableEq

/-- The locator of an artifact is `backupTarget` with `remoteObjectKey`. -/
structure CaptureArtifact where
  id : ℕ
  point : ℕ
  storageKey : String
  status : CaptureStatus
  backupTarget : Option ℕ
  remoteObjectKey : Option ObjectKey
  remoteCaptureAttemptToken : Option ℕ
  remoteVerified : Bool
deriving DecidableEq

/-- A capture job is claimed once: it is neither in `AUTO_RETRY_JOB_TYPES` nor in
    `MANUAL_RETRY_JOB_TYPES`.  `expired` is a running job whose lease has run out. -/
inductive LeasePhase where
  | queued | leased | expired | ended
deriving DecidableEq

structure CaptureJob where
  id : ℕ
  point : ℕ
  phase : LeasePhase
deriving DecidableEq

/-- `cleanup_claim_token`: the token of the intent, or that of a reconciler run. -/
inductive ClaimHolder where
  | writer
  | run (claimToken : ℕ)
deriving DecidableEq

structure LedgerClaim where
  holder : ClaimHolder
  claimedAt : ℕ
deriving DecidableEq

/-- A row of `remote_artifact_orphans` whose owner is an artifact; `(target, object key)` is
    unique.  A row that is written anew never has the claim token of a run, so that a row is
    identified by its object and its claim instead of its id. -/
structure LedgerRow where
  object : RemoteObject
  owner : ℕ
  attempt : ℕ
  claim : Option LedgerClaim
deriving DecidableEq

/-! ### Processes -/

/-- An artifact as `loadRecoveryPoint` returned it. -/
structure UploadItem where
  artifact : ℕ
  storageKey : String
deriving DecidableEq

/-- Where `runRecoveryCreate` stands, from the start of its upload on. -/
inductive UploadStage where
  | capturing
  | next
  | opening (item : UploadItem)
  | intended (item : UploadItem)
  | putting (item : UploadItem)
  | verifying (item : UploadItem)
  | committing (item : UploadItem)
  | readBack (item : UploadItem)
  | deleting (item : UploadItem)
  | clearing (item : UploadItem)
  | recording (item : UploadItem)
  | releasing (item : UploadItem)
  | marking (item : UploadItem) (orphaned : Bool)
  | evidence (item : UploadItem)
  | threw
  | uploaded
  | failing
  | ended
deriving DecidableEq

structure CaptureAttempt where
  token : ℕ
  job : ℕ
  point : ℕ
  target : ℕ
  stage : UploadStage
  todo : List UploadItem
  failures : ℕ
deriving DecidableEq

/-- `expectedRemoteObjectKey`. -/
def CaptureAttempt.object (attempt : CaptureAttempt) (item : UploadItem) : RemoteObject :=
  ⟨attempt.target, ⟨attempt.point, attempt.token, item.storageKey⟩⟩

inductive Disposition where
  | active | committed | abandoned
deriving DecidableEq

/-- Where a run of the reconciler stands in its loop. -/
inductive ReconcileStage where
  | next
  | decided (row : LedgerRow) (disposition : Disposition)
  | removing (row : LedgerRow)
  | failing (row : LedgerRow)
deriving DecidableEq

structure ReconcileRun where
  claimToken : ℕ
  stage : ReconcileStage
  todo : List LedgerRow
deriving DecidableEq

/-- How a statement ends; the effect of a `lost` one is there, but the caller sees an error. -/
inductive Reply where
  | done | failed | lost
deriving DecidableEq

def Reply.applied : Reply → Bool
  | .failed => false
  | _ => true

/-- The database, the processes and the objects; `reclaimed` are the objects that a reconciler has
    deleted. -/
structure LedgerSystem where
  points : Table CapturePoint (·.id)
  artifacts : Table CaptureArtifact (·.id)
  jobs : Table CaptureJob (·.id)
  attempts : Table CaptureAttempt (·.token)
  ledger : Table LedgerRow (·.object)
  runs : Table ReconcileRun (·.claimToken)
  objects : List RemoteObject
  reclaimed : List RemoteObject
  now : ℕ

namespace LedgerSystem

def initial : LedgerSystem := ⟨∅, ∅, ∅, ∅, ∅, ∅, [], [], 0⟩

/-! ### The point and its job -/

/-- The lease of the job is active. -/
def leased (s : LedgerSystem) (job : ℕ) : Bool :=
  (s.jobs.find job).any (·.phase = .leased)

/-- `metadata->>'captureAttemptToken' = token`. -/
def ownedBy (s : LedgerSystem) (point token : ℕ) : Bool :=
  (s.points.find point).any (·.captureAttemptToken = some token)

/-- The checks of `withRecoveryCaptureAttemptLock`, with those of `withActiveLease` around them. -/
def attemptLock (s : LedgerSystem) (attempt : CaptureAttempt) : Bool :=
  s.leased attempt.job && (s.points.find attempt.point).any fun point =>
    point.captureAttemptToken = some attempt.token && !point.deletionClaimed

/-- A job of the point is queued or running. -/
def busy (s : LedgerSystem) (point : ℕ) : Bool :=
  s.jobs.rows.any fun job => job.point = point && job.phase ≠ .ended

/-- The status of a point, `WHERE` the condition holds. -/
def setStatus (s : LedgerSystem) (point : ℕ) (p : CapturePoint → Bool) (status : CaptureStatus) :
    LedgerSystem :=
  { s with
      points := s.points.update (fun row => row.id = point && p row)
        (fun row => { row with status := status }) fun _ => rfl }

/-- `finalizeLinkedOperationFailure` of a capture job. -/
def failLinked (s : LedgerSystem) (point : ℕ) : LedgerSystem :=
  { s.setStatus point (·.status.unfinished) .failed with
      artifacts := s.artifacts.update (fun row => row.point = point && row.status.unfinished)
        (fun row => { row with status := .failed }) fun _ => rfl }

def endJob (s : LedgerSystem) (job : CaptureJob) : LedgerSystem :=
  { s with jobs := s.jobs.upsert { job with phase := .ended } }

/-- A queued artifact without a locator, in a table that has no artifact of this id. -/
def addArtifact (s : LedgerSystem) (id point : ℕ) (source : ArtifactSource)
    (backupTarget : Option ℕ) : LedgerSystem :=
  { s with
      artifacts := s.artifacts.insert
        ⟨id, point, artifactRelativePath source, .queued, backupTarget, none, none, false⟩ }

/-! ### Statements on the ledger -/

/-- `beginRemoteArtifactWriteIntent` and `recordRemoteArtifactOrphan`; nothing when the row of the
    object belongs to a different owner or attempt. -/
def writeIntent (s : LedgerSystem) (row : LedgerRow) : Option LedgerSystem :=
  if (s.ledger.find row.object).all fun old => old.owner = row.owner && old.attempt = row.attempt
  then some { s with ledger := s.ledger.upsert row } else none

/-- The row that `clearRemoteArtifactWriteIntent` and `releaseRemoteArtifactWriteIntent` name. -/
def names (attempt : CaptureAttempt) (item : UploadItem) (row : LedgerRow) : Bool :=
  row.object = attempt.object item && row.owner = item.artifact && row.attempt = attempt.token

def clearIntent (s : LedgerSystem) (attempt : CaptureAttempt) (item : UploadItem) : LedgerSystem :=
  { s with ledger := s.ledger.delete (names attempt item) }

def releaseIntent (s : LedgerSystem) (attempt : CaptureAttempt) (item : UploadItem) :
    LedgerSystem :=
  { s with
      ledger := s.ledger.update (names attempt item) (fun row => { row with claim := none })
        fun _ => rfl }

/-! ### Statements on the artifacts -/

/-- The transaction that commits the locator and clears the intent. -/
def commitLocator (s : LedgerSystem) (attempt : CaptureAttempt) (item : UploadItem) :
    Option LedgerSystem :=
  match s.artifacts.find item.artifact with
  | none => none
  | some artifact =>
    if s.attemptLock attempt && s.ownedBy artifact.point attempt.token &&
        (s.ledger.find (attempt.object item)).any (names attempt item) then
      some
        { s.clearIntent attempt item with
            artifacts := s.artifacts.upsert
              { artifact with
                  backupTarget := some attempt.target
                  remoteObjectKey := some (attempt.object item).key
                  remoteCaptureAttemptToken := some attempt.token
                  remoteVerified := true } }
    else none

/-- What the read after a failed commit looks for. -/
def locatorCommitted (s : LedgerSystem) (attempt : CaptureAttempt) (item : UploadItem) : Bool :=
  (s.artifacts.find item.artifact).any fun artifact =>
    artifact.backupTarget = some attempt.target &&
      artifact.remoteObjectKey = some (attempt.object item).key &&
      artifact.remoteCaptureAttemptToken = some attempt.token && artifact.remoteVerified

/-- `failureSql` of the upload loop. -/
def markFailed (s : LedgerSystem) (attempt : CaptureAttempt) (item : UploadItem)
    (orphaned : Bool) : Option LedgerSystem :=
  match s.artifacts.find item.artifact with
  | none => none
  | some artifact =>
    if s.ownedBy artifact.point attempt.token then
      some
        { s with
            artifacts := s.artifacts.upsert
              { artifact with
                  backupTarget := if orphaned then some attempt.target else artifact.backupTarget
                  remoteVerified := false } }
    else none

/-- The update of all completed artifacts when the upload has thrown. -/
def markAllFailed (s : LedgerSystem) (attempt : CaptureAttempt) : Option LedgerSystem :=
  let matched (artifact : CaptureArtifact) : Bool :=
    artifact.point = attempt.point && artifact.status = .completed &&
      s.ownedBy artifact.point attempt.token
  if s.artifacts.rows.any matched then
    some
      { s with
          artifacts := s.artifacts.update matched
            (fun artifact => { artifact with remoteVerified := false }) fun _ => rfl }
  else none

/-- `resolveRecoveryPointStatus`. -/
def resolveStatus (s : LedgerSystem) (attempt : CaptureAttempt) : CaptureStatus :=
  let statuses := (s.artifacts.rows.filter (·.point = attempt.point)).map (·.status)
  if statuses.contains .failed && !statuses.contains .completed then .failed
  else if statuses.contains .failed || 0 < attempt.failures then .partly
  else .completed

/-! ### The upload -/

/-- The attempt goes on at another stage. -/
def goto (s : LedgerSystem) (attempt : CaptureAttempt) (stage : UploadStage) : LedgerSystem :=
  { s with attempts := s.attempts.upsert { attempt with stage := stage } }

def putObject (s : LedgerSystem) (object : RemoteObject) : LedgerSystem :=
  { s with objects := object :: s.objects }

def deleteObject (s : LedgerSystem) (object : RemoteObject) : LedgerSystem :=
  { s with objects := s.objects.filter (· ≠ object) }

/-- The artifacts that the loop of the upload visits. -/
def uploadItems (s : LedgerSystem) (point : ℕ) : List UploadItem :=
  (s.artifacts.rows.filter fun artifact =>
    artifact.point = point && artifact.status = .completed).map fun artifact =>
      ⟨artifact.id, artifact.storageKey⟩

/-- The next statement of an attempt. -/
def advanceUpload (s : LedgerSystem) (attempt : CaptureAttempt) (reply : Reply) : LedgerSystem :=
  match attempt.stage with
  | .capturing =>
    if reply = .done then
      s.goto { attempt with todo := s.uploadItems attempt.point } .next
    else s.goto attempt .threw
  | .next =>
    match attempt.todo with
    | [] =>
      -- the summary is written under the lease and the token
      if reply = .done && s.leased attempt.job && s.ownedBy attempt.point attempt.token then
        s.goto attempt .uploaded
      else s.goto attempt .threw
    | item :: rest =>
      if reply = .done && s.leased attempt.job then
        s.goto { attempt with todo := rest } (.opening item)
      else s.goto { attempt with todo := rest } (.marking item false)
  | .opening item =>
    match s.writeIntent
        ⟨attempt.object item, item.artifact, attempt.token, some ⟨.writer, s.now⟩⟩, reply with
    | some s', .done => s'.goto attempt (.intended item)
    | some s', .lost => s'.goto attempt (.marking item false)
    | _, _ => s.goto attempt (.marking item false)
  | .intended item =>
    if reply = .done && s.leased attempt.job then s.goto attempt (.putting item)
    else s.goto attempt (.releasing item)
  | .putting item =>
    match reply with
    | .done => (s.putObject (attempt.object item)).goto attempt (.verifying item)
    -- `compensateAmbiguousUpload`
    | .lost => (s.putObject (attempt.object item)).goto attempt (.deleting item)
    | .failed => s.goto attempt (.deleting item)
  | .verifying item =>
    if reply = .done then s.goto attempt (.committing item) else s.goto attempt (.deleting item)
  | .committing item =>
    match s.commitLocator attempt item, reply with
    | some s', .done => s'.goto attempt .next
    | some s', .lost => s'.goto attempt (.readBack item)
    | _, _ => s.goto attempt (.readBack item)
  | .readBack item =>
    -- a read that fails leaves the intent to the reconciler
    if reply ≠ .done then s.goto attempt .ended
    else if s.locatorCommitted attempt item then s.goto attempt .next
    else s.goto attempt (.deleting item)
  | .deleting item =>
    match reply with
    | .done => (s.deleteObject (attempt.object item)).goto attempt (.clearing item)
    | .lost => (s.deleteObject (attempt.object item)).goto attempt (.recording item)
    | .failed => s.goto attempt (.recording item)
  | .clearing item =>
    match reply with
    | .done => (s.clearIntent attempt item).goto attempt (.marking item false)
    | .lost => (s.clearIntent attempt item).goto attempt (.recording item)
    | .failed => s.goto attempt (.recording item)
  | .recording item =>
    match s.writeIntent ⟨attempt.object item, item.artifact, attempt.token, none⟩, reply with
    | some s', .done => s'.goto attempt (.marking item true)
    | some s', .lost => s'.goto attempt .threw
    | _, _ => s.goto attempt .threw
  | .releasing item =>
    if reply.applied then (s.releaseIntent attempt item).goto attempt (.marking item false)
    else s.goto attempt (.marking item false)
  | .marking item orphaned =>
    let attempt := { attempt with failures := attempt.failures + 1 }
    let rest := if orphaned then .evidence item else .threw
    match (if s.leased attempt.job then s.markFailed attempt item orphaned else none), reply with
    | some s', .done => s'.goto attempt .next
    | some s', .lost => s'.goto attempt rest
    | _, _ => s.goto attempt rest
  | .evidence item =>
    match s.markFailed attempt item true, reply.applied with
    | some s', true => s'.goto attempt .threw
    | _, _ => s.goto attempt .threw
  | .threw =>
    match (if s.leased attempt.job then s.markAllFailed attempt else none), reply with
    | some s', .done => s'.goto { attempt with failures := 1 } .uploaded
    | some s', .lost => s'.goto attempt .failing
    | _, _ => s.goto attempt .failing
  | .uploaded =>
    if s.leased attempt.job && s.ownedBy attempt.point attempt.token && reply.applied then
      (s.setStatus attempt.point (·.captureAttemptToken = some attempt.token)
        (s.resolveStatus attempt)).goto attempt (if reply = .done then .ended else .failing)
    else s.goto attempt .failing
  | .failing =>
    -- `failureSql` is repeated without the lease
    if reply.applied then
      (s.setStatus attempt.point (·.captureAttemptToken = some attempt.token) .failed).goto attempt
        .ended
    else s.goto attempt .ended
  | .ended => s

/-! ### The reconciler -/

/-- `REMOTE_ORPHAN_CLAIM_STALE_MS`. -/
def claimStaleMs : ℕ := 5 * 60000

/-- A row that `claimRemoteArtifactOrphans` may select. -/
def claimable (s : LedgerSystem) (row : LedgerRow) : Bool :=
  row.claim.all fun claim => claim.claimedAt + claimStaleMs < s.now

/-- `claimRemoteArtifactOrphans`; `chosen` are the rows that its limit and the locks of others
    leave. -/
def claimOrphans (s : LedgerSystem) (claimToken : ℕ) (chosen : List RemoteObject) : LedgerSystem :=
  let selected (row : LedgerRow) : Bool := s.claimable row && chosen.contains row.object
  { s with
      runs := s.runs.insert ⟨claimToken, .next, s.ledger.rows.filter selected⟩
      ledger := s.ledger.update selected
        (fun row => { row with claim := some ⟨.run claimToken, s.now⟩ }) fun _ => rfl }

/-- `remoteArtifactOwnerDisposition`. -/
def disposition (s : LedgerSystem) (row : LedgerRow) : Disposition :=
  match s.artifacts.find row.owner with
  | none => .abandoned
  | some artifact =>
    match s.points.find artifact.point with
    | none => .abandoned
    | some point =>
      if artifact.backupTarget = some row.object.target &&
          artifact.remoteObjectKey = some row.object.key &&
          artifact.remoteCaptureAttemptToken = some row.attempt && artifact.remoteVerified then
        .committed
      else if point.status = .running && point.captureAttemptToken = some row.attempt &&
          !point.deletionClaimed then .active
      else .abandoned

/-- The row of the object, as long as the run has its claim. -/
def claims (run : ReconcileRun) (row : LedgerRow) (current : LedgerRow) : Bool :=
  current.object = row.object && current.claim.any (·.holder = .run run.claimToken)

def claimed (s : LedgerSystem) (run : ReconcileRun) (row : LedgerRow) : Bool :=
  s.ledger.rows.any (claims run row)

/-- `deleteClaimedRemoteArtifactLedger`. -/
def deleteClaimed (s : LedgerSystem) (run : ReconcileRun) (row : LedgerRow) : LedgerSystem :=
  { s with ledger := s.ledger.delete (claims run row) }

/-- `deferActiveRemoteArtifactIntent` sets the time of the claim, the handler of an error removes
    the claim. -/
def setClaim (s : LedgerSystem) (run : ReconcileRun) (row : LedgerRow)
    (claim : Option LedgerClaim) : LedgerSystem :=
  { s with
      ledger := s.ledger.update (claims run row) (fun row => { row with claim := claim })
        fun _ => rfl }

def gotoRun (s : LedgerSystem) (run : ReconcileRun) (stage : ReconcileStage) : LedgerSystem :=
  { s with runs := s.runs.upsert { run with stage := stage } }

/-- The loop goes on when the statement has found its row, and else handles the error. -/
def afterClaimed (s : LedgerSystem) (run : ReconcileRun) (row : LedgerRow) (reply : Reply) :
    ReconcileStage :=
  if s.claimed run row && reply = .done then .next else .failing row

/-- The next statement of a run of `reconcileRemoteArtifactOrphans`. -/
def advanceRun (s : LedgerSystem) (run : ReconcileRun) (reply : Reply) : LedgerSystem :=
  match run.stage with
  | .next =>
    match run.todo with
    | [] => s
    | row :: rest =>
      if reply = .done then
        s.gotoRun { run with todo := rest } (.decided row (s.disposition row))
      else s.gotoRun { run with todo := rest } (.failing row)
  | .decided row .active =>
    (if reply.applied then s.setClaim run row (some ⟨.run run.claimToken, s.now⟩) else s).gotoRun
      run (s.afterClaimed run row reply)
  | .decided row .committed =>
    (if reply.applied then s.deleteClaimed run row else s).gotoRun run
      (s.afterClaimed run row reply)
  | .decided row .abandoned =>
    let deleted := { s.deleteObject row.object with reclaimed := row.object :: s.reclaimed }
    match reply with
    | .done => deleted.gotoRun run (.removing row)
    | .lost => deleted.gotoRun run (.failing row)
    | .failed => s.gotoRun run (.failing row)
  | .removing row =>
    (if reply.applied then s.deleteClaimed run row else s).gotoRun run
      (s.afterClaimed run row reply)
  | .failing row =>
    (if reply.applied then s.setClaim run row none else s).gotoRun run .next

end LedgerSystem

/-! ### The steps -/

/-- What can happen.  New ids and tokens are fresh. -/
inductive LedgerOp where
  | createPoint (point backupTarget : ℕ)
  | planArtifact (point artifact : ℕ) (source : ArtifactSource)
  | enqueueCapture (job point : ℕ)
  | claimJob (job : ℕ)
  | expireLease (job : ℕ)
  | recoverExpiredJob (job : ℕ)
  | failJob (job : ℕ)
  | completeJob (job : ℕ)
  | cancelQueuedJob (job : ℕ)
  | claimDeletion (point : ℕ)
  | startCapture (token job : ℕ)
  | insertArtifact (token artifact : ℕ) (source : ArtifactSource)
  | setArtifactStatus (token artifact : ℕ) (status : CaptureStatus)
  | captureThrows (token : ℕ)
  | upload (token : ℕ) (reply : Reply)
  | claimOrphans (claimToken : ℕ) (chosen : List RemoteObject)
  | reconcile (claimToken : ℕ) (reply : Reply)
  | tick

namespace LedgerSystem

/-- The job moves on from one phase. -/
def withJob (s : LedgerSystem) (job : ℕ) (phase : LeasePhase)
    (next : CaptureJob → LedgerSystem) : LedgerSystem :=
  match s.jobs.find job with
  | none => s
  | some row => if row.phase = phase then next row else s

/-- A statement of an attempt that is at this stage. -/
def withAttempt (s : LedgerSystem) (token : ℕ) (next : CaptureAttempt → LedgerSystem) :
    LedgerSystem :=
  match s.attempts.find token with
  | none => s
  | some attempt => next attempt

/-- The `UPDATE` that begins `runRecoveryCreate`. -/
def startCapture (s : LedgerSystem) (token : ℕ) (job : CaptureJob) : LedgerSystem :=
  match s.points.find job.point with
  | none => s
  | some point =>
    if point.deletionClaimed then s
    else
      { s with
          points := s.points.upsert
            { point with status := .running, captureAttemptToken := some token }
          attempts := s.attempts.insert
            ⟨token, job.id, point.id, point.backupTarget, .capturing, [], 0⟩ }

/-- One step of the system. -/
def step (s : LedgerSystem) : LedgerOp → LedgerSystem
  | .createPoint point backupTarget =>
    { s with points := s.points.insert ⟨point, backupTarget, .queued, none, false⟩ }
  | .planArtifact point artifact source =>
    match s.points.find point with
    | none => s
    | some row => s.addArtifact artifact point source (some row.backupTarget)
  | .enqueueCapture job point =>
    match s.points.find point with
    | none => s
    | some row =>
      if row.deletionClaimed || s.busy point then s
      else { s with jobs := s.jobs.insert ⟨job, point, .queued⟩ }
  | .claimJob job => s.withJob job .queued fun row =>
      { s with jobs := s.jobs.upsert { row with phase := .leased } }
  | .expireLease job => s.withJob job .leased fun row =>
      { s with jobs := s.jobs.upsert { row with phase := .expired } }
  | .recoverExpiredJob job => s.withJob job .expired fun row =>
      (s.endJob row).failLinked row.point
  | .failJob job => s.withJob job .leased fun row => (s.endJob row).failLinked row.point
  | .completeJob job => s.withJob job .leased s.endJob
  | .cancelQueuedJob job => s.withJob job .queued fun row => (s.endJob row).failLinked row.point
  | .claimDeletion point =>
    match s.points.find point with
    | none => s
    | some row =>
      if row.status.unfinished || row.deletionClaimed || s.busy point then s
      else { s with points := s.points.upsert { row with deletionClaimed := true } }
  | .startCapture token job =>
    match s.attempts.find token with
    | some _ => s
    | none => s.withJob job .leased (s.startCapture token)
  | .insertArtifact token artifact source => s.withAttempt token fun attempt =>
      if s.attemptLock attempt then s.addArtifact artifact attempt.point source none else s
  | .setArtifactStatus token artifact status => s.withAttempt token fun attempt =>
      if s.attemptLock attempt then
        { s with
            artifacts := s.artifacts.update
              (fun row => row.id = artifact && s.ownedBy row.point token)
              (fun row => { row with status := status }) fun _ => rfl }
      else s
  | .captureThrows token => s.withAttempt token fun attempt =>
      if attempt.stage = .capturing then s.goto attempt .failing else s
  | .upload token reply => s.withAttempt token fun attempt => s.advanceUpload attempt reply
  | .claimOrphans claimToken chosen =>
    match s.runs.find claimToken with
    | some _ => s
    | none => s.claimOrphans claimToken chosen
  | .reconcile claimToken reply =>
    match s.runs.find claimToken with
    | none => s
    | some run => s.advanceRun run reply
  | .tick => { s with now := s.now + 60000 }

end LedgerSystem

end ComposeBastion
