import ComposeBastion.Lib.DeletionClaim
import ComposeBastion.Lib.Runs
import ComposeBastion.Recovery.RestoreAttempts

namespace ComposeBastion

open Runs DeletionClaim

/-!
# Deleting recovery points

`services/recoveryPointDelete.ts` and the operations on a recovery point in
`services/recoveryCenter.ts`.  A deletion claims the row in one transaction, removes the remote and
the local artifacts, and removes the row in another; every transaction locks the row of the point,
and is one step here.

* `deleteRecoveryPoint`, `reconcileClaimedRecoveryPointDeletions`,
  `finishClaimedRecoveryPointDeletion` — the transactions of the deleters;
* `enqueueRecoveryPointOperation`, `enqueueRecoveryDrill`, `startMigrationExecute` — the operations
  that are admitted on a point;
* `PointState.step` — deleters, reconcilers and operations, interleaved;
* `point_deletion_claims` — who removes a point, and what is active when one is claimed.
-/

/-! ### Recovery points -/

/-- `recovery_points.status`. -/
inductive PointStatus
  | queued | running | completed | partialStatus | failed
  deriving DecidableEq, Repr

/-- A token `uuid()` returns. -/
abbrev ClaimToken := { token : Id // token ≠ "" }

/-- A row of `recovery_points`, as far as deletion and admission read it. -/
structure PointRow where
  id : Id
  hostId : Id
  status : PointStatus
  migrationRunId : Option Id
  claim : Claim ClaimToken
  deriving DecidableEq, Repr

/-- The claims on recovery points. -/
def pointSchema : Schema PointRow Id ClaimToken where
  key := PointRow.id
  claim := PointRow.claim
  setClaim c row := { row with claim := c }
  key_setClaim _ _ := rfl
  claim_setClaim _ _ := rfl

abbrev PointTable := Table PointRow pointSchema.key

/-- `recoveryPointHasDeletionClaim`. -/
def recoveryPointHasDeletionClaim (row : PointRow) : Bool := row.claim.token.isSome

/-- `RECOVERY_POINT_DELETION_RECONCILIATION_QUIESCENCE_MS`. -/
def pointDeletionQuiescence : Time := seconds (11 * 60)

/-! ### The tables around them -/

/-- `payload->>'recoveryPointId'`. -/
def payloadRecoveryPointId : ActionPayload → Option Id
  | .recoveryCreate id | .recoveryCapture id | .recoveryVerify id | .recoveryRestore id _ => some id
  | _ => none

/-- `payload->>'migrationRunId'`. -/
def payloadMigrationRunId : ActionPayload → Option Id
  | .migrationExecute id => some id
  | _ => none

/-- Where a deleter stands: its claim, and whether it has removed the remote and the local
    artifacts. -/
inductive DeleterPhase
  | idle
  | claimed (deletion : Deletion Id ClaimToken)
  | remoteRemoved (deletion : Deletion Id ClaimToken)
  | localRemoved (deletion : Deletion Id ClaimToken)
  deriving DecidableEq, Repr

/-- The claim a deleter works under. -/
def DeleterPhase.deletion : DeleterPhase → Option (Deletion Id ClaimToken)
  | idle => none
  | claimed d | remoteRemoved d | localRemoved d => some d

/-- A deleter, with the claims it has taken over and not begun. -/
structure Deleter where
  queue : List (Deletion Id ClaimToken)
  phase : DeleterPhase
  deriving DecidableEq, Repr

/-- The tables, and the deleters. -/
structure PointState where
  points : PointTable
  jobs : JobTable
  migrations : List MigrationLink
  attempts : AttemptTable
  deleters : ℕ → Deleter

/-! ### Deleting -/

/-- The active operations a deletion looks for, under the id its caller has spelled. -/
def hasActiveOperation (s : PointState) (id : Id) (row : PointRow) : Bool :=
  s.jobs.rows.any fun job => job.status.active
    && (payloadRecoveryPointId job.payload = some id
      || s.migrations.any fun run => some run.id = payloadMigrationRunId job.payload
          && (run.recoveryPointId = some (uuidText id) || some run.id = row.migrationRunId))

/-- A restore attempt of the point that has no disposition. -/
def hasPendingAttempt (s : PointState) (id : Id) : Bool :=
  s.attempts.rows.any fun attempt =>
    attempt.recoveryPointId = some (uuidText id) && attempt.status.nonTerminal

/-- The transaction of `deleteRecoveryPoint`: the refusals, and the claim. -/
def deleteRecoveryPoint (s : PointState) (id : Id) (token : ClaimToken) (now : Time) :
    Except String (Option PointTable) :=
  match s.points.find (uuidText id) with
  | none => .ok none
  | some row =>
    if row.status = .queued ∨ row.status = .running then
      .error "A queued or running recovery point cannot be deleted"
    else if recoveryPointHasDeletionClaim row then
      .error ("A recovery point deletion claim already exists; reconciliation is required before "
        ++ "another deletion attempt")
    else if hasActiveOperation s id row then
      .error "A recovery point with an active operation cannot be deleted"
    else if hasPendingAttempt s id then
      .error "A recovery point with an active or unreconciled restore attempt cannot be deleted"
    else .ok (some (take pointSchema s.points (uuidText id) token now))

/-- The last transaction of `finishClaimedRecoveryPointDeletion`. -/
def finishRecoveryPointDeletion (s : PointState) (d : Deletion Id ClaimToken) :
    Except String (Option PointState) :=
  match s.points.find d.key with
  | none => .ok none
  | some row =>
    if !owns pointSchema d row then .ok none
    else if hasPendingAttempt s d.key then
      .error "Recovery point deletion was interrupted by an active restore attempt"
    else
      let attempts := s.attempts.delete fun attempt =>
        attempt.recoveryPointId = some (uuidText d.key) && !attempt.status.nonTerminal
      .ok (some { s with attempts := attempts, points := finish pointSchema s.points d })

/-- The claim of one row by `reconcileClaimedRecoveryPointDeletions`. -/
def reconcileDeletion (s : PointState) (now : Time) (id : Id) (reconciliationToken : ClaimToken) :
    Option (PointTable × Deletion Id ClaimToken) :=
  match s.points.find id with
  | none => none
  | some row =>
    if lapsed pointSchema pointDeletionQuiescence now row && !hasActiveOperation s row.id row
        && !hasPendingAttempt s row.id then
      row.claim.token.map fun token =>
        (takeOver pointSchema s.points id token reconciliationToken now,
          ⟨id, token, some reconciliationToken⟩)
    else none

/-- The transaction of `reconcileClaimedRecoveryPointDeletions`, over the rows it has locked. -/
def reconcileClaimedRecoveryPointDeletions (now : Time) :
    List (Id × ClaimToken) → PointState → PointState × List (Deletion Id ClaimToken)
  | [], s => (s, [])
  | (id, token) :: rest, s =>
    match reconcileDeletion s now id token with
    | none => reconcileClaimedRecoveryPointDeletions now rest s
    | some (points, d) =>
      let claimed := reconcileClaimedRecoveryPointDeletions now rest { s with points := points }
      (claimed.1, d :: claimed.2)

/-! ### Operations on a point -/

/-- The operations of `enqueueRecoveryPointOperation` and `enqueueRecoveryDrill`. -/
inductive PointOperation
  | create (hostId : Id)
  | verify
  | restore (targetHostId : Id)
  | drill

/-- The host and the payload of the job of an operation. -/
def PointOperation.action (recoveryPointId : Id) :
    PointOperation → PointRow → Except String (Id × ActionPayload)
  | create hostId, row =>
    if row.hostId ≠ hostId then .error "Recovery point host does not match the requested host"
    else .ok (row.hostId, .recoveryCreate recoveryPointId)
  | verify, row => .ok (row.hostId, .recoveryVerify recoveryPointId)
  | restore targetHostId, _ => .ok (targetHostId, .recoveryRestore recoveryPointId false)
  | drill, row => .ok (row.hostId, .recoveryRestore recoveryPointId true)

/-- A request for an operation on a recovery point; a migration comes with what its plan fixes, and
    with whether the plan and the point are of the same application. -/
inductive PointRequest
  | operation (recoveryPointId : Id) (operation : PointOperation)
  | migrate (recoveryPointId : Option Id) (sourceHostId targetHostId : Id) (sameApp : Bool)
      (runId : Id)

/-- A new row of `operation_jobs`. -/
def queuedJob (id : Id) (hostId : Id) (payload : ActionPayload) (now : Time) : JobRow where
  id := id
  hostId := some hostId
  payload := payload
  recoveryScopes := none
  status := .queued
  result := none
  error := none
  attemptCount := 0
  leaseOwner := none
  leaseExpiresAt := none
  idempotencyKey := none
  createdAt := now
  updatedAt := now
  startedAt := none
  completedAt := none

/-- `enqueueRecoveryPointOperation` and `enqueueRecoveryDrill`: the row is locked and must not be
    claimed; `admission` is what becomes of the other admission checks. -/
def enqueueRecoveryPointOperation (s : PointState) (recoveryPointId : Id)
    (operation : PointOperation) (admission : Except String Unit) (jobId : Id) (now : Time) :
    Except String (Option JobTable) :=
  match s.points.find (uuidText recoveryPointId) with
  | none => .ok none
  | some row =>
    if recoveryPointHasDeletionClaim row then
      .error "A recovery point being deleted cannot accept new operations"
    else match operation.action recoveryPointId row, admission with
      | .error error, _ => .error error
      | _, .error error => .error error
      | .ok (hostId, payload), .ok _ =>
        .ok (some (s.jobs.insert (queuedJob jobId hostId payload now)))

/-- The check of `startMigrationExecute` of the recovery point it is given. -/
def migrationPointUsable (s : PointState) (recoveryPointId : Option Id) (sourceHostId : Id)
    (sameApp : Bool) : Bool :=
  match recoveryPointId with
  | none => true
  | some id => (s.points.find (uuidText id)).any fun point =>
      point.hostId = sourceHostId
        && (point.status = .completed || point.status = .partialStatus)
        && point.migrationRunId.isNone && !recoveryPointHasDeletionClaim point && sameApp

/-- The transaction of `startMigrationExecute`, from the check of the point on. -/
def startMigrationExecute (s : PointState) (recoveryPointId : Option Id)
    (sourceHostId targetHostId : Id) (sameApp : Bool) (runId : Id)
    (admission : Except String Unit) (jobId : Id) (now : Time) : Except String PointState :=
  if migrationPointUsable s recoveryPointId sourceHostId sameApp then
    match admission with
    | .error error => .error error
    | .ok _ =>
      if s.migrations.any fun run => run.id = uuidText runId then
        .error "duplicate key value violates unique constraint \"migration_runs_pkey\""
      else
      let run : MigrationLink :=
        ⟨uuidText runId, uuidText targetHostId, recoveryPointId.map uuidText⟩
      .ok { s with
        migrations := run :: s.migrations
        jobs := s.jobs.insert
          (queuedJob jobId sourceHostId (.migrationExecute (uuidText runId)) now) }
  else
    .error "Supplied recovery point is unavailable or does not match the reviewed source application."

/-- The state after a request. -/
def requestOperation (s : PointState) (admission : Except String Unit) (jobId : Id) (now : Time) :
    PointRequest → PointState
  | .operation recoveryPointId operation =>
    match enqueueRecoveryPointOperation s recoveryPointId operation admission jobId now with
    | .ok (some jobs) => { s with jobs := jobs }
    | .ok none | .error _ => s
  | .migrate recoveryPointId sourceHostId targetHostId sameApp runId =>
    match startMigrationExecute s recoveryPointId sourceHostId targetHostId sameApp runId admission
        jobId now with
    | .ok s' => s'
    | .error _ => s

/-! ### The system -/

/-- An executor, or the expiry of its lease, changes the status of an active job. -/
def settleJob (jobs : JobTable) (id : Id) (status : JobStatus) : JobTable :=
  jobs.update (fun job => job.id = id && job.status.active)
    (fun job => { job with status := status }) fun _ => rfl

theorem mem_settleJob {jobs : JobTable} {id : Id} {status : JobStatus} {job : JobRow}
    (h : job ∈ settleJob jobs id status) :
    ∃ job₀ ∈ jobs, job.id = job₀.id ∧ job.payload = job₀.payload := by
  obtain ⟨job₀, hjob₀, rfl⟩ := (@Table.mem_update _ _ _ jobs _
    (fun job => { job with status := status }) (fun _ => rfl) _).mp h
  refine ⟨job₀, hjob₀, ?_⟩
  split <;> exact ⟨rfl, rfl⟩

/-- What a deleter, a reconciler or another client does next. -/
inductive PointOp
  | delete (worker : ℕ) (id : Id) (token : ClaimToken) (now : Time)
  | heartbeat (worker : ℕ) (now : Time)
  | removeRemote (worker : ℕ)
  | removeLocal (worker : ℕ)
  | finish (worker : ℕ)
  | fail (worker : ℕ)
  | reconcile (worker : ℕ) (now : Time) (selected : List (Id × ClaimToken))
  | next (worker : ℕ)
  | request (request : PointRequest) (admission : Except String Unit) (jobId : Id) (now : Time)
  -- what executors do meanwhile
  | job (id : Id) (status : JobStatus)
  | point (id : Id) (status : PointStatus) (migrationRunId : Option Id)
  | linkMigration (runId recoveryPointId : Id)
  | attempts (attempts : AttemptTable)

namespace PointState

/-- A deleter moves. -/
def setPhase (s : PointState) (worker : ℕ) (phase : DeleterPhase) : PointState :=
  { s with deleters :=
      Function.update s.deleters worker { s.deleters worker with phase := phase } }

/-- One step. -/
def step (s : PointState) : PointOp → PointState
  | .delete worker id token now =>
    match (s.deleters worker).phase, deleteRecoveryPoint s id token now with
    | .idle, .ok (some points) =>
      { s with points := points }.setPhase worker (.claimed ⟨uuidText id, token, none⟩)
    | _, _ => s
  | .heartbeat worker now =>
    match (s.deleters worker).phase.deletion with
    | some d => { s with points := DeletionClaim.heartbeat pointSchema s.points d now }
    | none => s
  | .removeRemote worker =>
    match (s.deleters worker).phase with
    | .claimed d => s.setPhase worker (.remoteRemoved d)
    | _ => s
  | .removeLocal worker =>
    match (s.deleters worker).phase with
    | .remoteRemoved d => s.setPhase worker (.localRemoved d)
    | _ => s
  | .finish worker =>
    match (s.deleters worker).phase with
    | .localRemoved d =>
      match finishRecoveryPointDeletion s d with
      | .ok (some s') => s'.setPhase worker .idle
      | .ok none | .error _ => s.setPhase worker .idle
    | _ => s
  | .fail worker => s.setPhase worker .idle
  | .reconcile worker now selected =>
    match s.deleters worker with
    | ⟨[], .idle⟩ =>
      let claimed := reconcileClaimedRecoveryPointDeletions now selected s
      { claimed.1 with
        deleters := Function.update claimed.1.deleters worker ⟨claimed.2, .idle⟩ }
    | _ => s
  | .next worker =>
    match s.deleters worker with
    | ⟨d :: queue, .idle⟩ =>
      { s with deleters := Function.update s.deleters worker ⟨queue, .claimed d⟩ }
    | _ => s
  | .request request admission jobId now => requestOperation s admission jobId now request
  | .job id status =>
    { s with jobs := settleJob s.jobs id status }
  | .point id status migrationRunId =>
    -- `migration_run_id` is a foreign key
    if migrationRunId.all fun runId => s.migrations.any fun run => run.id = runId then
      let points := s.points.update (fun row => row.id = id)
        (fun row => { row with status := status, migrationRunId := migrationRunId }) fun _ => rfl
      { s with points := points }
    else s
  | .linkMigration runId recoveryPointId =>
    let migrations := s.migrations.map fun run =>
      if run.id = runId then { run with recoveryPointId := some (uuidText recoveryPointId) }
      else run
    { s with migrations := migrations }
  | .attempts attempts => { s with attempts := attempts }

/-- No job has been queued, and no deletion begun. -/
def initial (points : PointTable) (migrations : List MigrationLink) (attempts : AttemptTable) :
    PointState :=
  ⟨points, ∅, migrations, attempts, fun _ => ⟨[], .idle⟩⟩

/-! ### What is claimed about them -/

/-- The job is an operation on the point: its own, or that of a migration of the point. -/
def Concerns (s : PointState) (row : PointRow) (job : JobRow) : Prop :=
  (payloadRecoveryPointId job.payload).map uuidText = some row.id
    ∨ ∃ run ∈ s.migrations, (payloadMigrationRunId job.payload).map uuidText = some run.id
        ∧ (run.recoveryPointId = some row.id ∨ row.migrationRunId = some run.id)

/-- What a step does to the points and the jobs: a point is removed only under its current claim,
    no operation is admitted on a claimed point, and no point is claimed while an operation or a
    restore attempt of it is active. -/
structure Protocol (s : PointState) (op : PointOp) : Prop where
  removed : ∀ row ∈ s.points, (s.step op).points.find row.id = none →
    ∃ worker d, op = .finish worker ∧ (s.deleters worker).phase.deletion = some d
      ∧ d.key = row.id ∧ row.claim.token = some d.token
      ∧ row.claim.reconciliationToken = d.reconciliationToken
  admitted : ∀ row ∈ s.points, row.claim.token.isSome = true → ∀ job ∈ (s.step op).jobs,
    s.jobs.find job.id = none → ¬ (s.step op).Concerns row job
  claimed : ∀ row ∈ s.points, row.claim.token = none → ∀ row',
    (s.step op).points.find row.id = some row' → row'.claim.token.isSome = true →
      (∀ job ∈ s.jobs, job.status.active = true → ¬ s.Concerns row job)
        ∧ ∀ attempt ∈ s.attempts, attempt.recoveryPointId = some row.id →
            attempt.status.nonTerminal = false

/-- The ids of a request are spelled as the database prints them. -/
def SpelledAsStored (_ : PointState) : PointOp → Prop
  | .delete _ id _ _ => uuidText id = id
  | .request (.operation id _) _ _ _ => uuidText id = id
  | _ => True

/-! ### What steps do to the points -/

/-- The rows of migrations that points name exist. -/
def Linked (s : PointState) : Prop :=
  ∀ row ∈ s.points, ∀ id, row.migrationRunId = some id → ∃ run ∈ s.migrations, run.id = id

/-- Every point is still there, and one that was not claimed still is not. -/
def PointsKept (t t' : PointTable) : Prop :=
  ∀ row ∈ t, ∃ row' ∈ t', row'.id = row.id ∧ (row.claim.token = none → row'.claim.token = none)

/-- The points name no other migrations. -/
def RunsKept (t t' : PointTable) : Prop :=
  ∀ row' ∈ t', ∃ row ∈ t, row'.migrationRunId = row.migrationRunId

theorem PointsKept.refl (t : PointTable) : PointsKept t t := fun row hrow =>
  ⟨row, hrow, rfl, fun h => h⟩

theorem RunsKept.refl (t : PointTable) : RunsKept t t := fun row hrow => ⟨row, hrow, rfl⟩

theorem PointsKept.trans {t t' t'' : PointTable} (h : PointsKept t t') (h' : PointsKept t' t'') :
    PointsKept t t'' := by
  intro row hrow
  obtain ⟨row', hrow', hid, hclaim⟩ := h row hrow
  obtain ⟨row'', hrow'', hid', hclaim'⟩ := h' row' hrow'
  exact ⟨row'', hrow'', hid'.trans hid, fun hnone => hclaim' (hclaim hnone)⟩

theorem RunsKept.trans {t t' t'' : PointTable} (h : RunsKept t t') (h' : RunsKept t' t'') :
    RunsKept t t'' := by
  intro row'' hrow''
  obtain ⟨row', hrow', hrun'⟩ := h' row'' hrow''
  obtain ⟨row, hrow, hrun⟩ := h row' hrow'
  exact ⟨row, hrow, hrun'.trans hrun⟩

/-- An `UPDATE` that claims no row it meets without a claim. -/
theorem pointsKept_update {t : PointTable} {p : PointRow → Bool} {f : PointRow → PointRow}
    {hf : ∀ r, pointSchema.key (f r) = pointSchema.key r}
    (h : ∀ row, p row = true → row.claim.token = none → (f row).claim.token = none) :
    PointsKept t (t.update p f hf) := by
  intro row hrow
  refine ⟨if p row then f row else row, Table.mem_update.mpr ⟨row, hrow, rfl⟩, ?_, ?_⟩
  · split
    · exact hf row
    · rfl
  · intro hnone
    split
    · rename_i hp
      exact h row hp hnone
    · exact hnone

theorem runsKept_update {t : PointTable} {p : PointRow → Bool} {f : PointRow → PointRow}
    {hf : ∀ r, pointSchema.key (f r) = pointSchema.key r}
    (h : ∀ row, (f row).migrationRunId = row.migrationRunId) : RunsKept t (t.update p f hf) := by
  intro row' hrow'
  obtain ⟨row, hrow, rfl⟩ := Table.mem_update.mp hrow'
  refine ⟨row, hrow, ?_⟩
  split
  · exact h row
  · rfl

theorem token_of_owns {d : Deletion Id ClaimToken} {row : PointRow}
    (h : owns pointSchema d row = true) : row.id = d.key ∧ row.claim.token = some d.token
      ∧ row.claim.reconciliationToken = d.reconciliationToken := by
  simp only [owns, Bool.and_eq_true, decide_eq_true_eq] at h
  exact ⟨h.1.1, h.1.2, h.2⟩

theorem pointsKept_heartbeat (t : PointTable) (d : Deletion Id ClaimToken) (now : Time) :
    PointsKept t (DeletionClaim.heartbeat pointSchema t d now) := by
  refine pointsKept_update fun row hp hnone => ?_
  rw [(token_of_owns hp).2.1] at hnone
  cases hnone

theorem runsKept_heartbeat (t : PointTable) (d : Deletion Id ClaimToken) (now : Time) :
    RunsKept t (DeletionClaim.heartbeat pointSchema t d now) :=
  runsKept_update fun _ => rfl

theorem pointsKept_takeOver (t : PointTable) (id : Id) (token token' : ClaimToken) (now : Time) :
    PointsKept t (takeOver pointSchema t id token token' now) := by
  refine pointsKept_update fun row hp hnone => ?_
  simp only [Bool.and_eq_true, decide_eq_true_eq] at hp
  have htoken : row.claim.token = some token := hp.2
  rw [htoken] at hnone
  cases hnone

/-- The claims of a reconciler, one row after the other. -/
theorem reconcile_points (now : Time) (selected : List (Id × ClaimToken)) (s : PointState) :
    PointsKept s.points (reconcileClaimedRecoveryPointDeletions now selected s).1.points
      ∧ RunsKept s.points (reconcileClaimedRecoveryPointDeletions now selected s).1.points
      ∧ (reconcileClaimedRecoveryPointDeletions now selected s).1.jobs = s.jobs
      ∧ (reconcileClaimedRecoveryPointDeletions now selected s).1.migrations = s.migrations := by
  induction selected generalizing s with
  | nil => exact ⟨.refl _, .refl _, rfl, rfl⟩
  | cons pair rest ih =>
    obtain ⟨id, token⟩ := pair
    rw [reconcileClaimedRecoveryPointDeletions]
    split
    · exact ih s
    · rename_i points d hclaim
      obtain ⟨hkept, hruns, hjobs, hmigrations⟩ := ih { s with points := points }
      obtain ⟨claimToken, hpoints⟩ : ∃ claimToken,
          points = takeOver pointSchema s.points id claimToken token now := by
        unfold reconcileDeletion at hclaim
        split at hclaim
        · cases hclaim
        · split at hclaim
          · obtain ⟨claimToken, -, heq⟩ := Option.map_eq_some_iff.mp hclaim
            cases heq
            exact ⟨claimToken, rfl⟩
          · cases hclaim
      have hkept' : PointsKept s.points points := hpoints ▸ pointsKept_takeOver _ _ _ _ _
      have hruns' : RunsKept s.points points := hpoints ▸ runsKept_update fun _ => rfl
      exact ⟨hkept'.trans hkept, hruns'.trans hruns, hjobs, hmigrations⟩

/-- What a deletion has checked when it claims a point. -/
theorem deleteRecoveryPoint_ok {s : PointState} {id : Id} {token : ClaimToken} {now : Time}
    {points : PointTable} (h : deleteRecoveryPoint s id token now = .ok (some points)) :
    points = take pointSchema s.points (uuidText id) token now
      ∧ ∃ row, s.points.find (uuidText id) = some row ∧ hasActiveOperation s id row = false
        ∧ hasPendingAttempt s id = false := by
  unfold deleteRecoveryPoint at h
  cases hrow : s.points.find (uuidText id) with
  | none => simp [hrow] at h
  | some row =>
    simp only [hrow] at h
    split at h
    · cases h
    · split at h
      · cases h
      · split at h
        · cases h
        · rename_i hactive
          split at h
          · cases h
          · rename_i hpending
            cases h
            exact ⟨rfl, row, rfl, by simpa using hactive, by simpa using hpending⟩

/-- What is left of the points when a deleter has removed one. -/
theorem finishRecoveryPointDeletion_ok {s s' : PointState} {d : Deletion Id ClaimToken}
    (h : finishRecoveryPointDeletion s d = .ok (some s')) :
    s'.points = DeletionClaim.finish pointSchema s.points d ∧ s'.jobs = s.jobs
      ∧ s'.migrations = s.migrations := by
  unfold finishRecoveryPointDeletion at h
  repeat' split at h
  all_goals first
    | (cases h; exact ⟨rfl, rfl, rfl⟩)
    | cases h

/-- The job of an operation names the point as it was asked for. -/
theorem PointOperation.action_payload {recoveryPointId : Id} {operation : PointOperation}
    {row : PointRow} {hostId : Id} {payload : ActionPayload}
    (h : operation.action recoveryPointId row = .ok (hostId, payload)) :
    payloadRecoveryPointId payload = some recoveryPointId
      ∧ payloadMigrationRunId payload = none := by
  cases operation with
  | create host =>
    simp only [PointOperation.action] at h
    split at h
    · cases h
    · cases h
      exact ⟨rfl, rfl⟩
  | verify =>
    cases h
    exact ⟨rfl, rfl⟩
  | restore host =>
    cases h
    exact ⟨rfl, rfl⟩
  | drill =>
    cases h
    exact ⟨rfl, rfl⟩

/-- What an admitted operation on a point has checked. -/
theorem enqueueRecoveryPointOperation_ok {s : PointState} {recoveryPointId : Id}
    {operation : PointOperation} {admission : Except String Unit} {jobId : Id} {now : Time}
    {jobs : JobTable}
    (h : enqueueRecoveryPointOperation s recoveryPointId operation admission jobId now
      = .ok (some jobs)) :
    ∃ row hostId payload, s.points.find (uuidText recoveryPointId) = some row
      ∧ row.claim.token = none ∧ payloadRecoveryPointId payload = some recoveryPointId
      ∧ payloadMigrationRunId payload = none
      ∧ jobs = s.jobs.insert (queuedJob jobId hostId payload now) := by
  unfold enqueueRecoveryPointOperation at h
  cases hrow : s.points.find (uuidText recoveryPointId) with
  | none => simp [hrow] at h
  | some row =>
    simp only [hrow] at h
    split at h
    · cases h
    · rename_i hclaim
      split at h
      · cases h
      · cases h
      · rename_i hostId payload _ haction
        cases h
        obtain ⟨hpoint, hrun⟩ := PointOperation.action_payload haction
        exact ⟨row, hostId, payload, rfl, by simpa [recoveryPointHasDeletionClaim] using hclaim,
          hpoint, hrun, rfl⟩

/-- What an admitted migration has checked. -/
theorem startMigrationExecute_ok {s s' : PointState} {recoveryPointId : Option Id}
    {sourceHostId targetHostId runId : Id} {sameApp : Bool} {admission : Except String Unit}
    {jobId : Id} {now : Time}
    (h : startMigrationExecute s recoveryPointId sourceHostId targetHostId sameApp runId admission
      jobId now = .ok s') :
    (∀ id, recoveryPointId = some id → ∃ row, s.points.find (uuidText id) = some row
        ∧ row.claim.token = none)
      ∧ (∀ run ∈ s.migrations, run.id ≠ uuidText runId)
      ∧ s'.points = s.points
      ∧ s'.migrations
        = ⟨uuidText runId, uuidText targetHostId, recoveryPointId.map uuidText⟩ :: s.migrations
      ∧ s'.jobs = s.jobs.insert
          (queuedJob jobId sourceHostId (.migrationExecute (uuidText runId)) now) := by
  unfold startMigrationExecute at h
  split at h
  · rename_i husable
    split at h
    · cases h
    · split at h
      · cases h
      · rename_i hfresh
        cases h
        refine ⟨?_, by simpa using hfresh, rfl, rfl, rfl⟩
        rintro id rfl
        cases hrow : s.points.find (uuidText id) with
        | none => simp [migrationPointUsable, hrow] at husable
        | some row =>
          simp only [migrationPointUsable, hrow, Option.any_some, Bool.and_eq_true,
            recoveryPointHasDeletionClaim] at husable
          exact ⟨row, rfl, by simpa using husable.1.2⟩
  · cases h

/-- The ids of the points that are still there. -/
def IdsKept (t t' : PointTable) : Prop := ∀ row ∈ t, t'.find row.id ≠ none

theorem PointsKept.ids {t t' : PointTable} (h : PointsKept t t') : IdsKept t t' := by
  intro row hrow hnone
  obtain ⟨row', hrow', hid, -⟩ := h row hrow
  exact Table.find_eq_none.mp hnone row' hrow' hid

theorem idsKept_take (t : PointTable) (id : Id) (token : ClaimToken) (now : Time) :
    IdsKept t (take pointSchema t id token now) := by
  intro row hrow hnone
  have hfind : t.find row.id = some row := Table.find_eq_some.mpr ⟨hrow, rfl⟩
  rw [find_take, hfind] at hnone
  cases hnone

/-- What every step but a deletion and its end does to the points. -/
theorem step_pointsKept {s : PointState} {op : PointOp}
    (hdelete : ∀ worker id token now, op ≠ .delete worker id token now)
    (hfinish : ∀ worker, op ≠ .finish worker) : PointsKept s.points (s.step op).points := by
  cases op with
  | delete worker id token now => exact absurd rfl (hdelete worker id token now)
  | finish worker => exact absurd rfl (hfinish worker)
  | heartbeat worker now =>
    simp only [step]
    split
    · exact pointsKept_heartbeat _ _ _
    · exact .refl _
  | removeRemote worker => simp only [step]; split <;> exact .refl _
  | removeLocal worker => simp only [step]; split <;> exact .refl _
  | fail worker => exact .refl _
  | reconcile worker now selected =>
    simp only [step]
    split
    · exact (reconcile_points now selected s).1
    · exact .refl _
  | next worker => simp only [step]; split <;> exact .refl _
  | request request admission jobId now =>
    show PointsKept s.points (requestOperation s admission jobId now request).points
    cases request with
    | migrate recoveryPointId sourceHostId targetHostId sameApp runId =>
      simp only [requestOperation]
      split
      · rename_i s' hstart
        rw [(startMigrationExecute_ok hstart).2.2.1]
        exact .refl _
      · exact .refl _
    | operation recoveryPointId operation =>
      simp only [requestOperation]
      split <;> exact .refl _
  | job id status => exact .refl _
  | point id status migrationRunId =>
    simp only [step]
    split
    · exact @pointsKept_update s.points _
        (fun row => { row with status := status, migrationRunId := migrationRunId })
        (fun _ => rfl) fun _ _ h => h
    · exact .refl _
  | linkMigration runId recoveryPointId => exact .refl _
  | attempts attempts => exact .refl _

/-- The points after a deletion was requested. -/
theorem step_delete_points (s : PointState) (worker : ℕ) (id : Id) (token : ClaimToken)
    (now : Time) :
    (s.step (.delete worker id token now)).points = s.points
      ∨ ∃ points, deleteRecoveryPoint s id token now = .ok (some points)
        ∧ (s.step (.delete worker id token now)).points = points := by
  simp only [step]
  split
  · rename_i points _ hdelete
    exact Or.inr ⟨points, hdelete, rfl⟩
  · exact Or.inl rfl

/-- The points after the end of a deletion. -/
theorem step_finish_points (s : PointState) (worker : ℕ) :
    (s.step (.finish worker)).points = s.points
      ∨ ∃ d, (s.deleters worker).phase.deletion = some d
        ∧ (s.step (.finish worker)).points = DeletionClaim.finish pointSchema s.points d := by
  simp only [step]
  cases hphase : (s.deleters worker).phase with
  | localRemoved d =>
    dsimp only
    split
    · rename_i s' hfinish
      exact Or.inr ⟨d, rfl, (finishRecoveryPointDeletion_ok hfinish).1⟩
    · exact Or.inl rfl
    · exact Or.inl rfl
  | idle => exact Or.inl rfl
  | claimed d => exact Or.inl rfl
  | remoteRemoved d => exact Or.inl rfl

/-- **Removals.**  A point is removed only by a deleter under the current claim of the point. -/
theorem step_removed (s : PointState) (op : PointOp) (row : PointRow) (hrow : row ∈ s.points)
    (hnone : (s.step op).points.find row.id = none) :
    ∃ worker d, op = .finish worker ∧ (s.deleters worker).phase.deletion = some d
      ∧ d.key = row.id ∧ row.claim.token = some d.token
      ∧ row.claim.reconciliationToken = d.reconciliationToken := by
  by_cases hfinish : ∃ worker, op = .finish worker
  · obtain ⟨worker, rfl⟩ := hfinish
    rcases step_finish_points s worker with hsame | ⟨d, hd, hpoints⟩
    · rw [hsame] at hnone
      exact absurd hnone (PointsKept.refl s.points |>.ids row hrow)
    · rw [hpoints] at hnone
      obtain ⟨hid, htoken, hreconciliation⟩ := token_of_owns (owns_of_finish hrow hnone)
      exact ⟨worker, d, rfl, hd, hid.symm, htoken, hreconciliation⟩
  · by_cases hdelete : ∃ worker id token now, op = .delete worker id token now
    · obtain ⟨worker, id, token, now, rfl⟩ := hdelete
      rcases step_delete_points s worker id token now with hsame | ⟨points, hok, hpoints⟩
      · rw [hsame] at hnone
        exact absurd hnone (PointsKept.refl s.points |>.ids row hrow)
      · rw [hpoints, (deleteRecoveryPoint_ok hok).1] at hnone
        exact absurd hnone (idsKept_take _ _ _ _ row hrow)
    · exact absurd hnone ((step_pointsKept
        (fun worker id token now heq => hdelete ⟨worker, id, token, now, heq⟩)
        (fun worker heq => hfinish ⟨worker, heq⟩)).ids row hrow)

/-! ### Admissions -/

/-- A job that is new after an `INSERT` is the inserted one. -/
theorem eq_of_mem_insert {jobs : JobTable} {job new : JobRow} (h : job ∈ jobs.insert new)
    (hnew : jobs.find job.id = none) : job = new := by
  rcases Table.mem_insert h with hold | ⟨heq, -⟩
  · exact absurd rfl (Table.find_eq_none.mp hnew job hold)
  · exact heq

/-- No job is new in a table that has the same ids. -/
theorem not_new_of_mem {jobs : JobTable} {job : JobRow} (h : job ∈ jobs) :
    jobs.find job.id ≠ none := fun hnone => Table.find_eq_none.mp hnone job h rfl

/-- The jobs change by requests and by what executors do. -/
theorem step_jobs (s : PointState) (op : PointOp) :
    (s.step op).jobs = s.jobs ∨ (∃ id status, op = .job id status)
      ∨ ∃ request admission jobId now, op = .request request admission jobId now := by
  cases op with
  | request request admission jobId now => exact Or.inr (Or.inr ⟨_, _, _, _, rfl⟩)
  | job id status => exact Or.inr (Or.inl ⟨id, status, rfl⟩)
  | finish worker =>
    refine Or.inl ?_
    simp only [step]
    split
    · split
      · rename_i s' hfinish
        exact (finishRecoveryPointDeletion_ok hfinish).2.1
      · rfl
      · rfl
    · rfl
  | reconcile worker now selected =>
    refine Or.inl ?_
    simp only [step]
    split
    · exact (reconcile_points now selected s).2.2.1
    · rfl
  | delete worker id token now => refine Or.inl ?_; simp only [step]; split <;> rfl
  | heartbeat worker now => refine Or.inl ?_; simp only [step]; split <;> rfl
  | removeRemote worker => refine Or.inl ?_; simp only [step]; split <;> rfl
  | removeLocal worker => refine Or.inl ?_; simp only [step]; split <;> rfl
  | next worker => refine Or.inl ?_; simp only [step]; split <;> rfl
  | point id status migrationRunId => refine Or.inl ?_; simp only [step]; split <;> rfl
  | fail worker => exact Or.inl rfl
  | linkMigration runId recoveryPointId => exact Or.inl rfl
  | attempts attempts => exact Or.inl rfl

/-- Operations on a claimed point are refused. -/
theorem operation_refused {s : PointState} {recoveryPointId : Id} {operation : PointOperation}
    {admission : Except String Unit} {jobId : Id} {now : Time} {jobs : JobTable}
    (h : enqueueRecoveryPointOperation s recoveryPointId operation admission jobId now
      = .ok (some jobs))
    {row : PointRow} (hrow : row ∈ s.points) (hclaim : row.claim.token.isSome = true)
    {job : JobRow} (hjob : job ∈ jobs) (hnew : s.jobs.find job.id = none) (s' : PointState) :
    ¬ s'.Concerns row job := by
  obtain ⟨found, hostId, payload, hfind, hfree, hpoint, hrun, rfl⟩ :=
    enqueueRecoveryPointOperation_ok h
  rw [eq_of_mem_insert hjob hnew]
  rintro (hconcerns | ⟨run, -, hconcerns, -⟩)
  · -- the job names the point that was found without a claim
    rw [queuedJob, hpoint, Option.map_some, Option.some.injEq] at hconcerns
    have hsame : s.points.find (uuidText recoveryPointId) = some row :=
      Table.find_eq_some.mpr ⟨hrow, hconcerns.symm⟩
    rw [hfind, Option.some.injEq] at hsame
    rw [← hsame, hfree] at hclaim
    cases hclaim
  · rw [queuedJob, hrun] at hconcerns
    cases hconcerns

/-- A migration of a claimed point is refused. -/
theorem migration_refused {s s' : PointState} (hlinked : s.Linked) {recoveryPointId : Option Id}
    {sourceHostId targetHostId runId : Id} {sameApp : Bool} {admission : Except String Unit}
    {jobId : Id} {now : Time}
    (h : startMigrationExecute s recoveryPointId sourceHostId targetHostId sameApp runId admission
      jobId now = .ok s')
    {row : PointRow} (hrow : row ∈ s.points) (hclaim : row.claim.token.isSome = true)
    {job : JobRow} (hjob : job ∈ s'.jobs) (hnew : s.jobs.find job.id = none) :
    ¬ s'.Concerns row job := by
  obtain ⟨hfree, hfresh, -, hmigrations, hjobs⟩ := startMigrationExecute_ok h
  rw [hjobs] at hjob
  rw [eq_of_mem_insert hjob hnew]
  rintro (hconcerns | ⟨run, hrun, hconcerns, hpoint⟩)
  · cases hconcerns
  · have hid : run.id = uuidText runId := by
      rw [queuedJob, payloadMigrationRunId, Option.map_some, uuidText_idem,
        Option.some.injEq] at hconcerns
      exact hconcerns.symm
    rcases hpoint with hpoint | hpoint
    · rw [hmigrations] at hrun
      rcases List.mem_cons.mp hrun with rfl | hrun
      · -- the new run is of the point it was given
        obtain ⟨id, rfl, hrowId⟩ := Option.map_eq_some_iff.mp hpoint
        obtain ⟨found, hfind, hnone⟩ := hfree id rfl
        have hsame : s.points.find (uuidText id) = some row :=
          Table.find_eq_some.mpr ⟨hrow, hrowId.symm⟩
        rw [hfind, Option.some.injEq] at hsame
        rw [← hsame, hnone] at hclaim
        cases hclaim
      · exact hfresh run hrun hid
    · -- a point names a run that exists, and the new one did not
      obtain ⟨run', hrun', hid'⟩ := hlinked row hrow run.id hpoint
      exact hfresh run' hrun' (hid'.trans hid)

/-- **Admissions.**  No operation is admitted on a point that carries a claim. -/
theorem step_admitted {s : PointState} (hlinked : s.Linked) (op : PointOp) (row : PointRow)
    (hrow : row ∈ s.points) (hclaim : row.claim.token.isSome = true) (job : JobRow)
    (hjob : job ∈ (s.step op).jobs) (hnew : s.jobs.find job.id = none) :
    ¬ (s.step op).Concerns row job := by
  rcases step_jobs s op with hsame | ⟨id, status, rfl⟩ | ⟨request, admission, jobId, now, rfl⟩
  · rw [hsame] at hjob
    exact absurd hnew (not_new_of_mem hjob)
  · obtain ⟨job₀, hjob₀, hid, -⟩ := mem_settleJob hjob
    rw [hid] at hnew
    exact absurd hnew (not_new_of_mem hjob₀)
  · cases request with
    | operation recoveryPointId operation =>
      simp only [step, requestOperation] at hjob
      split at hjob
      · rename_i jobs hok
        exact operation_refused hok hrow hclaim hjob hnew _
      · exact absurd hnew (not_new_of_mem hjob)
      · exact absurd hnew (not_new_of_mem hjob)
    | migrate recoveryPointId sourceHostId targetHostId sameApp runId =>
      simp only [step, requestOperation] at hjob ⊢
      cases hstart : startMigrationExecute s recoveryPointId sourceHostId targetHostId sameApp runId
          admission jobId now with
      | ok s' =>
        rw [hstart] at hjob
        exact migration_refused hlinked hstart hrow hclaim hjob hnew
      | error error =>
        rw [hstart] at hjob
        exact absurd hnew (not_new_of_mem hjob)

/-! ### Claims -/

/-- The jobs name their points and migrations as the database prints them. -/
def JobsSpelled (s : PointState) : Prop :=
  ∀ job ∈ s.jobs, (∀ id, payloadRecoveryPointId job.payload = some id → uuidText id = id)
    ∧ ∀ id, payloadMigrationRunId job.payload = some id → uuidText id = id

/-- A deletion under the stored spelling sees every active operation. -/
theorem not_concerns_of_inactive {s : PointState} (hspelled : s.JobsSpelled) {id : Id}
    (hid : uuidText id = id) {row : PointRow} (hrow : row.id = uuidText id)
    (h : hasActiveOperation s id row = false) {job : JobRow} (hjob : job ∈ s.jobs)
    (hactive : job.status.active = true) : ¬ s.Concerns row job := by
  unfold hasActiveOperation at h
  rw [List.any_eq_false] at h
  have hjob' := h job hjob
  simp only [hactive, Bool.true_and, Bool.or_eq_true, decide_eq_true_eq, List.any_eq_true,
    Bool.and_eq_true, not_or] at hjob'
  obtain ⟨hpoint, hrun⟩ := hjob'
  rintro (hconcerns | ⟨run, hmem, hconcerns, hlink⟩)
  · obtain ⟨id', hpayload, hid'⟩ := Option.map_eq_some_iff.mp hconcerns
    rw [(hspelled job hjob).1 id' hpayload, hrow, hid] at hid'
    exact hpoint (hid' ▸ hpayload)
  · obtain ⟨id', hpayload, hid'⟩ := Option.map_eq_some_iff.mp hconcerns
    rw [(hspelled job hjob).2 id' hpayload] at hid'
    refine hrun ⟨run, hmem, ?_, ?_⟩
    · rw [hpayload, hid']
    · rcases hlink with hlink | hlink
      · exact Or.inl (hrow ▸ hlink)
      · exact Or.inr hlink.symm

theorem terminal_of_not_pending {s : PointState} {id : Id} (h : hasPendingAttempt s id = false)
    {attempt : AttemptRow} (hattempt : attempt ∈ s.attempts)
    (hpoint : attempt.recoveryPointId = some (uuidText id)) :
    attempt.status.nonTerminal = false := by
  unfold hasPendingAttempt at h
  rw [List.any_eq_false] at h
  simpa [hpoint] using h attempt hattempt

/-- **Claims.**  A point is claimed only while no operation and no restore attempt of it is
    active. -/
theorem step_claimed {s : PointState} (hspelled : s.JobsSpelled) {op : PointOp}
    (hop : SpelledAsStored s op) (row : PointRow) (hrow : row ∈ s.points)
    (hnone : row.claim.token = none) (row' : PointRow)
    (hrow' : (s.step op).points.find row.id = some row') (hsome : row'.claim.token.isSome = true) :
    (∀ job ∈ s.jobs, job.status.active = true → ¬ s.Concerns row job)
      ∧ ∀ attempt ∈ s.attempts, attempt.recoveryPointId = some row.id →
          attempt.status.nonTerminal = false := by
  have hfind : s.points.find row.id = some row := Table.find_eq_some.mpr ⟨hrow, rfl⟩
  -- the row is the one that was there, without a claim
  have hcontra : row' = row → False := by
    rintro rfl
    rw [hnone] at hsome
    cases hsome
  by_cases hdelete : ∃ worker id token now, op = .delete worker id token now
  · obtain ⟨worker, id, token, now, rfl⟩ := hdelete
    rcases step_delete_points s worker id token now with hsame | ⟨points, hok, hpoints⟩
    · rw [hsame, hfind, Option.some.injEq] at hrow'
      exact (hcontra hrow'.symm).elim
    · obtain ⟨rfl, found, hfound, hactive, hpending⟩ := deleteRecoveryPoint_ok hok
      by_cases hkey : row.id = uuidText id
      · rw [← hkey, hfind, Option.some.injEq] at hfound
        subst hfound
        refine ⟨fun job hjob => not_concerns_of_inactive hspelled hop hkey hactive hjob, ?_⟩
        intro attempt hattempt hpoint
        exact terminal_of_not_pending hpending hattempt (hkey ▸ hpoint)
      · have hother : ¬ decide (pointSchema.key row = uuidText id) = true := fun h =>
          hkey (of_decide_eq_true h)
        rw [hpoints, find_take, hfind, Option.map_some, if_neg hother, Option.some.injEq] at hrow'
        exact (hcontra hrow'.symm).elim
  · by_cases hfinish : ∃ worker, op = .finish worker
    · obtain ⟨worker, rfl⟩ := hfinish
      obtain ⟨hmem, hid⟩ := Table.find_eq_some.mp hrow'
      have hold : row' ∈ s.points := by
        rcases step_finish_points s worker with hsame | ⟨d, -, hpoints⟩
        · exact hsame ▸ hmem
        · rw [hpoints] at hmem
          exact (Table.mem_delete.mp hmem).1
      exact (hcontra (Table.eq_of_key_eq hold hrow hid)).elim
    · obtain ⟨kept, hkept, hid, hclaim⟩ := step_pointsKept
        (fun worker id token now heq => hdelete ⟨worker, id, token, now, heq⟩)
        (fun worker heq => hfinish ⟨worker, heq⟩) row hrow
      obtain ⟨hmem, hid'⟩ := Table.find_eq_some.mp hrow'
      rw [Table.eq_of_key_eq hmem hkept (hid'.trans hid.symm), hclaim hnone] at hsome
      cases hsome

/-! ### Runs -/

/-- What the steps rely on in the tables. -/
structure Inv (s : PointState) : Prop where
  linked : s.Linked
  spelled : s.JobsSpelled

/-- The points and the migrations they name, after any step but an assignment of a migration. -/
theorem step_runsKept {s : PointState} {op : PointOp}
    (hpoint : ∀ id status migrationRunId, op ≠ .point id status migrationRunId) :
    RunsKept s.points (s.step op).points := by
  cases op with
  | point id status migrationRunId => exact absurd rfl (hpoint id status migrationRunId)
  | delete worker id token now =>
    rcases step_delete_points s worker id token now with hsame | ⟨points, hok, hpoints⟩
    · rw [hsame]
      exact .refl _
    · rw [hpoints, (deleteRecoveryPoint_ok hok).1]
      exact runsKept_update fun _ => rfl
  | finish worker =>
    rcases step_finish_points s worker with hsame | ⟨d, -, hpoints⟩
    · rw [hsame]
      exact .refl _
    · rw [hpoints]
      exact fun row hrow => ⟨row, (Table.mem_delete.mp hrow).1, rfl⟩
  | heartbeat worker now =>
    simp only [step]
    split
    · exact runsKept_heartbeat _ _ _
    · exact .refl _
  | removeRemote worker => simp only [step]; split <;> exact .refl _
  | removeLocal worker => simp only [step]; split <;> exact .refl _
  | fail worker => exact .refl _
  | reconcile worker now selected =>
    simp only [step]
    split
    · exact (reconcile_points now selected s).2.1
    · exact .refl _
  | next worker => simp only [step]; split <;> exact .refl _
  | request request admission jobId now =>
    show RunsKept s.points (requestOperation s admission jobId now request).points
    cases request with
    | migrate recoveryPointId sourceHostId targetHostId sameApp runId =>
      simp only [requestOperation]
      split
      · rename_i s' hstart
        rw [(startMigrationExecute_ok hstart).2.2.1]
        exact .refl _
      · exact .refl _
    | operation recoveryPointId operation =>
      simp only [requestOperation]
      split <;> exact .refl _
  | job id status => exact .refl _
  | linkMigration runId recoveryPointId => exact .refl _
  | attempts attempts => exact .refl _

/-- Migrations stay. -/
theorem step_migrations (s : PointState) (op : PointOp) :
    ∀ run ∈ s.migrations, ∃ run' ∈ (s.step op).migrations, run'.id = run.id := by
  intro run hrun
  have hsame : (s.step op).migrations = s.migrations →
      ∃ run' ∈ (s.step op).migrations, run'.id = run.id := fun heq => ⟨run, heq ▸ hrun, rfl⟩
  cases op with
  | linkMigration runId recoveryPointId =>
    refine ⟨_, List.mem_map_of_mem hrun, ?_⟩
    split <;> rfl
  | request request admission jobId now =>
    cases request with
    | migrate recoveryPointId sourceHostId targetHostId sameApp runId =>
      simp only [step, requestOperation]
      split
      · rename_i s' hstart
        rw [(startMigrationExecute_ok hstart).2.2.2.1]
        exact ⟨run, List.mem_cons_of_mem _ hrun, rfl⟩
      · exact ⟨run, hrun, rfl⟩
    | operation recoveryPointId operation =>
      apply hsame
      simp only [step, requestOperation]
      split <;> rfl
  | delete worker id token now => apply hsame; simp only [step]; split <;> rfl
  | heartbeat worker now => apply hsame; simp only [step]; split <;> rfl
  | removeRemote worker => apply hsame; simp only [step]; split <;> rfl
  | removeLocal worker => apply hsame; simp only [step]; split <;> rfl
  | finish worker =>
    apply hsame
    simp only [step]
    split
    · split
      · rename_i s' hfinish
        exact (finishRecoveryPointDeletion_ok hfinish).2.2
      · rfl
      · rfl
    · rfl
  | fail worker => exact hsame rfl
  | reconcile worker now selected =>
    apply hsame
    simp only [step]
    split
    · exact (reconcile_points now selected s).2.2.2
    · rfl
  | next worker => apply hsame; simp only [step]; split <;> rfl
  | point id status migrationRunId => apply hsame; simp only [step]; split <;> rfl
  | job id status => exact hsame rfl
  | attempts attempts => exact hsame rfl

theorem Linked.step {s : PointState} (h : s.Linked) (op : PointOp) : (s.step op).Linked := by
  by_cases hpoint : ∃ id status migrationRunId, op = .point id status migrationRunId
  · obtain ⟨id, status, migrationRunId, rfl⟩ := hpoint
    simp only [PointState.step]
    split
    · rename_i hforeign
      intro row' hrow' runId hrun
      obtain ⟨row, hrow, rfl⟩ := (@Table.mem_update _ _ _ s.points _
        (fun row => { row with status := status, migrationRunId := migrationRunId })
        (fun _ => rfl) _).mp hrow'
      split at hrun
      · have heq : migrationRunId = some runId := hrun
        rw [heq] at hforeign
        simpa using hforeign
      · exact h row hrow runId hrun
    · exact h
  · intro row' hrow' id hid
    obtain ⟨row, hrow, hrun⟩ := step_runsKept
      (fun id status migrationRunId heq => hpoint ⟨id, status, migrationRunId, heq⟩) row' hrow'
    obtain ⟨run, hmem, hrunId⟩ := h row hrow id (hrun ▸ hid)
    obtain ⟨run', hmem', hrunId'⟩ := step_migrations s op run hmem
    exact ⟨run', hmem', hrunId'.trans hrunId⟩

/-- A job that is inserted. -/
theorem JobsSpelled.insert {s : PointState} (h : s.JobsSpelled) (new : JobRow)
    (hpoint : ∀ id, payloadRecoveryPointId new.payload = some id → uuidText id = id)
    (hrun : ∀ id, payloadMigrationRunId new.payload = some id → uuidText id = id)
    {s' : PointState} (hjobs : s'.jobs = s.jobs.insert new) : s'.JobsSpelled := by
  intro job hjob
  rw [hjobs] at hjob
  rcases Table.mem_insert hjob with hold | ⟨rfl, -⟩
  · exact h job hold
  · exact ⟨hpoint, hrun⟩

theorem JobsSpelled.step {s : PointState} (h : s.JobsSpelled) {op : PointOp}
    (hop : SpelledAsStored s op) : (s.step op).JobsSpelled := by
  rcases step_jobs s op with hsame | ⟨id, status, rfl⟩ | ⟨request, admission, jobId, now, rfl⟩
  · intro job hjob
    rw [hsame] at hjob
    exact h job hjob
  · intro job hjob
    obtain ⟨job₀, hjob₀, -, hpayload⟩ := mem_settleJob hjob
    rw [hpayload]
    exact h job₀ hjob₀
  · cases request with
    | operation recoveryPointId operation =>
      simp only [PointState.step, requestOperation]
      split
      · rename_i jobs hok
        obtain ⟨found, hostId, payload, -, -, hpoint, hrun, rfl⟩ :=
          enqueueRecoveryPointOperation_ok hok
        refine h.insert (queuedJob jobId hostId payload now) (fun id hsome => ?_)
          (fun id hsome => ?_) rfl
        · rw [queuedJob, hpoint, Option.some.injEq] at hsome
          exact hsome ▸ hop
        · rw [queuedJob, hrun] at hsome
          cases hsome
      · exact h
      · exact h
    | migrate recoveryPointId sourceHostId targetHostId sameApp runId =>
      simp only [PointState.step, requestOperation]
      split
      · rename_i s' hstart
        refine h.insert _ (fun id hsome => ?_) (fun id hsome => ?_)
          (startMigrationExecute_ok hstart).2.2.2.2
        · cases hsome
        · cases hsome
          exact uuidText_idem runId
      · exact h

/-- **One step** whose ids are spelled as stored keeps to the protocol. -/
theorem Inv.protocol {s : PointState} (h : Inv s) {op : PointOp} (hop : SpelledAsStored s op) :
    Protocol s op where
  removed := step_removed s op
  admitted := step_admitted h.linked op
  claimed := step_claimed h.spelled hop

end PointState

open PointState in
/-- **Deletion claims on recovery points.**  In every run whose requests and deletions spell the ids
    of points as the database prints them, every step keeps to the protocol. -/
theorem point_deletion_claims {points : PointTable} {migrations : List MigrationLink}
    {attempts : AttemptTable} (hlinked : (initial points migrations attempts).Linked)
    {ops : List PointOp} {op : PointOp}
    (hops : Meets step PointState.SpelledAsStored (initial points migrations attempts) (ops ++ [op])) :
    Protocol (exec step (initial points migrations attempts) ops) op := by
  have hinv : Inv (exec step (initial points migrations attempts) ops) :=
    exec_invariant_of_meets (I := Inv) (fun s op hop hs => ⟨hs.linked.step op, hs.spelled.step hop⟩)
      ⟨hlinked, fun job hjob => absurd hjob (Table.not_mem_empty job)⟩ hops.append_left
  exact hinv.protocol hops.append_right.1

/-! ### Runs on one point -/

/-- A completed point, as the database holds it. -/
def completedPoint : PointRow :=
  ⟨"3f2b8c1e-9d4a-4f6b-8a7c-1e2d3c4b5a60", "h1", .completed, none, .empty⟩

/-- The one point of the table. -/
def completedPoints : PointTable := ⟨[completedPoint], by decide⟩

/-- A verification is requested under the id a client has spelled, and then the point is deleted. -/
def verifyThenDelete (spelled : Id) : List PointOp :=
  [.request (.operation spelled .verify) (.ok ()) "j1" 0,
    .delete 0 completedPoint.id ⟨"t1", by decide⟩ 1]

open PointState in
/-- Under the stored spelling the deletion keeps to the protocol: it is refused. -/
theorem verifyThenDelete_refused :
    (initial completedPoints [] ∅).Linked
      ∧ Meets step PointState.SpelledAsStored (initial completedPoints [] ∅)
          (verifyThenDelete completedPoint.id)
      ∧ Protocol (exec step (initial completedPoints [] ∅)
          [.request (.operation completedPoint.id .verify) (.ok ()) "j1" 0])
          (.delete 0 completedPoint.id ⟨"t1", by decide⟩ 1) := by
  have hlinked : (initial completedPoints [] ∅).Linked := by
    intro row hrow id hid
    rw [List.mem_singleton.mp hrow] at hid
    cases hid
  have hops : Meets step PointState.SpelledAsStored (initial completedPoints [] ∅)
      (verifyThenDelete completedPoint.id) := by
    have hid : uuidText completedPoint.id = completedPoint.id := by decide +kernel
    exact ⟨hid, hid, trivial⟩
  exact ⟨hlinked, hops, point_deletion_claims hlinked hops⟩

open PointState in
/-- A verification that is requested in upper case is queued, and the deletion does not see it. -/
theorem upperCase_verification_unseen :
    ¬ Protocol (exec step (initial completedPoints [] ∅)
        [.request (.operation "3F2B8C1E-9D4A-4F6B-8A7C-1E2D3C4B5A60" .verify) (.ok ()) "j1" 0])
      (.delete 0 completedPoint.id ⟨"t1", by decide⟩ 1) := by
  intro h
  let job := queuedJob "j1" "h1" (.recoveryVerify "3F2B8C1E-9D4A-4F6B-8A7C-1E2D3C4B5A60") 0
  let claimed := assign pointSchema
    (fun c => { c with token := some ⟨"t1", by decide⟩, claimedAt := some 1 }) completedPoint
  have hclaimed := h.claimed completedPoint (Table.mem_rows.mp (by decide +kernel)) rfl claimed
    (by decide +kernel) rfl
  refine hclaimed.1 job (Table.mem_rows.mp (by decide +kernel)) rfl (Or.inl ?_)
  decide +kernel

end ComposeBastion
