import ComposeBastion.Docker.MutationScope
import ComposeBastion.Jobs.Fencing

namespace ComposeBastion

open Runs

/-!
# Reconciling ambiguous remote outcomes

`services/remoteOutcomeReconciliation.ts`.  A worker reads a list of candidates and then, for
each of them, claims the row, inspects the target under heartbeats, and persists the outcome;
all of these are separate statements, and the statements of other workers run in between.

* `reconciliationCandidates`, `claimReconciliation`, `heartbeatReconciliation`,
  `persistPending`, `persistReconciled` — the statements;
* `Reconciler` — where one worker is in its pass, with the candidate rows as it read them;
* `ReconcileSystem.step` — any number of workers together with every statement of `JobOp`;
* `ReconcileRowStep` — what one step can do to one row.

The claim accepts every row whose reconciliation is neither `inspecting` nor `pending`, and
with it a row another worker has reconciled since the list was read.  `reconciled_permanent`
is what holds as long as no claim meets such a row.
-/

def REMOTE_OUTCOME_QUIESCENCE_SECONDS : ℕ := 11 * 60
def REMOTE_OUTCOME_CLAIM_LEASE_SECONDS : ℕ := 3 * 60
def REMOTE_OUTCOME_RETRY_BASE_SECONDS : ℕ := 60
def REMOTE_OUTCOME_RETRY_MAX_SECONDS : ℕ := 60 * 60

/-- `REMOTE_OUTCOME_NO_DISPATCH_TYPES`. -/
def remoteOutcomeNoDispatchTypes : List JobType :=
  reconcilableDockerMutationTypes
    ++ [.composeDeploy, .composeStop, .composeRemove, .deployAnalyze, .deployExecute,
      .hostConfigureRegistryTrust]

/-- `composeStackIntentJobTypes`. -/
def composeStackIntentJobTypes : List JobType :=
  [.composeDeployPath, .composeWriteDeployPath, .deployExecute, .gitCloneDeploy]

/-! ### The statements -/

/-- `result->'remoteOutcomeReconciliation'`. -/
def JobRow.reconciliation (row : JobRow) : Option Reconciliation :=
  row.result.bind (·.remoteOutcomeReconciliation)

/-- `result || jsonb_build_object('remoteOutcomeReconciliation', …)`. -/
def JobRow.setReconciliation (row : JobRow) (now : Time) (reconciliation : Reconciliation) :
    JobRow :=
  { row with
    result := some
      { row.result.getD .empty with remoteOutcomeReconciliation := some reconciliation }
    updatedAt := now }

theorem JobRow.setReconciliation_id (row : JobRow) (now : Time) (rec : Reconciliation) :
    (row.setReconciliation now rec).id = row.id := rfl

@[simp] theorem JobRow.reconciliation_set (row : JobRow) (now : Time) (rec : Reconciliation) :
    (row.setReconciliation now rec).reconciliation = some rec := rfl

/-- The disjunction both the candidate list and the claim end with: nobody holds the row. -/
def reconciliationFree (now : Time) (row : JobRow) : Bool :=
  match row.reconciliation with
  | none => true
  | some rec =>
    match rec.status with
    | .reconciled => true
    | .inspecting => ((rec.heartbeatAt <|> rec.startedAt).all
        (· < now - seconds REMOTE_OUTCOME_CLAIM_LEASE_SECONDS))
    | .pending => rec.nextAttemptAt.all (· ≤ now)

/-- The candidate list of `reconcileAmbiguousRemoteOutcomes`.  `analysisError` is the error of
    the deployment analysis a payload names. -/
def reconciliationCandidates (now : Time) (limit : ℕ) (analysisError : ActionPayload → Option String)
    (jobs : JobTable) : List JobRow :=
  ((jobs.rows.filter fun row =>
      row.status == .failed && remoteOutcomeNoDispatchTypes.contains row.type
        && row.leaseOwner == none && row.leaseExpiresAt == none
        && (ambiguousError row.error || ambiguousError (analysisError row.payload))
        && row.completedAt.any (· ≤ now - seconds REMOTE_OUTCOME_QUIESCENCE_SECONDS)
        && !(row.reconciliation.any (·.status == .reconciled))
        && reconciliationFree now row).insertionSort
    fun a b => a.completedAt.getD 0 ≤ b.completedAt.getD 0).take (max 1 (min limit 100))

/-- `ReconciliationClaim`. -/
structure ReconciliationClaim where
  token : Id
  attemptCount : ℕ
  deriving DecidableEq, Repr

/-- The reconciliation a claim writes. -/
def claimedReconciliation (now : Time) (token : Id) (row : JobRow) : Reconciliation where
  status := .inspecting
  claimToken := some token
  startedAt := some now
  heartbeatAt := some now
  attemptCount := row.reconciliation.elim 1 (·.attemptCount + 1)
  nextAttemptAt := none

/-- The `WHERE` clause of `claimReconciliation`. -/
def claimable (now : Time) (id : Id) (row : JobRow) : Bool :=
  row.id == id && row.status == .failed && ambiguousError row.error && reconciliationFree now row

/-- `claimReconciliation`, with the claim it returns. -/
def claimReconciliation (now : Time) (id : Id) (token : Id) (jobs : JobTable) :
    JobTable × Option ReconciliationClaim :=
  (jobs.update (claimable now id)
      (fun row => row.setReconciliation now (claimedReconciliation now token row))
      (fun row => row.setReconciliation_id now _),
    (jobs.rows.find? (claimable now id)).map fun row =>
      ⟨token, max 1 (claimedReconciliation now token row).attemptCount⟩)

/-- `status = 'failed'` and the row is being inspected under this token. -/
def inspectedUnder (id : Id) (token : Id) (row : JobRow) : Bool :=
  row.id == id && row.status == .failed
    && row.reconciliation.any fun rec => rec.status == .inspecting && rec.claimToken == some token

/-- The assignment of `heartbeatReconciliation`. -/
def heartbeatRow (now : Time) (row : JobRow) : JobRow :=
  match row.reconciliation with
  | some rec => row.setReconciliation now { rec with heartbeatAt := some now }
  | none => row

theorem heartbeatRow_id (now : Time) (row : JobRow) : (heartbeatRow now row).id = row.id := by
  unfold heartbeatRow; split <;> rfl

/-- `heartbeatReconciliation`; `false` is `ReconciliationClaimLostError`. -/
def heartbeatReconciliation (now : Time) (id : Id) (claim : ReconciliationClaim)
    (jobs : JobTable) : JobTable × Bool :=
  (jobs.update (inspectedUnder id claim.token) (heartbeatRow now) (heartbeatRow_id now),
    jobs.rows.any (inspectedUnder id claim.token))

/-- `reconciliationRetryDelaySeconds`. -/
def reconciliationRetryDelaySeconds (attemptCount : ℕ) : ℕ :=
  min REMOTE_OUTCOME_RETRY_MAX_SECONDS
    (REMOTE_OUTCOME_RETRY_BASE_SECONDS * 2 ^ min (attemptCount - 1) 16)

/-- The evidence `persistReconciliation` writes, as far as it is read again. -/
def persistedReconciliation (status : ReconciliationStatus) (claim : ReconciliationClaim)
    (nextAttemptAt : Option Time) : Reconciliation where
  status := status
  claimToken := none
  startedAt := none
  heartbeatAt := none
  attemptCount := claim.attemptCount
  nextAttemptAt := nextAttemptAt

/-- The `WHERE` clause of `persistReconciliation`. -/
def persistable (id : Id) (claim : ReconciliationClaim) (requireRemoteMutationProofAbsent : Bool)
    (row : JobRow) : Bool :=
  inspectedUnder id claim.token row && ambiguousError row.error
    && (!requireRemoteMutationProofAbsent || row.result.any (·.remoteMutationProof == none))

/-- `persistReconciliation(…, "pending", …)`; `appNow` is the worker's own clock. -/
def persistPending (now appNow : Time) (id : Id) (claim : ReconciliationClaim)
    (jobs : JobTable) : JobTable :=
  jobs.update (persistable id claim false)
    (fun row => row.setReconciliation now (persistedReconciliation .pending claim
      (some (appNow + seconds (reconciliationRetryDelaySeconds claim.attemptCount)))))
    (fun row => row.setReconciliation_id now _)

/-- `workerLostBeforeRemoteMutationDispatch`, of a candidate row. -/
def workerLostBeforeRemoteMutationDispatch (row : JobRow) : Bool :=
  Js.startsWith (row.error.getD "") "WORKER_LOST"
    && remoteOutcomeNoDispatchTypes.contains row.type
    && row.result.all (·.remoteMutationProof == none)

/-- Whether `reconciledOutcomeFinalizer` returns a finalizer. -/
def hasOutcomeFinalizer (row : JobRow) : Bool :=
  composeStackIntentJobTypes.contains row.type || row.type == .composeDeploy
    || row.type == .gitCloneDeploy

/-- Whether the finalizer of `candidate` can commit over `row`:
    `discardComposeStackDeploymentIntent` throws unless it meets the candidate's attempt. -/
def finalizerMeets (candidate row : JobRow) : Bool :=
  !composeStackIntentJobTypes.contains candidate.type
    || (row.attemptCount == candidate.attemptCount && row.hostId == candidate.hostId)

/-- The `UPDATE` of `persistReconciliation(…, "reconciled", …)`, and the row it selected. -/
def persistReconciled (now : Time) (candidate : JobRow) (claim : ReconciliationClaim)
    (jobs : JobTable) : JobTable × Option JobRow :=
  (jobs.update
      (persistable candidate.id claim (workerLostBeforeRemoteMutationDispatch candidate))
      (fun row => row.setReconciliation now (persistedReconciliation .reconciled claim none))
      (fun row => row.setReconciliation_id now _),
    jobs.rows.find?
      (persistable candidate.id claim (workerLostBeforeRemoteMutationDispatch candidate)))

/-! ### Workers -/

/-- A worker in `reconcileAmbiguousRemoteOutcomes`: about to claim the first of its
    candidates, or inspecting the one it has claimed. -/
inductive Reconciler
  | looping (candidates : List JobRow)
  | holding (candidate : JobRow) (claim : ReconciliationClaim) (rest : List JobRow)
  deriving DecidableEq, Repr

/-- The table and clock, the workers by number, and the `(id, attempt_count)` of every row
    whose finalizer's effects have been committed. -/
structure ReconcileSystem where
  base : JobSystem
  worker : ℕ → Reconciler
  finalized : List (Id × ℕ)

/-- One step: a statement of some worker's reconciliation pass, a worker that gives its pass
    up, or a statement of the job system. -/
inductive ReconcileOp
  | job (op : JobOp)
  | list (w : ℕ) (limit : ℕ) (analysisError : ActionPayload → Option String)
  | claim (w : ℕ) (token : Id)
  | heartbeat (w : ℕ)
  | persistPending (w : ℕ) (appNow : Time)
  | persistReconciled (w : ℕ) (finalizerThrows : Bool)
  | abandon (w : ℕ)

namespace ReconcileSystem

/-- No jobs, every worker between two passes. -/
def initial (now : Time) : ReconcileSystem := ⟨⟨∅, now⟩, fun _ => .looping [], []⟩

/-- Write the table, move worker `w` on. -/
def move (s : ReconcileSystem) (w : ℕ) (jobs : JobTable) (next : Reconciler) : ReconcileSystem :=
  { s with base := ⟨jobs, s.base.clock⟩, worker := Function.update s.worker w next }

/-- One step of the system.  A step its worker is not ready for does nothing. -/
def step (s : ReconcileSystem) (op : ReconcileOp) : ReconcileSystem :=
  let now := s.base.clock
  let jobs := s.base.jobs
  match op with
  | .job op => { s with base := s.base.step op }
  | .list w limit analysisError =>
    match s.worker w with
    | .looping [] => s.move w jobs (.looping (reconciliationCandidates now limit analysisError jobs))
    | _ => s
  | .claim w token =>
    match s.worker w with
    | .looping (candidate :: rest) =>
      let claimed := claimReconciliation now candidate.id token jobs
      s.move w claimed.1 (claimed.2.elim (.looping rest) (.holding candidate · rest))
    | _ => s
  | .heartbeat w =>
    match s.worker w with
    | .holding candidate claim rest =>
      let beat := heartbeatReconciliation now candidate.id claim jobs
      s.move w beat.1 (if beat.2 then .holding candidate claim rest else .looping rest)
    | _ => s
  | .persistPending w appNow =>
    match s.worker w with
    | .holding candidate claim rest =>
      s.move w (ComposeBastion.persistPending now appNow candidate.id claim jobs) (.looping rest)
    | _ => s
  | .persistReconciled w finalizerThrows =>
    match s.worker w with
    | .holding candidate claim rest =>
      let persisted := ComposeBastion.persistReconciled now candidate claim jobs
      match persisted.2 with
      | none => s.move w jobs (.looping rest)
      | some row =>
        if !hasOutcomeFinalizer candidate then s.move w persisted.1 (.looping rest)
        -- a throwing finalizer rolls the update back; the worker still holds its claim
        else if finalizerThrows || !finalizerMeets candidate row then s
        else { s.move w persisted.1 (.looping rest) with
          finalized := s.finalized ++ [(row.id, row.attemptCount)] }
    | _ => s
  | .abandon w => s.move w jobs (.looping [])

end ReconcileSystem

/-! ### What one step does to one row -/

/-- The change a step of the system makes to a row `r` that exists: a statement of the job
    system, a claim, or a write under a claim, which needs a row that is being inspected. -/
inductive ReconcileRowStep (s : ReconcileSystem) (r : JobRow) : ReconcileOp → JobRow → Prop
  | unchanged (op : ReconcileOp) : ReconcileRowStep s r op r
  | job {op : JobOp} {r' : JobRow} (h : RowStep s.base.clock r op r') :
      ReconcileRowStep s r (.job op) r'
  | claimed (w : ℕ) (token : Id) (candidate : JobRow) (rest : List JobRow)
      (hworker : s.worker w = .looping (candidate :: rest)) (hid : candidate.id = r.id)
      (hfailed : r.status = .failed) :
      ReconcileRowStep s r (.claim w token)
        (r.setReconciliation s.base.clock (claimedReconciliation s.base.clock token r))
  | inspected (op : ReconcileOp) (rec rec' : Reconciliation) (hfailed : r.status = .failed)
      (hrec : r.reconciliation = some rec) (hinspecting : rec.status = .inspecting) :
      ReconcileRowStep s r op (r.setReconciliation s.base.clock rec')

theorem inspectedUnder_iff {id token : Id} {r : JobRow} :
    inspectedUnder id token r = true ↔ r.id = id ∧ r.status = .failed
      ∧ ∃ rec, r.reconciliation = some rec ∧ rec.status = .inspecting
        ∧ rec.claimToken = some token := by
  simp [inspectedUnder, Option.any_eq_true, and_assoc]

theorem inspectedUnder_of_persistable {id : Id} {claim : ReconciliationClaim} {proofAbsent : Bool}
    {r : JobRow} (h : persistable id claim proofAbsent r = true) :
    inspectedUnder id claim.token r = true := by
  simp only [persistable, Bool.and_eq_true] at h
  exact h.1.1

/-- A write under a claim is a row step. -/
theorem ReconcileRowStep.of_inspectedUnder {s : ReconcileSystem} {op : ReconcileOp} {id token : Id}
    {r : JobRow} (h : inspectedUnder id token r = true) (rec' : Reconciliation) :
    ReconcileRowStep s r op (r.setReconciliation s.base.clock rec') := by
  obtain ⟨_, hfailed, rec, hrec, hinspecting, _⟩ := inspectedUnder_iff.mp h
  exact .inspected op rec rec' hfailed hrec hinspecting

/-- A step of a reconciliation pass is one `UPDATE`, whose effect on a selected row is a
    `ReconcileRowStep`. -/
def UpdatesReconciliation (s : ReconcileSystem) (op : ReconcileOp) : Prop :=
  ∃ (p : JobRow → Bool) (f : JobRow → JobRow),
    (s.step op).base.jobs.rows = s.base.jobs.rows.map (fun r => if p r then f r else r)
      ∧ ∀ r, p r = true → (f r).id = r.id ∧ ReconcileRowStep s r op (f r)

theorem ReconcileSystem.step_updates (s : ReconcileSystem) (op : ReconcileOp)
    (hop : ∀ job, op ≠ .job job) : UpdatesReconciliation s op := by
  -- the two ways to be such an `UPDATE`: select nothing, or write under a claim
  have same : (s.step op).base.jobs = s.base.jobs → UpdatesReconciliation s op := fun h =>
    ⟨fun _ => false, id, by simp [h], fun _ hp => by cases hp⟩
  have under : ∀ {p : JobRow → Bool} {f : JobRow → JobRow} {id token : Id},
      (s.step op).base.jobs.rows = s.base.jobs.rows.map (fun r => if p r then f r else r) →
      (∀ r, p r = true → inspectedUnder id token r = true) →
      (∀ r, p r = true → ∃ rec', f r = r.setReconciliation s.base.clock rec') →
      UpdatesReconciliation s op := by
    intro p f id token hrows hp hf
    refine ⟨p, f, hrows, fun r hpr => ?_⟩
    obtain ⟨rec', h⟩ := hf r hpr
    rw [h]
    exact ⟨rfl, .of_inspectedUnder (hp r hpr) rec'⟩
  cases op with
  | job op => exact absurd rfl (hop op)
  | abandon w => exact same rfl
  | list w limit analysisError =>
    apply same
    simp only [step]
    split <;> rfl
  | claim w token =>
    cases hworker : s.worker w with
    | holding => exact same (by simp only [step, hworker])
    | looping candidates =>
      cases candidates with
      | nil => exact same (by simp only [step, hworker])
      | cons candidate rest =>
        refine ⟨claimable s.base.clock candidate.id,
          fun r => r.setReconciliation s.base.clock (claimedReconciliation s.base.clock token r),
          by simp only [step, hworker]; rfl, fun r hp => ⟨rfl, ?_⟩⟩
        simp only [claimable, Bool.and_eq_true, beq_iff_eq] at hp
        exact .claimed w token candidate rest hworker hp.1.1.1.symm hp.1.1.2
  | heartbeat w =>
    cases hworker : s.worker w with
    | looping => exact same (by simp only [step, hworker])
    | holding candidate claim rest =>
      refine under (by simp only [step, hworker]; rfl) (fun _ hp => hp) fun r hp => ?_
      obtain ⟨_, _, rec, hrec, _⟩ := inspectedUnder_iff.mp hp
      exact ⟨{ rec with heartbeatAt := some s.base.clock }, by simp only [heartbeatRow, hrec]⟩
  | persistPending w appNow =>
    cases hworker : s.worker w with
    | looping => exact same (by simp only [step, hworker])
    | holding candidate claim rest =>
      exact under (by simp only [step, hworker]; rfl)
        (fun _ => inspectedUnder_of_persistable) fun r _ => ⟨_, rfl⟩
  | persistReconciled w finalizerThrows =>
    cases hworker : s.worker w with
    | looping => exact same (by simp only [step, hworker])
    | holding candidate claim rest =>
      have written : (s.step (.persistReconciled w finalizerThrows)).base.jobs
          = (ComposeBastion.persistReconciled s.base.clock candidate claim s.base.jobs).1 →
          UpdatesReconciliation s (.persistReconciled w finalizerThrows) := fun h =>
        under (congrArg Table.rows h) (fun _ => inspectedUnder_of_persistable)
          fun r _ => ⟨_, rfl⟩
      cases hrow : (ComposeBastion.persistReconciled s.base.clock candidate claim
        s.base.jobs).2 with
      | none => exact same (by simp only [step, hworker, hrow]; rfl)
      | some row =>
        by_cases hfinalizer : (!hasOutcomeFinalizer candidate) = true
        · exact written (by simp only [step, hworker, hrow, if_pos hfinalizer]; rfl)
        · by_cases hthrows : (finalizerThrows || !finalizerMeets candidate row) = true
          · exact same (by simp only [step, hworker, hrow, if_neg hfinalizer, if_pos hthrows])
          · exact written (by
              simp only [step, hworker, hrow, if_neg hfinalizer, if_neg hthrows]; rfl)

/-- **One step, one row.**  A step takes every row along `ReconcileRowStep`, and a row that
    appears has no `result` yet. -/
theorem ReconcileSystem.step_find (s : ReconcileSystem) (op : ReconcileOp) (id : Id) :
    (∀ r, s.base.jobs.find id = some r →
        ∃ r', (s.step op).base.jobs.find id = some r' ∧ ReconcileRowStep s r op r')
      ∧ (s.base.jobs.find id = none → ∀ r', (s.step op).base.jobs.find id = some r' →
        r'.result = none) := by
  by_cases hop : ∃ job, op = .job job
  · obtain ⟨job, rfl⟩ := hop
    refine ⟨fun r hr => ?_, fun hnone r' hr' => ?_⟩
    · obtain ⟨r', hr', hstep⟩ := JobSystem.step_find job hr
      exact ⟨r', hr', .job hstep⟩
    · obtain ⟨_, _, _, _, rfl⟩ := JobSystem.step_find_new hnone hr'
      rfl
  · push Not at hop
    obtain ⟨p, f, hrows, hrow⟩ := s.step_updates op hop
    have hkey : ∀ r ∈ s.base.jobs, (if p r then f r else r).id = r.id := by
      intro r _
      by_cases hp : p r = true
      · rw [if_pos hp]; exact (hrow r hp).1
      · rw [if_neg hp]
    rw [Table.find_of_rows_map hrows hkey]
    refine ⟨fun r hr => ⟨if p r then f r else r, by rw [hr]; rfl, ?_⟩,
      fun hnone r' hr' => by simp [hnone] at hr'⟩
    by_cases hp : p r = true
    · rw [if_pos hp]; exact (hrow r hp).2
    · rw [if_neg hp]; exact .unchanged op

end ComposeBastion
