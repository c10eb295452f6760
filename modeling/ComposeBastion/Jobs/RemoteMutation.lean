import ComposeBastion.Jobs.RemoteOutcome

namespace ComposeBastion

open Runs

/-!
# Remote mutations and their proof

`services/remoteMutationProof.ts` with the transports of `services/ssh.ts` and
`services/agent.ts`: a command that runs under `withRemoteMutationContext` is recorded in the job
row before it is sent, and its end is recorded when the response tells of it.  Both writes are
fenced by the lease of the attempt, and the row has room for one proof.

* `RemoteOperation`, `AttemptExecutor` — a dispatched operation, and where an attempt is in the
  command it runs;
* `MutationSystem.step` — the attempts of every job, together with all statements of the job
  system and of the reconciliation passes;
* `NothingForgotten`, `LaterProofsKept` — what the proof promises to the reconciler;
* `no_operation_forgotten` — it keeps the promise in every run in which an attempt dispatches
  nothing while an operation of its own is unresolved;
* `cleanup_hides_lost_operation` — it does not otherwise.
-/

/-! ### Operations and executors -/

/-- `RemoteMutationRuntimeState`, and `transport_lost` for a command without a response. -/
inductive RemoteMutationRuntimeState
  | terminal (state : RemoteMutationTerminalState)
  | running | missing | proofUnavailable | transportLost
  deriving DecidableEq, Repr

/-- An operation whose dispatch was recorded and whose command was sent.  `ended` says that a
    response told of its end. -/
structure RemoteOperation where
  jobId : Id
  attemptCount : ℕ
  sequence : ℕ
  phase : String
  ended : Bool
  deriving DecidableEq, Repr

/-- Where an attempt is in its current command; operations are named by their number. -/
inductive CommandPhase
  | idle
  /-- Dispatched and sent. -/
  | awaiting (operation : ℕ)
  /-- The response was terminal, and is not recorded yet. -/
  | answered (operation : ℕ) (state : RemoteMutationTerminalState)
  deriving DecidableEq, Repr

/-- The operation a command is about. -/
def CommandPhase.operation : CommandPhase → Option ℕ
  | idle => none
  | awaiting operation | answered operation _ => some operation

/-- The worker's side of an attempt: its fence, and `sequenceByFence`. -/
structure AttemptExecutor where
  lease : JobLease
  sequence : ℕ
  command : CommandPhase
  deriving DecidableEq, Repr

/-- `result.remoteMutationProof` of a row. -/
def JobRow.proof (row : JobRow) : Option RemoteMutationProof :=
  row.result.bind (·.remoteMutationProof)

/-- Whether an operation belongs to an attempt. -/
def RemoteOperation.of (id : Id) (n : ℕ) (operation : RemoteOperation) : Bool :=
  operation.jobId == id && operation.attemptCount == n

theorem RemoteOperation.of_iff {id : Id} {n : ℕ} {operation : RemoteOperation} :
    operation.of id n = true ↔ operation.jobId = id ∧ operation.attemptCount = n := by
  simp [RemoteOperation.of]

/-! ### The statements that leave the proof alone -/

/-- The job's own result has no key `remoteMutationProof`, and no other transaction under the
    lease writes it. -/
def JobOp.leavesProof : JobOp → Bool
  | withActiveJobLeaseTransaction _ _ callback => callback == .throws || callback == .otherTables
  | completeJob _ result _ _ => result.remoteMutationProof == none
  | _ => true

def ReconcileOp.leavesProof : ReconcileOp → Bool
  | job op => op.leavesProof
  | _ => true

/-! ### The system -/

/-- The job system with its reconcilers, the executors by attempt, and the operations that were
    dispatched, in order. -/
structure MutationSystem where
  base : ReconcileSystem
  executor : Id → ℕ → Option AttemptExecutor
  operations : List RemoteOperation

/-- The jobs table. -/
def MutationSystem.jobs (s : MutationSystem) : JobTable := s.base.base.jobs

/-- No jobs and no attempts. -/
def MutationSystem.initial (now : Time) : MutationSystem :=
  ⟨.initial now, fun _ _ => none, []⟩

/-- One step of the system. -/
inductive MutationOp
  /-- Any other statement. -/
  | other (op : { op : ReconcileOp // op.leavesProof = true })
  /-- A worker claims a job and starts to execute it. -/
  | claim (workerId : Id) (locked : List Id)
  /-- The attempt starts a command in a context with this phase.  The acknowledgement of the
      fenced write may be lost, and then the command is not sent. -/
  | dispatch (id : Id) (n : ℕ) (phase : String) (acknowledged : Bool)
  /-- The response, or its absence. -/
  | respond (id : Id) (n : ℕ) (response : RemoteMutationRuntimeState)
  /-- The fenced write of the terminal state, whether or not it is acknowledged. -/
  | recordTerminal (id : Id) (n : ℕ)
  /-- The process of the attempt is lost. -/
  | crash (id : Id) (n : ℕ)

section System

variable (sha256 : String → String)

/-- The operation id: the digest of job, attempt, sequence and phase. -/
def RemoteOperation.operationId (operation : RemoteOperation) : Id :=
  sha256 (operation.jobId ++ "\x00" ++ toString operation.attemptCount ++ "\x00"
    ++ toString operation.sequence ++ "\x00" ++ operation.phase)

/-- The proof that a dispatch writes. -/
def RemoteOperation.proof (operation : RemoteOperation) : RemoteMutationProof where
  operationId := operation.operationId sha256
  jobId := operation.jobId
  attemptCount := operation.attemptCount
  phase := operation.phase
  status := .dispatched

/-- `nextContext` with the sequence that `recordRemoteMutationDispatch` draws: a fence without a
    job or an attempt gives no context. -/
def nextContext (jobId : Id) (attemptCount sequence : ℕ) (phase : String) :
    Option RemoteOperation :=
  if jobId = "" ∨ attemptCount < 1 then none
  else some ⟨jobId, attemptCount, sequence, String.ofList (phase.toList.take 160), false⟩

namespace MutationSystem

/-- A transaction under the lease of an attempt. -/
def fenced (s : MutationSystem) (id : Id) (lease : JobLease) (callback : LeaseCallback) :
    ReconcileSystem :=
  s.base.step (.job (.withActiveJobLeaseTransaction id lease callback))

/-- The attempt moves on. -/
def setExecutor (s : MutationSystem) (id : Id) (n : ℕ) (executor : Option AttemptExecutor) :
    Id → ℕ → Option AttemptExecutor :=
  fun id' n' => if id' = id ∧ n' = n then executor else s.executor id' n'

/-- `claimNextJob`, whose row gives the worker its fence. -/
def claim (s : MutationSystem) (workerId : Id) (locked : List Id) : MutationSystem :=
  let next := s.base.step (.job (.claimNextJob workerId locked))
  match (claimNextJob s.base.base.clock workerId locked s.jobs).2 with
  | none => { s with base := next }
  | some row =>
    { s with
      base := next
      executor := s.setExecutor row.id row.attemptCount
        (some ⟨⟨workerId, row.attemptCount⟩, 0, .idle⟩) }

/-- `recordRemoteMutationDispatch`, and the command is sent if it returned.  Without a context
    the command runs untracked. -/
def dispatch (s : MutationSystem) (id : Id) (n : ℕ) (phase : String) (acknowledged : Bool)
    (executor : AttemptExecutor) : MutationSystem :=
  match nextContext id n (executor.sequence + 1) phase with
  | none => s
  | some operation =>
    let callback := .recordRemoteMutationDispatch (operation.proof sha256)
    let next := s.fenced id executor.lease callback
    if acknowledged && (withActiveJobLeaseTransaction s.base.base.clock id executor.lease callback
        s.jobs).2 then
      { base := next
        executor := s.setExecutor id n (some
          { executor with
            sequence := executor.sequence + 1, command := .awaiting s.operations.length })
        operations := s.operations ++ [operation] }
    else
      { s with
        base := next
        executor := s.setExecutor id n (some
          { executor with sequence := executor.sequence + 1 }) }

/-- A terminal response is known before it is recorded; any other one makes the command throw,
    and the caller goes on as it likes. -/
def respond (s : MutationSystem) (id : Id) (n : ℕ) (response : RemoteMutationRuntimeState)
    (executor : AttemptExecutor) (operation : ℕ) : MutationSystem :=
  match response with
  | .terminal state =>
    { s with
      executor := s.setExecutor id n (some { executor with command := .answered operation state })
      operations := s.operations.modify operation fun o => { o with ended := true } }
  | .running | .missing | .proofUnavailable | .transportLost =>
    { s with executor := s.setExecutor id n (some { executor with command := .idle }) }

/-- `recordRemoteMutationTerminal`. -/
def recordTerminal (s : MutationSystem) (id : Id) (n : ℕ) (executor : AttemptExecutor)
    (operation : ℕ) (state : RemoteMutationTerminalState) : MutationSystem :=
  match s.operations[operation]? with
  | none => s
  | some o =>
    { s with
      base := s.fenced id executor.lease
        (.recordRemoteMutationTerminal (o.operationId sha256) state)
      executor := s.setExecutor id n (some { executor with command := .idle }) }

/-- One step.  A step that its attempt is not ready for does nothing. -/
def step (s : MutationSystem) : MutationOp → MutationSystem
  | .other op => { s with base := s.base.step op.1 }
  | .claim workerId locked => s.claim workerId locked
  | .dispatch id n phase acknowledged =>
    match s.executor id n with
    | some executor =>
      if executor.command = .idle then s.dispatch sha256 id n phase acknowledged executor else s
    | none => s
  | .respond id n response =>
    match s.executor id n with
    | some executor =>
      match executor.command with
      | .awaiting operation => s.respond id n response executor operation
      | .idle | .answered .. => s
    | none => s
  | .recordTerminal id n =>
    match s.executor id n with
    | some executor =>
      match executor.command with
      | .answered operation state => s.recordTerminal sha256 id n executor operation state
      | .idle | .awaiting _ => s
    | none => s
  | .crash id n => { s with executor := s.setExecutor id n none }

end MutationSystem

/-! ### What the proof promises -/

/-- A terminal proof means that every operation of its attempt is known to have ended. -/
def NothingForgotten (s : MutationSystem) : Prop :=
  ∀ id r proof state, s.jobs.find id = some r → r.proof = some proof →
    proof.status = .terminal state →
    ∀ operation ∈ s.operations, operation.of id proof.attemptCount = true →
      operation.ended = true

/-- The writes of an attempt that has lost its lease, or that has been followed by another one,
    change no row. -/
def LaterProofsKept (s : MutationSystem) : Prop :=
  ∀ id n executor r, s.executor id n = some executor → s.jobs.find id = some r →
    n < r.attemptCount ∨ LeaseLost s.base.base id executor.lease →
    (∀ phase acknowledged, (s.step sha256 (.dispatch id n phase acknowledged)).jobs = s.jobs) ∧
      (s.step sha256 (.recordTerminal id n)).jobs = s.jobs

/-- The steps that overwrite no unresolved proof: when an attempt dispatches, every operation it
    has dispatched before is known to have ended. -/
def resolvedFirst (s : MutationSystem) : MutationOp → Bool
  | .dispatch id n _ _ => s.operations.all fun operation => !operation.of id n || operation.ended
  | _ => true

/-! ### Rows and their proofs -/

/-- The row is in the attempt of `lease`, and in its hands; whether it has run out is left
    open. -/
def InHands (lease : JobLease) (r : JobRow) : Prop :=
  r.status = .running ∧ r.leaseOwner = some lease.workerId ∧ r.attemptCount = lease.attemptCount

theorem InHands.of_leasePredicate {now : Time} {lease : JobLease} {r : JobRow}
    (h : leasePredicate now lease r = true) : InHands lease r := by
  obtain ⟨hrunning, howner, hattempt, -⟩ := leasePredicate_iff.mp h
  exact ⟨hrunning, howner, hattempt⟩

/-- Other statements keep the proof or drop it. -/
theorem RowStep.proof_of_leavesProof {now : Time} {r r' : JobRow} {op : JobOp}
    (h : RowStep now r op r') (hop : op.leavesProof = true) :
    r'.proof = r.proof ∨ r'.proof = none := by
  cases h with
  | calledBack lease callback hheld =>
    simp only [JobOp.leavesProof, Bool.or_eq_true, beq_iff_eq] at hop
    rcases hop with rfl | rfl <;> exact Or.inl rfl
  | completed result lease hheld =>
    simp only [JobOp.leavesProof, beq_iff_eq] at hop
    exact Or.inr hop
  | requeued => exact Or.inr rfl
  | handedOff => exact Or.inr rfl
  | recovered =>
    unfold recoverRow
    split <;> exact Or.inl rfl
  | handoffFinalized error =>
    cases hres : r.result <;> simp [JobRow.proof, endHandoff, hres, JobResult.empty]
  | handoffFailed message =>
    cases hres : r.result <;> simp [JobRow.proof, endHandoff, hres, JobResult.empty]
  | _ => exact Or.inl rfl

/-- A row that another statement leaves in the hands of a lease was there before, with the same
    proof. -/
theorem RowStep.inHands {now : Time} {r r' : JobRow} {op : JobOp} (h : RowStep now r op r')
    (hop : op.leavesProof = true) {lease : JobLease} (hle : lease.attemptCount ≤ r.attemptCount)
    (hheld : InHands lease r') : InHands lease r ∧ r'.proof = r.proof := by
  obtain ⟨hrunning, howner, hattempt⟩ := hheld
  cases h with
  | unchanged => exact ⟨⟨hrunning, howner, hattempt⟩, rfl⟩
  | renewed => exact ⟨⟨hrunning, howner, hattempt⟩, rfl⟩
  | calledBack lease' callback hheld =>
    simp only [JobOp.leavesProof, Bool.or_eq_true, beq_iff_eq] at hop
    rcases hop with rfl | rfl <;> exact ⟨⟨hrunning, howner, hattempt⟩, rfl⟩
  | claimed => simp only [claimRow] at hattempt; omega
  | recovered => exact absurd hrunning (recoverRow_fields now r).1
  | _ => cases howner

theorem ReconcileRowStep.proof_of_leavesProof {s : ReconcileSystem} {r r' : JobRow}
    {op : ReconcileOp} (h : ReconcileRowStep s r op r') (hop : op.leavesProof = true) :
    r'.proof = r.proof ∨ r'.proof = none := by
  cases h with
  | unchanged => exact Or.inl rfl
  | job h => exact h.proof_of_leavesProof hop
  | claimed =>
    cases hres : r.result <;> simp [JobRow.proof, JobRow.setReconciliation, hres, JobResult.empty]
  | inspected =>
    cases hres : r.result <;> simp [JobRow.proof, JobRow.setReconciliation, hres, JobResult.empty]

theorem ReconcileRowStep.inHands {s : ReconcileSystem} {r r' : JobRow} {op : ReconcileOp}
    (h : ReconcileRowStep s r op r') (hop : op.leavesProof = true) {lease : JobLease}
    (hle : lease.attemptCount ≤ r.attemptCount) (hheld : InHands lease r') :
    InHands lease r ∧ r'.proof = r.proof := by
  cases h with
  | unchanged => exact ⟨hheld, rfl⟩
  | job h => exact h.inHands hop hle hheld
  | claimed w token candidate rest hworker hid hfailed =>
    have hrunning : r.status = .running := hheld.1
    rw [hfailed] at hrunning
    cases hrunning
  | inspected op rec rec' hfailed =>
    have hrunning : r.status = .running := hheld.1
    rw [hfailed] at hrunning
    cases hrunning

theorem ReconcileRowStep.attemptCount_le {s : ReconcileSystem} {r r' : JobRow} {op : ReconcileOp}
    (h : ReconcileRowStep s r op r') : r.attemptCount ≤ r'.attemptCount := by
  cases h with
  | job h => exact h.attemptCount_le
  | _ => exact le_rfl

/-! ### Writes under a lease -/

/-- The rows after a transaction under a lease. -/
theorem find_fenced (s : MutationSystem) (id : Id) (lease : JobLease) (callback : LeaseCallback)
    (id' : Id) :
    (s.fenced id lease callback).base.jobs.find id' = (s.jobs.find id').map fun r =>
      if heldBy s.base.base.clock id lease r then callback.write s.base.base.clock r else r := by
  show (s.jobs.update _ _ (callback.write_id s.base.base.clock)).find id' = _
  exact Table.find_update id'

/-- A row after a transaction under a lease: it is written, by the holder of the attempt, or it
    stays. -/
theorem fenced_cases {s : MutationSystem} {id id' : Id} {lease : JobLease}
    {callback : LeaseCallback} {r' : JobRow}
    (h : (s.fenced id lease callback).base.jobs.find id' = some r') :
    s.jobs.find id' = some r' ∨
      ∃ r, s.jobs.find id' = some r ∧ id' = id ∧ InHands lease r ∧
        r' = callback.write s.base.base.clock r := by
  rw [find_fenced] at h
  obtain ⟨r, hr, hr'⟩ := Option.map_eq_some_iff.mp h
  by_cases hheld : heldBy s.base.base.clock id lease r = true
  · rw [if_pos hheld] at hr'
    obtain ⟨hid, hlease⟩ := heldBy_iff.mp hheld
    have hkey : r.id = id' := (Table.find_eq_some.mp hr).2
    exact Or.inr ⟨r, hr, hkey.symm.trans hid, .of_leasePredicate hlease, hr'.symm⟩
  · rw [if_neg hheld] at hr'
    exact Or.inl (hr' ▸ hr)

/-- A transaction under a lease leaves the rows of other attempts alone. -/
theorem fenced_other {s : MutationSystem} {id id' : Id} {lease lease' : JobLease}
    {callback : LeaseCallback} {r' : JobRow}
    (h : (s.fenced id lease callback).base.jobs.find id' = some r') (hheld : InHands lease' r')
    (hother : ¬ (id' = id ∧ lease'.attemptCount = lease.attemptCount)) :
    s.jobs.find id' = some r' := by
  rcases fenced_cases h with hsame | ⟨r, -, hid, hlease, rfl⟩
  · exact hsame
  · have hattempt := (callback.write_fields s.base.base.clock r).2.1
    exact absurd ⟨hid, hheld.2.2.symm.trans (hattempt.trans hlease.2.2)⟩ hother

/-- A transaction under a lease removes no row and starts no attempt. -/
theorem fenced_attempt {s : MutationSystem} {id : Id} {lease : JobLease}
    {callback : LeaseCallback} {id' : Id} {r : JobRow} (h : s.jobs.find id' = some r) :
    ∃ r', (s.fenced id lease callback).base.jobs.find id' = some r' ∧
      r.attemptCount ≤ r'.attemptCount := by
  obtain ⟨r', hr', hstep⟩ := (s.base.step_find (.job (.withActiveJobLeaseTransaction id lease
    callback)) id').1 r h
  exact ⟨r', hr', hstep.attemptCount_le⟩

/-! ### The invariant -/

/-- What holds between the executors, the operations and the rows. -/
structure MutationSystem.Tracked (s : MutationSystem) : Prop where
  claimed : ∀ {id n executor}, s.executor id n = some executor →
    executor.lease.attemptCount = n ∧ ∃ r, s.jobs.find id = some r ∧ n ≤ r.attemptCount
  /-- While an attempt is in a command, the proof in its row is that of the command. -/
  current : ∀ {id n executor i}, s.executor id n = some executor →
    executor.command.operation = some i →
    ∃ operation, s.operations[i]? = some operation ∧ operation.of id n = true ∧
      ∀ r, s.jobs.find id = some r → InHands executor.lease r →
        r.proof = some (operation.proof sha256)
  /-- All other operations of the attempt are known to have ended. -/
  resolved : ∀ {id n executor i j operation}, s.executor id n = some executor →
    executor.command.operation = some i → s.operations[j]? = some operation →
    operation.of id n = true → j ≠ i → operation.ended = true
  answered : ∀ {id n executor i state operation}, s.executor id n = some executor →
    executor.command = .answered i state → s.operations[i]? = some operation →
    operation.ended = true
  nothing : NothingForgotten s

variable {sha256}

theorem tracked_initial (now : Time) : (MutationSystem.initial now).Tracked sha256 where
  claimed h := by cases h
  current h := by cases h
  resolved h := by cases h
  answered h := by cases h
  nothing _ _ _ _ h := by cases h

/-- An executor after one of them has moved on. -/
theorem setExecutor_cases {s : MutationSystem} {id id' : Id} {n n' : ℕ}
    {executor : Option AttemptExecutor} {executor' : AttemptExecutor}
    (h : s.setExecutor id n executor id' n' = some executor') :
    (id' = id ∧ n' = n ∧ executor = some executor') ∨
      (¬ (id' = id ∧ n' = n) ∧ s.executor id' n' = some executor') := by
  unfold MutationSystem.setExecutor at h
  by_cases hsame : id' = id ∧ n' = n
  · rw [if_pos hsame] at h
    exact Or.inl ⟨hsame.1, hsame.2, h⟩
  · rw [if_neg hsame] at h
    exact Or.inr ⟨hsame, h⟩

/-- **Other statements keep the invariant.** -/
theorem MutationSystem.Tracked.other {s : MutationSystem} (h : s.Tracked sha256) {op : ReconcileOp}
    (hop : op.leavesProof = true) : { s with base := s.base.step op }.Tracked sha256 where
  claimed hexecutor := by
    obtain ⟨hattempt, r, hr, hle⟩ := h.claimed hexecutor
    obtain ⟨r', hr', hstep⟩ := (s.base.step_find op _).1 r hr
    exact ⟨hattempt, r', hr', hle.trans hstep.attemptCount_le⟩
  current hexecutor hcommand := by
    obtain ⟨operation, hget, hof, hproof⟩ := h.current hexecutor hcommand
    refine ⟨operation, hget, hof, fun r' hr' hheld => ?_⟩
    obtain ⟨hattempt, r, hr, hle⟩ := h.claimed hexecutor
    obtain ⟨r₁, hr₁, hstep⟩ := (s.base.step_find op _).1 r hr
    obtain rfl := Option.some.inj (hr'.symm.trans hr₁)
    obtain ⟨hwas, hsame⟩ := hstep.inHands hop (hattempt.trans_le hle) hheld
    rw [hsame]
    exact hproof r hr hwas
  resolved := h.resolved
  answered := h.answered
  nothing id r' proof state hr' hproof hterminal := by
    cases hr : s.jobs.find id with
    | none =>
      have hresult := (s.base.step_find op id).2 hr r' hr'
      simp [JobRow.proof, hresult] at hproof
    | some r =>
      obtain ⟨r₁, hr₁, hstep⟩ := (s.base.step_find op id).1 r hr
      obtain rfl := Option.some.inj (hr'.symm.trans hr₁)
      rcases hstep.proof_of_leavesProof hop with hsame | hnone
      · exact h.nothing id r proof state hr (hsame ▸ hproof) hterminal
      · rw [hnone] at hproof
        cases hproof

/-- **An attempt that is between two commands keeps the invariant.** -/
theorem MutationSystem.Tracked.idle {s : MutationSystem} (h : s.Tracked sha256) {id : Id} {n : ℕ}
    {executor : Option AttemptExecutor}
    (hidle : ∀ e, executor = some e → e.command = .idle ∧ e.lease.attemptCount = n ∧
      ∃ r, s.jobs.find id = some r ∧ n ≤ r.attemptCount) :
    { s with executor := s.setExecutor id n executor }.Tracked sha256 where
  claimed hexecutor := by
    rcases setExecutor_cases hexecutor with ⟨rfl, rfl, hsome⟩ | ⟨-, hother⟩
    · exact (hidle _ hsome).2
    · exact h.claimed hother
  current hexecutor hcommand := by
    rcases setExecutor_cases hexecutor with ⟨rfl, rfl, hsome⟩ | ⟨-, hother⟩
    · rw [(hidle _ hsome).1] at hcommand
      cases hcommand
    · exact h.current hother hcommand
  resolved hexecutor hcommand := by
    rcases setExecutor_cases hexecutor with ⟨rfl, rfl, hsome⟩ | ⟨-, hother⟩
    · rw [(hidle _ hsome).1] at hcommand
      cases hcommand
    · exact h.resolved hother hcommand
  answered hexecutor hcommand := by
    rcases setExecutor_cases hexecutor with ⟨rfl, rfl, hsome⟩ | ⟨-, hother⟩
    · rw [(hidle _ hsome).1] at hcommand
      cases hcommand
    · exact h.answered hother hcommand
  nothing := h.nothing

/-- **A write under the lease of an attempt keeps the invariant**, if the attempt has no command
    that its row must tell of, and a terminal proof that is written is true. -/
theorem MutationSystem.Tracked.fenced {s : MutationSystem} (h : s.Tracked sha256) {id : Id} {n : ℕ}
    {executor : AttemptExecutor} (hexecutor : s.executor id n = some executor)
    {callback : LeaseCallback}
    (hwritten : ∀ r proof state, s.jobs.find id = some r → InHands executor.lease r →
      (callback.write s.base.base.clock r).proof = some proof →
      proof.status = .terminal state →
      ∀ operation ∈ s.operations, operation.of id proof.attemptCount = true →
        operation.ended = true) (sequence : ℕ) :
    { s with
      base := s.fenced id executor.lease callback
      executor := s.setExecutor id n (some ⟨executor.lease, sequence, .idle⟩) }.Tracked
        sha256 := by
  obtain ⟨hattempt, -⟩ := h.claimed hexecutor
  have hrows : ∀ {id' n' executor'}, s.executor id' n' = some executor' →
      ∃ r, (s.fenced id executor.lease callback).base.jobs.find id' = some r ∧
        n' ≤ r.attemptCount := by
    intro id' n' executor' hexecutor'
    obtain ⟨-, r, hr, hle⟩ := h.claimed hexecutor'
    obtain ⟨r', hr', hle'⟩ := fenced_attempt hr
    exact ⟨r', hr', hle.trans hle'⟩
  refine ⟨fun hnew => ?_, fun hnew hcommand => ?_, fun hnew hcommand => ?_,
    fun hnew hcommand => ?_, fun id' r' proof state hr' hproof hterminal => ?_⟩
  · rcases setExecutor_cases hnew with ⟨rfl, rfl, hsome⟩ | ⟨-, hother⟩
    · cases hsome
      exact ⟨hattempt, hrows hexecutor⟩
    · exact ⟨(h.claimed hother).1, hrows hother⟩
  · rcases setExecutor_cases hnew with ⟨rfl, rfl, hsome⟩ | ⟨hne, hother⟩
    · cases hsome
      cases hcommand
    · obtain ⟨operation, hget, hof, hproof⟩ := h.current hother hcommand
      refine ⟨operation, hget, hof, fun r' hr' hheld => ?_⟩
      refine hproof r' (fenced_other hr' hheld ?_) hheld
      rw [(h.claimed hother).1, hattempt]
      exact hne
  · rcases setExecutor_cases hnew with ⟨rfl, rfl, hsome⟩ | ⟨-, hother⟩
    · cases hsome
      cases hcommand
    · exact h.resolved hother hcommand
  · rcases setExecutor_cases hnew with ⟨rfl, rfl, hsome⟩ | ⟨-, hother⟩
    · cases hsome
      cases hcommand
    · exact h.answered hother hcommand
  · rcases fenced_cases hr' with hsame | ⟨r, hr, rfl, hheld, rfl⟩
    · exact h.nothing id' r' proof state hsame hproof hterminal
    · exact hwritten r proof state hr hheld hproof hterminal

/-- The proof in a row that a dispatch was written to. -/
theorem proof_write_dispatch {now : Time} {operation : RemoteOperation} {r : JobRow}
    (h : operation.attemptCount = r.attemptCount) :
    ((LeaseCallback.recordRemoteMutationDispatch (operation.proof sha256)).write now r).proof =
      some (operation.proof sha256) := by
  have hattempt : (operation.proof sha256).attemptCount = r.attemptCount := h
  simp only [LeaseCallback.write, LeaseCallback.run, hattempt, if_true]
  rfl

/-- The proof in a row that the end of the operation on record was written to. -/
theorem proof_write_terminal {now : Time} {operation : RemoteOperation} {r : JobRow}
    {state : RemoteMutationTerminalState} (h : r.proof = some (operation.proof sha256)) :
    ((LeaseCallback.recordRemoteMutationTerminal (operation.operationId sha256) state).write now
      r).proof = some { operation.proof sha256 with status := .terminal state } := by
  have hid : (operation.proof sha256).operationId = operation.operationId sha256 := rfl
  unfold JobRow.proof at h
  simp only [LeaseCallback.write, LeaseCallback.run, h, hid, if_true]
  rfl

/-- **A dispatch that is sent keeps the invariant**, if the attempt has no unresolved operation
    and its row tells of the new one. -/
theorem MutationSystem.Tracked.sent {s : MutationSystem} (h : s.Tracked sha256) {id : Id} {n : ℕ}
    {executor : AttemptExecutor} (hexecutor : s.executor id n = some executor)
    {operation : RemoteOperation} (hof : operation.of id n = true)
    (hproof : ∀ r, s.jobs.find id = some r → r.proof = some (operation.proof sha256))
    (hended : ∀ o ∈ s.operations, o.of id n = true → o.ended = true) (sequence : ℕ) :
    { s with
      executor := s.setExecutor id n (some
        { executor with sequence := sequence, command := .awaiting s.operations.length })
      operations := s.operations ++ [operation] }.Tracked sha256 := by
  have hold : ∀ {id' n' : _} {j : ℕ} {o : RemoteOperation}, ¬ (id' = id ∧ n' = n) →
      (s.operations ++ [operation])[j]? = some o → o.of id' n' = true →
      s.operations[j]? = some o := by
    intro id' n' j o hne hget ho
    rcases getElem?_concat_cases hget with hget | ⟨-, rfl⟩
    · exact hget
    · obtain ⟨rfl, rfl⟩ := RemoteOperation.of_iff.mp hof
      obtain ⟨rfl, rfl⟩ := RemoteOperation.of_iff.mp ho
      exact absurd ⟨rfl, rfl⟩ hne
  have hclaimed := h.claimed hexecutor
  refine ⟨fun hnew => ?_, fun hnew hcommand => ?_, fun {_ _ _ i j o} hnew hcommand hget ho hne => ?_,
    fun {_ _ _ i state o} hnew hcommand hget => ?_,
    fun id' r proof state hr hp hterminal o ho hof' => ?_⟩
  · rcases setExecutor_cases hnew with ⟨rfl, rfl, hsome⟩ | ⟨-, hother⟩
    · cases hsome
      exact hclaimed
    · exact h.claimed hother
  · rcases setExecutor_cases hnew with ⟨rfl, rfl, hsome⟩ | ⟨-, hother⟩
    · cases hsome
      cases hcommand
      exact ⟨operation, List.getElem?_concat_length, hof, fun r hr _ => hproof r hr⟩
    · obtain ⟨o, hget, ho, hrow⟩ := h.current hother hcommand
      have hlt := (List.getElem?_eq_some_iff.mp hget).1
      exact ⟨o, (List.getElem?_append_left hlt).trans hget, ho, hrow⟩
  · rcases setExecutor_cases hnew with ⟨rfl, rfl, hsome⟩ | ⟨hother, hexecutor'⟩
    · cases hsome
      cases hcommand
      rcases getElem?_concat_cases hget with hget | ⟨rfl, -⟩
      · exact hended o (List.mem_of_getElem? hget) ho
      · exact absurd rfl hne
    · exact h.resolved hexecutor' hcommand (hold hother hget ho) ho hne
  · rcases setExecutor_cases hnew with ⟨rfl, rfl, hsome⟩ | ⟨hother, hexecutor'⟩
    · cases hsome
      cases hcommand
    · have hcommand' := congrArg CommandPhase.operation hcommand
      obtain ⟨o', hget', -, -⟩ := h.current hexecutor' hcommand'
      have hlt := (List.getElem?_eq_some_iff.mp hget').1
      rw [List.getElem?_append_left hlt] at hget
      exact h.answered hexecutor' hcommand hget
  · rcases List.mem_append.mp ho with ho | ho
    · exact h.nothing id' r proof state hr hp hterminal o ho hof'
    · -- The row of the new operation has its proof, which is not terminal.
      obtain rfl := List.mem_singleton.mp ho
      obtain ⟨rfl, -⟩ := RemoteOperation.of_iff.mp hof
      obtain ⟨rfl, -⟩ := RemoteOperation.of_iff.mp hof'
      rw [hproof r hr] at hp
      cases hp
      cases hterminal

/-- The operations after the end of one of them is known. -/
theorem getElem?_modify_ended (operations : List RemoteOperation) (i j : ℕ) :
    (operations.modify i fun o => { o with ended := true })[j]? =
      operations[j]?.map fun o => { o with ended := o.ended || decide (i = j) } := by
  rw [List.getElem?_modify]
  congr 1
  ext o
  by_cases hij : i = j
  · simp [hij]
  · simp [hij]

/-- **A terminal response keeps the invariant.** -/
theorem MutationSystem.Tracked.answer {s : MutationSystem} (h : s.Tracked sha256) {id : Id} {n : ℕ}
    {executor : AttemptExecutor} (hexecutor : s.executor id n = some executor) {i : ℕ}
    (hawaiting : executor.command = .awaiting i) (state : RemoteMutationTerminalState) :
    (s.respond id n (.terminal state) executor i).Tracked sha256 := by
  have hclaimed := h.claimed hexecutor
  have hcommand : executor.command.operation = some i := by rw [hawaiting]; rfl
  -- Every executor is about the operation that it was about before.
  have hbefore : ∀ {id' n' executor' j}, s.setExecutor id n
      (some { executor with command := .answered i state }) id' n' = some executor' →
      executor'.command.operation = some j →
      ∃ e, s.executor id' n' = some e ∧ e.command.operation = some j ∧
        e.lease = executor'.lease := by
    intro id' n' executor' j hnew hop
    rcases setExecutor_cases hnew with ⟨rfl, rfl, hsome⟩ | ⟨-, hother⟩
    · cases hsome
      exact ⟨executor, hexecutor, hcommand.trans hop, rfl⟩
    · exact ⟨executor', hother, hop, rfl⟩
  have hafter : ∀ {j : ℕ} {operation : RemoteOperation},
      (s.operations.modify i fun o => { o with ended := true })[j]? = some operation →
      ∃ o, s.operations[j]? = some o ∧
        operation = { o with ended := o.ended || decide (i = j) } := by
    intro j operation hget
    rw [getElem?_modify_ended] at hget
    obtain ⟨o, hget, ho⟩ := Option.map_eq_some_iff.mp hget
    exact ⟨o, hget, ho.symm⟩
  refine ⟨fun hnew => ?_, fun {_ _ _ j} hnew hop => ?_, fun hnew hop hget ho hne => ?_,
    fun hnew hop hget => ?_, fun id' r proof state hr hp hterminal o ho hof => ?_⟩
  · rcases setExecutor_cases hnew with ⟨rfl, rfl, hsome⟩ | ⟨-, hother⟩
    · cases hsome
      exact hclaimed
    · exact h.claimed hother
  · obtain ⟨e, he, hop', hlease⟩ := hbefore hnew hop
    obtain ⟨o, hget, ho, hrow⟩ := h.current he hop'
    refine ⟨{ o with ended := o.ended || decide (i = j) }, ?_, ho, ?_⟩
    · show (s.operations.modify i _)[j]? = _
      rw [getElem?_modify_ended, hget, Option.map_some]
    · rw [← hlease]
      exact hrow
  · obtain ⟨e, he, hop', -⟩ := hbefore hnew hop
    obtain ⟨o, hget', rfl⟩ := hafter hget
    simp [h.resolved he hop' hget' ho hne]
  · obtain ⟨o, hget', rfl⟩ := hafter hget
    rcases setExecutor_cases hnew with ⟨rfl, rfl, hsome⟩ | ⟨-, hother⟩
    · cases hsome
      cases hop
      simp
    · simp [h.answered hother hop hget']
  · obtain ⟨j, hget⟩ := List.mem_iff_getElem?.mp ho
    obtain ⟨o, hget', rfl⟩ := hafter hget
    simp [h.nothing id' r proof _ hr hp hterminal o (List.mem_of_getElem? hget') hof]

/-- **A recorded end keeps the invariant.**  The proof that becomes terminal is that of the
    attempt's last operation, and all its others had ended before. -/
theorem MutationSystem.Tracked.recordTerminal {s : MutationSystem} (h : s.Tracked sha256) {id : Id}
    {n : ℕ} {executor : AttemptExecutor} (hexecutor : s.executor id n = some executor) {i : ℕ}
    {state : RemoteMutationTerminalState} (hanswered : executor.command = .answered i state) :
    (s.recordTerminal sha256 id n executor i state).Tracked sha256 := by
  have hcommand : executor.command.operation = some i := by rw [hanswered]; rfl
  obtain ⟨operation, hget, hof, hproof⟩ := h.current hexecutor hcommand
  unfold MutationSystem.recordTerminal
  rw [hget]
  refine h.fenced hexecutor (fun r proof state' hr hheld hp hterminal o ho hof' => ?_) _
  rw [proof_write_terminal (hproof r hr hheld)] at hp
  cases hp
  rw [show (operation.proof sha256).attemptCount = n from
    (RemoteOperation.of_iff.mp hof).2] at hof'
  obtain ⟨j, hj⟩ := List.mem_iff_getElem?.mp ho
  by_cases hij : j = i
  · subst hij
    exact h.answered hexecutor hanswered hj
  · exact h.resolved hexecutor hcommand hj hof' hij

theorem setExecutor_setExecutor (s : MutationSystem) (base : ReconcileSystem) (id : Id) (n : ℕ)
    (executor executor' : Option AttemptExecutor) :
    { s with base := base, executor := s.setExecutor id n executor }.setExecutor id n executor' =
      s.setExecutor id n executor' := by
  funext id' n'
  unfold MutationSystem.setExecutor
  split
  · rfl
  · rename_i hne
    exact if_neg hne

/-- A transaction that succeeds under a lease is one of the holder. -/
theorem exists_held {now : Time} {id : Id} {lease : JobLease} {callback : LeaseCallback}
    {jobs : JobTable} (h : (withActiveJobLeaseTransaction now id lease callback jobs).2 = true) :
    ∃ r, jobs.find id = some r ∧ heldBy now id lease r = true := by
  obtain ⟨r, hmem, hr⟩ := List.any_eq_true.mp h
  have hheld := (Bool.and_eq_true_iff.mp hr).1
  exact ⟨r, Table.find_eq_some.mpr ⟨hmem, (heldBy_iff.mp hheld).1⟩, hheld⟩

/-- The row that a claim returns is in the table. -/
theorem find_claimed {now : Time} {workerId : Id} {locked : List Id} {jobs : JobTable}
    {row : JobRow} (h : (claimNextJob now workerId locked jobs).2 = some row) :
    (claimNextJob now workerId locked jobs).1.find row.id = some row := by
  unfold claimNextJob at h ⊢
  cases hhead : (queuedInOrder locked jobs).head? with
  | none => simp [hhead] at h
  | some next =>
    simp only [hhead, Option.some.injEq] at h
    subst h
    obtain ⟨hmem, -⟩ := mem_of_head?_queuedInOrder hhead
    show (jobs.update _ _ (claimRow_id now workerId)).find next.id = _
    rw [Table.find_update, Table.find_eq_some.mpr ⟨hmem, rfl⟩, Option.map_some, if_pos (by simp)]

/-- **A dispatch keeps the invariant**, if every earlier operation of the attempt is known to
    have ended. -/
theorem MutationSystem.Tracked.dispatch {s : MutationSystem} (h : s.Tracked sha256) {id : Id}
    {n : ℕ} {executor : AttemptExecutor} (hexecutor : s.executor id n = some executor)
    (hidle : executor.command = .idle)
    (hended : ∀ o ∈ s.operations, o.of id n = true → o.ended = true) (phase : String)
    (acknowledged : Bool) :
    (s.dispatch sha256 id n phase acknowledged executor).Tracked sha256 := by
  unfold MutationSystem.dispatch
  cases hcontext : nextContext id n (executor.sequence + 1) phase with
  | none => exact h
  | some operation =>
    have hop : operation.jobId = id ∧ operation.attemptCount = n := by
      unfold nextContext at hcontext
      split at hcontext
      · cases hcontext
      · cases hcontext
        exact ⟨rfl, rfl⟩
    have hproof : ∀ r, InHands executor.lease r →
        ((LeaseCallback.recordRemoteMutationDispatch (operation.proof sha256)).write
          s.base.base.clock r).proof = some (operation.proof sha256) := fun r hheld =>
      proof_write_dispatch (hop.2.trans ((h.claimed hexecutor).1.symm.trans hheld.2.2.symm))
    -- The write leaves a proof that is not terminal.
    have hwritten := fun sequence => h.fenced hexecutor
      (fun r proof state _ hheld hp hterminal => by
        rw [hproof r hheld] at hp
        cases hp
        cases hterminal) sequence
    by_cases hsent : (acknowledged && (withActiveJobLeaseTransaction s.base.base.clock id
        executor.lease (.recordRemoteMutationDispatch (operation.proof sha256)) s.jobs).2) = true
    · simp only [if_pos hsent]
      have hrow : ∀ r, (s.fenced id executor.lease
          (.recordRemoteMutationDispatch (operation.proof sha256))).base.jobs.find id = some r →
          r.proof = some (operation.proof sha256) := by
        obtain ⟨r, hr, hheld⟩ := exists_held (Bool.and_eq_true_iff.mp hsent).2
        intro r' hr'
        rw [find_fenced, hr, Option.map_some, if_pos hheld] at hr'
        cases hr'
        exact hproof r (.of_leasePredicate (heldBy_iff.mp hheld).2)
      have hnext := (hwritten executor.sequence).sent
        (show _ = some ⟨executor.lease, executor.sequence, .idle⟩ from if_pos ⟨rfl, rfl⟩)
        (RemoteOperation.of_iff.mpr hop) hrow hended (executor.sequence + 1)
      rw [setExecutor_setExecutor] at hnext
      exact hnext
    · simp only [if_neg hsent, hidle]
      exact hwritten (executor.sequence + 1)

/-- **Every step keeps the invariant**, if it overwrites no unresolved proof. -/
theorem MutationSystem.Tracked.step {s : MutationSystem} (h : s.Tracked sha256) {op : MutationOp}
    (hop : resolvedFirst s op = true) : (s.step sha256 op).Tracked sha256 := by
  cases op with
  | other op => exact h.other op.2
  | claim workerId locked =>
    have hbase : MutationSystem.Tracked sha256
        { s with base := s.base.step (.job (.claimNextJob workerId locked)) } := h.other rfl
    show (s.claim workerId locked).Tracked sha256
    unfold MutationSystem.claim
    cases hclaim : (claimNextJob s.base.base.clock workerId locked s.jobs).2 with
    | none => exact hbase
    | some row =>
      refine hbase.idle fun e he => ?_
      cases he
      exact ⟨rfl, rfl, row, find_claimed hclaim, le_rfl⟩
  | dispatch id n phase acknowledged =>
    cases hexecutor : s.executor id n with
    | none => simpa only [MutationSystem.step, hexecutor] using h
    | some executor =>
      by_cases hidle : executor.command = .idle
      · simp only [MutationSystem.step, hexecutor, if_pos hidle]
        refine h.dispatch hexecutor hidle (fun o ho hof => ?_) phase acknowledged
        have hall := List.all_eq_true.mp hop o ho
        simpa [hof] using hall
      · simpa only [MutationSystem.step, hexecutor, if_neg hidle] using h
  | respond id n response =>
    cases hexecutor : s.executor id n with
    | none => simpa only [MutationSystem.step, hexecutor] using h
    | some executor =>
      cases hcommand : executor.command with
      | idle => simpa only [MutationSystem.step, hexecutor, hcommand] using h
      | answered i state => simpa only [MutationSystem.step, hexecutor, hcommand] using h
      | awaiting i =>
        simp only [MutationSystem.step, hexecutor, hcommand]
        have hclaimed := h.claimed hexecutor
        have hidle : MutationSystem.Tracked sha256
            { s with
              executor :=
                s.setExecutor id n (some { executor with command := .idle }) } := by
          refine h.idle fun e he => ?_
          cases he
          exact ⟨rfl, hclaimed⟩
        cases response with
        | terminal state => exact h.answer hexecutor hcommand state
        | _ => exact hidle
  | recordTerminal id n =>
    cases hexecutor : s.executor id n with
    | none => simpa only [MutationSystem.step, hexecutor] using h
    | some executor =>
      cases hcommand : executor.command with
      | idle => simpa only [MutationSystem.step, hexecutor, hcommand] using h
      | awaiting i => simpa only [MutationSystem.step, hexecutor, hcommand] using h
      | answered i state =>
        simp only [MutationSystem.step, hexecutor, hcommand]
        exact h.recordTerminal hexecutor hcommand
  | crash id n => exact h.idle fun e he => by cases he

/-! ### Runs -/

/-- **Fenced out.**  Under the invariant, the writes of a lost or earlier attempt change no
    row. -/
theorem MutationSystem.Tracked.laterProofsKept {s : MutationSystem} (h : s.Tracked sha256) :
    LaterProofsKept sha256 s := by
  intro id n executor r hexecutor hr hlost
  obtain ⟨hattempt, r₀, hr₀, hle⟩ := h.claimed hexecutor
  obtain rfl := Option.some.inj (hr.symm.trans hr₀)
  have hlease : LeaseLost s.base.base id executor.lease := by
    rcases hlost with hlater | hlost
    · exact ⟨r, hr, hattempt.trans_le hle, Or.inr (Or.inr (Or.inl (hattempt ▸ hlater)))⟩
    · exact hlost
  have hfenced : ∀ callback, (s.fenced id executor.lease callback).base.jobs = s.jobs :=
    fun callback => congrArg Prod.fst (hlease.fenced.2.1 callback)
  constructor
  · intro phase acknowledged
    simp only [MutationSystem.step, hexecutor]
    split
    · unfold MutationSystem.dispatch
      split
      · rfl
      · dsimp only
        split
        · exact hfenced _
        · exact hfenced _
    · rfl
  · simp only [MutationSystem.step, hexecutor]
    split
    · unfold MutationSystem.recordTerminal
      split
      · rfl
      · exact hfenced _
    · rfl
    · rfl

variable (sha256)

/-- **No dispatched operation is forgotten.**  In every run from an empty table in which no
    attempt dispatches an operation while an earlier one of its own is unresolved, a terminal
    proof means that every operation of its attempt is known to have ended, and the writes of a
    lost or earlier attempt change no row. -/
theorem no_operation_forgotten (now : Time) (ops : List MutationOp)
    (h : Meets (MutationSystem.step sha256) (fun s op => resolvedFirst s op = true)
      (.initial now) ops) :
    NothingForgotten (exec (MutationSystem.step sha256) (.initial now) ops) ∧
      LaterProofsKept sha256 (exec (MutationSystem.step sha256) (.initial now) ops) := by
  have htracked : (exec (MutationSystem.step sha256) (.initial now) ops).Tracked sha256 :=
    exec_invariant_of_meets (fun s op hop hs => hs.step hop) (tracked_initial now) h
  exact ⟨htracked.nothing, htracked.laterProofsKept⟩

end System

/-! ### A cleanup after a lost response -/

/-- A Compose deployment is claimed and dispatches its command. -/
def dispatchedRun : List MutationOp :=
  [.other ⟨.job (.enqueue "job" ⟨"3f0e9b52-6c1d-4b7a-8f24-91d5c0a7e6b3", .composeDeploy "web-stack",
      by decide, by decide⟩ none), rfl⟩,
    .claim "worker" [],
    .dispatch "job" 1 "compose.deploy" true]

/-- The response is terminal, and the attempt goes on to another command. -/
def answeredRun : List MutationOp :=
  dispatchedRun ++
    [.respond "job" 1 (.terminal .completed), .recordTerminal "job" 1,
      .dispatch "job" 1 "compose.cleanup" true, .respond "job" 1 (.terminal .completed),
      .recordTerminal "job" 1]

theorem answeredRun_not_forgotten :
    Meets (MutationSystem.step id) (fun s op => resolvedFirst s op = true) (.initial 0)
        answeredRun ∧
      NothingForgotten (exec (MutationSystem.step id) (.initial 0) answeredRun) ∧
      LaterProofsKept id (exec (MutationSystem.step id) (.initial 0) answeredRun) := by
  have h : Meets (MutationSystem.step id) (fun s op => resolvedFirst s op = true) (.initial 0)
      answeredRun := by decide +kernel
  exact ⟨h, no_operation_forgotten id 0 answeredRun h⟩

/-- The response is lost, and the attempt goes on to a cleanup, which ends. -/
def lostResponseRun : List MutationOp :=
  dispatchedRun ++
    [.respond "job" 1 .transportLost, .dispatch "job" 1 "compose.cleanup" true,
      .respond "job" 1 (.terminal .completed), .recordTerminal "job" 1]

/-- The proof of the cleanup replaces that of the deployment: the row says `terminal`, and nobody
    knows whether the deployment has ended. -/
theorem cleanup_hides_lost_operation :
    ¬ NothingForgotten (exec (MutationSystem.step id) (.initial 0) lostResponseRun) := by
  intro h
  have hrow : ((exec (MutationSystem.step id) (.initial 0) lostResponseRun).jobs.find "job").any
      (fun r => r.proof.any fun proof => proof.status == .terminal .completed &&
        proof.attemptCount == 1) = true := by decide +kernel
  have hoperation : (exec (MutationSystem.step id) (.initial 0) lostResponseRun).operations.any
      (fun operation => operation.of "job" 1 && !operation.ended) = true := by decide +kernel
  obtain ⟨r, hr, hproof⟩ := Option.any_eq_true .. |>.mp hrow
  obtain ⟨proof, hp, hterminal⟩ := Option.any_eq_true .. |>.mp hproof
  obtain ⟨operation, hmem, hpending⟩ := List.any_eq_true.mp hoperation
  simp only [Bool.and_eq_true, beq_iff_eq, Bool.not_eq_true'] at hterminal hpending
  have hended := h "job" r proof .completed hr hp hterminal.1 operation hmem
    (hterminal.2 ▸ hpending.1)
  rw [hpending.2] at hended
  cases hended

end ComposeBastion
