import ComposeBastion.Jobs.Lease

namespace ComposeBastion

open Runs

/-!
# Job lease fencing

What any interleaving of the statements of `Lease.lean` can do to a job row.  `RowStep` says
it once, row by row, and `JobSystem.step_find` proves that it says everything; the fencing
facts are then case analyses on `RowStep`:

* an attempt has one holder at most (`LeasedTo`),
* a lease that has been lost stays lost (`LeaseLost`), and a fenced statement that presents
  it changes nothing,
* an attempt leaves `running` at most once (`leftRunning`),
* a terminal row moves only under `retryJob`.
-/

/-! ### What one step does to one row -/

/-- The change `op`, executed at `now`, makes to a row `r` that exists. -/
inductive RowStep (now : Time) (r : JobRow) : JobOp → JobRow → Prop
  | unchanged (op : JobOp) : RowStep now r op r
  | claimed (workerId : Id) (locked : List Id) (hqueued : r.status = .queued) :
      RowStep now r (.claimNextJob workerId locked) (claimRow now workerId r)
  | renewed (lease : JobLease) (hheld : leasePredicate now lease r = true) :
      RowStep now r (.renewJobLease r.id lease)
        { r with leaseExpiresAt := some (now + seconds JOB_LEASE_SECONDS), updatedAt := now }
  | calledBack (lease : JobLease) (callback : LeaseCallback)
      (hheld : leasePredicate now lease r = true) :
      RowStep now r (.withActiveJobLeaseTransaction r.id lease callback) (callback.write now r)
  | completed (result : JobResult) (lease : JobLease) (hheld : leasePredicate now lease r = true) :
      RowStep now r (.completeJob r.id result lease true)
        { r with
          status := .completed, result := some result, error := none, completedAt := some now
          leaseOwner := none, leaseExpiresAt := none, updatedAt := now }
  | failed (message : String) (lease : JobLease) (hheld : leasePredicate now lease r = true) :
      RowStep now r (.failJob r.id message lease true)
        (failRow now (failureMessage message r) r)
  | recovered (locked : List Id) (hrunning : r.status = .running) :
      RowStep now r (.recoverExpiredJobs locked true) (recoverRow now r)
  | canceled (hqueued : r.status = .queued) :
      RowStep now r (.cancelQueuedJob r.id true) (cancelRow now r)
  | requeued (hended : r.status = .failed ∨ r.status = .canceled) :
      RowStep now r (.retryJob r.id true) (requeueRow now r)
  | handedOff (lease : JobLease) (hheld : leasePredicate now lease r = true) :
      RowStep now r (.markSelfUpdateHandoffPending r.id lease)
        { r with
          result := some { JobResult.empty with handoffPending := some true }, error := none
          leaseOwner := none, leaseExpiresAt := none, updatedAt := now }
  | handoffFinalized (error : Option String) (hrunning : r.status = .running) :
      RowStep now r (.finalizePendingSelfUpdate r.id error)
        (endHandoff now (if error.isNone then .completed else .failed) error r)
  | handoffFailed (message : String) (hrunning : r.status = .running) :
      RowStep now r (.failUnreconciledSelfUpdate r.id message)
        (endHandoff now .failed (some message) r)

theorem heldBy_iff {now : Time} {id : Id} {lease : JobLease} {r : JobRow} :
    heldBy now id lease r = true ↔ r.id = id ∧ leasePredicate now lease r = true := by
  simp [heldBy]

/-- The row `claimNextJob` picks is a queued row of the table. -/
theorem mem_of_head?_queuedInOrder {locked : List Id} {jobs : JobTable} {next : JobRow}
    (h : (queuedInOrder locked jobs).head? = some next) :
    next ∈ jobs ∧ next.status = .queued := by
  have hmem : next ∈ queuedInOrder locked jobs := List.mem_of_head? h
  simp only [queuedInOrder, List.mem_insertionSort, List.mem_filter, Bool.and_eq_true,
    beq_iff_eq] at hmem
  exact ⟨hmem.1, hmem.2.1⟩

/-- `op` acts on the table as one `UPDATE` whose effect on a selected row is a `RowStep`. -/
def UpdatesRows (now : Time) (jobs : JobTable) (op : JobOp) : Prop :=
  ∃ (p : JobRow → Bool) (f : JobRow → JobRow),
    (op.apply now jobs).rows = jobs.rows.map (fun r => if p r then f r else r)
      ∧ ∀ r ∈ jobs, p r = true → RowStep now r op (f r)

theorem updatesRows_of_eq_self {now : Time} {jobs : JobTable} {op : JobOp}
    (h : op.apply now jobs = jobs) : UpdatesRows now jobs op :=
  ⟨fun _ => false, id, by simp [h], fun _ _ hp => by cases hp⟩

/-- **One `UPDATE` per operation.**  Everything but an `enqueue` updates rows in place. -/
theorem JobOp.updatesRows (now : Time) (jobs : JobTable) (op : JobOp)
    (hop : ∀ id action key, op ≠ .enqueue id action key) : UpdatesRows now jobs op := by
  cases op with
  | advanceClock elapsed => exact updatesRows_of_eq_self rfl
  | enqueue id action key => exact absurd rfl (hop id action key)
  | claimNextJob workerId locked =>
    cases hnext : (queuedInOrder locked jobs).head? with
    | none => exact updatesRows_of_eq_self (by simp [JobOp.apply, ComposeBastion.claimNextJob, hnext])
    | some next =>
      obtain ⟨hmem, hqueued⟩ := mem_of_head?_queuedInOrder hnext
      refine ⟨fun row => row.id == next.id, claimRow now workerId,
        by simp [JobOp.apply, ComposeBastion.claimNextJob, hnext, Table.update],
        fun r hr hp => ?_⟩
      have hsame : r = next := Table.eq_of_key_eq hr hmem (by simpa using hp)
      exact .claimed workerId locked (hsame ▸ hqueued)
  | renewJobLease id lease =>
    refine ⟨_, _, rfl, fun r _ hp => ?_⟩
    obtain ⟨rfl, hheld⟩ := heldBy_iff.mp hp
    exact .renewed lease hheld
  | withActiveJobLeaseTransaction id lease callback =>
    refine ⟨_, _, rfl, fun r _ hp => ?_⟩
    obtain ⟨rfl, hheld⟩ := heldBy_iff.mp hp
    exact .calledBack lease callback hheld
  | completeJob id result lease committed =>
    cases committed with
    | false => exact updatesRows_of_eq_self rfl
    | true =>
      refine ⟨_, _, rfl, fun r _ hp => ?_⟩
      obtain ⟨rfl, hheld⟩ := heldBy_iff.mp hp
      exact .completed result lease hheld
  | failJob id message lease committed =>
    cases committed with
    | false => exact updatesRows_of_eq_self rfl
    | true =>
      refine ⟨_, _, rfl, fun r _ hp => ?_⟩
      obtain ⟨rfl, hheld⟩ := heldBy_iff.mp hp
      exact .failed message lease hheld
  | recoverExpiredJobs locked committed =>
    cases committed with
    | false => exact updatesRows_of_eq_self rfl
    | true =>
      refine ⟨_, _, rfl, fun r _ hp => ?_⟩
      simp only [Bool.and_eq_true, beq_iff_eq] at hp
      exact .recovered locked hp.2
  | cancelQueuedJob id committed =>
    cases committed with
    | false => exact updatesRows_of_eq_self rfl
    | true =>
      refine ⟨_, _, rfl, fun r _ hp => ?_⟩
      simp only [Bool.and_eq_true, beq_iff_eq] at hp
      obtain ⟨rfl, hqueued⟩ := hp
      exact .canceled hqueued
  | retryJob id admitted =>
    by_cases hadmit : ((jobs.find id).any canRetryJob && admitted) = true
    · obtain rfl : admitted = true := (Bool.and_eq_true_iff.mp hadmit).2
      refine ⟨_, _, congrArg Table.rows (if_pos hadmit), fun r _ hp => ?_⟩
      simp only [Bool.and_eq_true, Bool.or_eq_true, beq_iff_eq] at hp
      obtain ⟨⟨rfl, hended⟩, _⟩ := hp
      exact .requeued hended
    · exact updatesRows_of_eq_self (if_neg hadmit)
  | markSelfUpdateHandoffPending id lease =>
    refine ⟨_, _, rfl, fun r _ hp => ?_⟩
    obtain ⟨rfl, hheld⟩ := heldBy_iff.mp (Bool.and_eq_true_iff.mp hp).1
    exact .handedOff lease hheld
  | finalizePendingSelfUpdate id error =>
    refine ⟨_, _, rfl, fun r _ hp => ?_⟩
    simp only [handoffPendingRow, Bool.and_eq_true, beq_iff_eq] at hp
    obtain ⟨rfl, ⟨_, hrunning⟩, _⟩ := hp
    exact .handoffFinalized error hrunning
  | failUnreconciledSelfUpdate id message =>
    refine ⟨_, _, rfl, fun r _ hp => ?_⟩
    simp only [handoffPendingRow, Bool.and_eq_true, beq_iff_eq] at hp
    obtain ⟨rfl, ⟨_, hrunning⟩, _⟩ := hp
    exact .handoffFailed message hrunning

theorem RowStep.id_eq {now : Time} {r r' : JobRow} {op : JobOp} (h : RowStep now r op r') :
    r'.id = r.id := by
  cases h with
  | recovered => exact recoverRow_id now r
  | calledBack _ callback => exact callback.write_id now r
  | _ => rfl

/-- The row under `id` after an operation other than `enqueue`. -/
theorem UpdatesRows.find_eq {now : Time} {jobs : JobTable} {op : JobOp}
    (h : UpdatesRows now jobs op) (id : Id) :
    ∃ g : JobRow → JobRow, (op.apply now jobs).find id = (jobs.find id).map g
      ∧ ∀ r ∈ jobs, RowStep now r op (g r) := by
  obtain ⟨p, f, hrows, hrow⟩ := h
  have hstep : ∀ r ∈ jobs, RowStep now r op (if p r then f r else r) := by
    intro r hr
    by_cases hp : p r = true
    · rw [if_pos hp]; exact hrow r hr hp
    · rw [if_neg hp]; exact .unchanged op
  exact ⟨_, Table.find_of_rows_map hrows (fun r hr => (hstep r hr).id_eq) id, hstep⟩

/-- **One step, one row.**  Every operation takes an existing row along `RowStep`. -/
theorem JobSystem.step_find {s : JobSystem} (op : JobOp) {id : Id} {r : JobRow}
    (hr : s.jobs.find id = some r) :
    ∃ r', (s.step op).jobs.find id = some r' ∧ RowStep s.clock r op r' := by
  by_cases hop : ∃ id action key, op = .enqueue id action key
  · obtain ⟨_, _, _, rfl⟩ := hop
    exact ⟨r, Table.find_insert_of_some hr, .unchanged _⟩
  · push Not at hop
    obtain ⟨g, heq, hrow⟩ := (op.updatesRows s.clock s.jobs hop).find_eq id
    rw [hr, Option.map_some] at heq
    exact ⟨g r, heq, hrow r (Table.find_eq_some.mp hr).1⟩

/-- A row that appears is the row of an `enqueue`. -/
theorem JobSystem.step_find_new {s : JobSystem} {op : JobOp} {id : Id} {r' : JobRow}
    (hnone : s.jobs.find id = none) (hr' : (s.step op).jobs.find id = some r') :
    ∃ id' action key, op = .enqueue id' action key
      ∧ r' = jobInsert s.clock id' action key := by
  by_cases hop : ∃ id action key, op = .enqueue id action key
  · obtain ⟨id', action, key, rfl⟩ := hop
    rcases Table.find_insert hr' with h | ⟨_, rfl⟩
    · rw [hnone] at h; cases h
    · exact ⟨id', action, key, rfl, rfl⟩
  · push Not at hop
    obtain ⟨g, heq, _⟩ := (op.updatesRows s.clock s.jobs hop).find_eq id
    rw [hnone, Option.map_none] at heq
    have h : (op.apply s.clock s.jobs).find id = some r' := hr'
    rw [heq] at h
    cases h

/-! ### Consequences for a row -/

section RowStep

variable {now : Time} {r r' : JobRow} {op : JobOp}

theorem leasePredicate_iff {lease : JobLease} :
    leasePredicate now lease r = true ↔
      r.status = .running ∧ r.leaseOwner = some lease.workerId
        ∧ r.attemptCount = lease.attemptCount ∧ ∃ t, r.leaseExpiresAt = some t ∧ now < t := by
  simp [leasePredicate, Option.any_eq_true, and_assoc]

/-- A recovered row is queued again or failed, without a lease. -/
theorem recoverRow_fields (now : Time) (r : JobRow) :
    (recoverRow now r).status ≠ .running ∧ (recoverRow now r).leaseOwner = none
      ∧ (recoverRow now r).attemptCount = r.attemptCount := by
  unfold recoverRow
  split <;> simp [failRow]

/-- A fenced callback leaves status, attempt, lease and reconciliation alone. -/
theorem LeaseCallback.write_fields (now : Time) (callback : LeaseCallback) (r : JobRow) :
    (callback.write now r).status = r.status ∧ (callback.write now r).attemptCount = r.attemptCount
      ∧ (callback.write now r).leaseOwner = r.leaseOwner
      ∧ (callback.write now r).leaseExpiresAt = r.leaseExpiresAt
      ∧ (callback.write now r).result.bind (·.remoteOutcomeReconciliation)
        = r.result.bind (·.remoteOutcomeReconciliation) := by
  unfold write
  cases h : callback.run now r with
  | none => exact ⟨rfl, rfl, rfl, rfl, rfl⟩
  | some r' => exact (run_fields h).2

/-- Attempt numbers never go down. -/
theorem RowStep.attemptCount_le (h : RowStep now r op r') :
    r.attemptCount ≤ r'.attemptCount := by
  cases h with
  | claimed => simp [claimRow]
  | recovered => exact (recoverRow_fields now r).2.2.ge
  | calledBack _ callback => exact (callback.write_fields now r).2.1.ge
  | _ => exact le_rfl

/-- A step that gives a row to a worker, or a new attempt, is a claim of the next attempt. -/
theorem RowStep.attempt_of_leased (h : RowStep now r op r') {workerId : Id}
    (howner : r'.leaseOwner = some workerId)
    (hnew : ¬ (r.leaseOwner = some workerId ∧ r.attemptCount = r'.attemptCount)) :
    r'.attemptCount = r.attemptCount + 1 := by
  cases h with
  | claimed => rfl
  | recovered => rw [(recoverRow_fields now r).2.1] at howner; cases howner
  | unchanged => exact absurd ⟨howner, rfl⟩ hnew
  | renewed => exact absurd ⟨howner, rfl⟩ hnew
  | calledBack _ callback =>
    obtain ⟨_, hattempt, howner_eq, _⟩ := callback.write_fields now r
    exact absurd ⟨howner_eq ▸ howner, hattempt.symm⟩ hnew
  | _ => cases howner

/-- A running row was running before, in the same attempt, or has just been claimed. -/
theorem RowStep.of_running (h : RowStep now r op r') (hrunning : r'.status = .running) :
    (r.status = .running ∧ r'.attemptCount = r.attemptCount)
      ∨ r'.attemptCount = r.attemptCount + 1 := by
  cases h with
  | claimed => exact Or.inr rfl
  | recovered => exact absurd hrunning (recoverRow_fields now r).1
  | unchanged => exact Or.inl ⟨hrunning, rfl⟩
  | renewed => exact Or.inl ⟨hrunning, rfl⟩
  | calledBack _ callback =>
    obtain ⟨hstatus, hattempt, _⟩ := callback.write_fields now r
    exact Or.inl ⟨hstatus ▸ hrunning, hattempt⟩
  | handedOff => exact Or.inl ⟨hrunning, rfl⟩
  | handoffFinalized error =>
    exact absurd hrunning (by simp only [endHandoff]; split <;> simp)
  | _ => cases hrunning

/-- A row that is not running is only claimed, canceled or requeued. -/
theorem RowStep.of_not_running (h : RowStep now r op r') (hidle : r.status ≠ .running) :
    r' = r
      ∨ (r.status = .queued ∧ ∃ workerId, r' = claimRow now workerId r)
      ∨ (r.status = .queued ∧ r' = cancelRow now r)
      ∨ ((r.status = .failed ∨ r.status = .canceled) ∧ op = .retryJob r.id true
        ∧ r' = requeueRow now r) := by
  have not_held : ∀ {lease}, leasePredicate now lease r ≠ true := fun hheld =>
    hidle (leasePredicate_iff.mp hheld).1
  cases h with
  | unchanged => exact Or.inl rfl
  | claimed workerId _ hqueued => exact Or.inr (Or.inl ⟨hqueued, workerId, rfl⟩)
  | canceled hqueued => exact Or.inr (Or.inr (Or.inl ⟨hqueued, rfl⟩))
  | requeued hended => exact Or.inr (Or.inr (Or.inr ⟨hended, rfl, rfl⟩))
  | recovered _ hrunning => exact absurd hrunning hidle
  | handoffFinalized _ hrunning => exact absurd hrunning hidle
  | handoffFailed _ hrunning => exact absurd hrunning hidle
  | renewed _ hheld => exact absurd hheld not_held
  | calledBack _ _ hheld => exact absurd hheld not_held
  | completed _ _ hheld => exact absurd hheld not_held
  | failed _ _ hheld => exact absurd hheld not_held
  | handedOff _ hheld => exact absurd hheld not_held

/-- A terminal row moves only under `retryJob` of that very job. -/
theorem RowStep.eq_retryJob_of_terminal (h : RowStep now r op r')
    (hterm : r.status.terminal = true) (hmoved : r'.status ≠ r.status) :
    op = .retryJob r.id true := by
  have not_running : r.status ≠ .running := fun h => by rw [h] at hterm; cases hterm
  have not_queued : r.status ≠ .queued := fun h => by rw [h] at hterm; cases hterm
  rcases h.of_not_running not_running with rfl | ⟨hqueued, _⟩ | ⟨hqueued, _⟩ | ⟨_, hop, _⟩
  · exact absurd rfl hmoved
  · exact absurd hqueued not_queued
  · exact absurd hqueued not_queued
  · exact hop

end RowStep

/-! ### Lost leases -/

/-- The attempt of `lease` has been handed out, and the lease is no longer the job's: the
    attempt ended, the job has another owner or a later attempt, or the lease ran out. -/
def LeaseLost (s : JobSystem) (id : Id) (lease : JobLease) : Prop :=
  ∃ r, s.jobs.find id = some r ∧ lease.attemptCount ≤ r.attemptCount
    ∧ (r.status ≠ .running ∨ r.leaseOwner ≠ some lease.workerId
      ∨ lease.attemptCount < r.attemptCount ∨ ∀ t, r.leaseExpiresAt = some t → t ≤ s.clock)

/-- A lost lease is one the fenced `WHERE` clause does not accept. -/
theorem leaseLost_iff {s : JobSystem} {id : Id} {lease : JobLease} :
    LeaseLost s id lease ↔ ∃ r, s.jobs.find id = some r ∧ lease.attemptCount ≤ r.attemptCount
      ∧ leasePredicate s.clock lease r = false := by
  unfold LeaseLost
  refine exists_congr fun r => and_congr_right fun _ => and_congr_right fun hle => ?_
  rw [← Bool.not_eq_true, leasePredicate_iff]
  constructor
  · rintro (h | h | h | h) ⟨hrunning, howner, hattempt, t, ht, hlt⟩
    · exact h hrunning
    · exact h howner
    · omega
    · exact absurd (h t ht) (not_le.mpr hlt)
  · intro h
    by_contra hno
    push Not at hno
    obtain ⟨hrunning, howner, hattempt, t, ht, hlt⟩ := hno
    exact h ⟨hrunning, howner, le_antisymm hattempt hle, t, ht, hlt⟩

theorem JobOp.le_clockAfter (now : Time) (op : JobOp) : now ≤ op.clockAfter now := by
  cases op with
  | advanceClock elapsed => exact Int.le_add_of_nonneg_right (Int.natCast_nonneg elapsed)
  | _ => exact le_rfl

/-- **Lost for good.**  No step gives a lost lease back: only a held lease is renewed, and a
    claim starts a later attempt. -/
theorem LeaseLost.step {s : JobSystem} {id : Id} {lease : JobLease} (h : LeaseLost s id lease)
    (op : JobOp) : LeaseLost (s.step op) id lease := by
  obtain ⟨r, hr, hle, hlost⟩ := leaseLost_iff.mp h
  obtain ⟨r', hr', hstep⟩ := JobSystem.step_find op hr
  refine leaseLost_iff.mpr ⟨r', hr', hle.trans hstep.attemptCount_le, ?_⟩
  rw [← Bool.not_eq_true] at hlost ⊢
  intro hheld
  obtain ⟨hrunning, howner, hattempt, t, ht, hlt⟩ := leasePredicate_iff.mp hheld
  have hclock : s.clock ≤ (s.step op).clock := op.le_clockAfter s.clock
  apply hlost
  rw [leasePredicate_iff]
  cases hstep with
  | unchanged => exact ⟨hrunning, howner, hattempt, t, ht, hclock.trans_lt hlt⟩
  | calledBack _ callback =>
    obtain ⟨hstatus, hattempt_eq, howner_eq, hexpires_eq, _⟩ := callback.write_fields s.clock r
    rw [hstatus] at hrunning
    rw [howner_eq] at howner
    rw [hattempt_eq] at hattempt
    rw [hexpires_eq] at ht
    exact ⟨hrunning, howner, hattempt, t, ht, hclock.trans_lt hlt⟩
  | renewed other hother =>
    -- the renewed row was held, by `other`; it is this very lease.
    obtain ⟨_, hother_owner, hother_attempt, hexpires⟩ := leasePredicate_iff.mp hother
    exact ⟨hrunning, howner, hattempt, hexpires⟩
  | claimed => simp only [claimRow] at hattempt; omega
  | recovered => exact absurd hrunning (recoverRow_fields _ r).1
  | _ => cases howner

/-- A lost lease is not held by any row. -/
theorem LeaseLost.heldBy_eq_false {s : JobSystem} {id : Id} {lease : JobLease}
    (h : LeaseLost s id lease) : ∀ r ∈ s.jobs, heldBy s.clock id lease r = false := by
  obtain ⟨r₀, hr₀, _, hlost⟩ := leaseLost_iff.mp h
  intro r hr
  rw [← Bool.not_eq_true, heldBy_iff]
  rintro ⟨rfl, hheld⟩
  have hsame : some r = some r₀ := (Table.find_eq_some.mpr ⟨hr, rfl⟩).symm.trans hr₀
  rw [Option.some.inj hsame, hlost] at hheld
  cases hheld

/-- **Fenced out.**  The four fenced statements refuse a lost lease and change no row. -/
theorem LeaseLost.fenced {s : JobSystem} {id : Id} {lease : JobLease}
    (h : LeaseLost s id lease) :
    renewJobLease s.clock id lease s.jobs = (s.jobs, false)
      ∧ (∀ callback, withActiveJobLeaseTransaction s.clock id lease callback s.jobs
          = (s.jobs, false))
      ∧ (∀ result committed, completeJob s.clock id result lease committed s.jobs
          = (s.jobs, false))
      ∧ ∀ message committed, failJob s.clock id message lease committed s.jobs
          = (s.jobs, false) := by
  have hactive : leaseActive s.clock id lease s.jobs = false := by
    rw [leaseActive, List.any_eq_false]
    exact fun r hr => by simp [h.heldBy_eq_false r hr]
  have hupdate : ∀ f hf, s.jobs.update (heldBy s.clock id lease) f hf = s.jobs := fun f hf =>
    Table.update_eq_self h.heldBy_eq_false
  refine ⟨?_, fun callback => ?_, fun result committed => ?_, fun message committed => ?_⟩
  · rw [renewJobLease, hupdate, hactive]
  · rw [withActiveJobLeaseTransaction, hupdate]
    refine Prod.ext rfl (List.any_eq_false.mpr fun r hr => ?_)
    simp [h.heldBy_eq_false r hr]
  · cases committed with
    | false => rfl
    | true => rw [completeJob, if_pos rfl, hupdate, hactive]
  · cases committed with
    | false => rfl
    | true => rw [failJob, if_pos rfl, hupdate, hactive]

/-! ### One worker for each attempt -/

/-- Attempt `n` of job `id` has been handed out, to `workerId` and to nobody else. -/
def LeasedTo (id : Id) (n : ℕ) (workerId : Id) (s : JobSystem) : Prop :=
  ∃ r, s.jobs.find id = some r ∧ n ≤ r.attemptCount
    ∧ ∀ other, r.leaseOwner = some other → r.attemptCount = n → other = workerId

theorem LeasedTo.step {id : Id} {n : ℕ} {workerId : Id} {s : JobSystem}
    (h : LeasedTo id n workerId s) (op : JobOp) : LeasedTo id n workerId (s.step op) := by
  obtain ⟨r, hr, hle, honly⟩ := h
  obtain ⟨r', hr', hstep⟩ := JobSystem.step_find op hr
  refine ⟨r', hr', hle.trans hstep.attemptCount_le, fun other howner hattempt => ?_⟩
  by_cases hsame : r.leaseOwner = some other ∧ r.attemptCount = r'.attemptCount
  · exact honly other hsame.1 (hsame.2.trans hattempt)
  · have := hstep.attempt_of_leased howner hsame
    omega

/-! ### Leaving `running` -/

/-- The attempts that stop running in a step, as `(id, attempt_count)`. -/
def leftRunning (s : JobSystem) (_ : JobOp) (s' : JobSystem) : List (Id × ℕ) :=
  (s.jobs.rows.filter fun r => r.status == .running
      && !(s'.jobs.find r.id).any fun r' =>
        r'.status == .running && r'.attemptCount == r.attemptCount).map
    fun r => (r.id, r.attemptCount)

theorem mem_leftRunning {s s' : JobSystem} {op : JobOp} {id : Id} {n : ℕ} :
    (id, n) ∈ leftRunning s op s' ↔
      ∃ r, s.jobs.find id = some r ∧ r.status = .running ∧ r.attemptCount = n
        ∧ ∀ r', s'.jobs.find id = some r' → r'.status = .running → r'.attemptCount ≠ n := by
  simp only [leftRunning, List.mem_map, List.mem_filter, Bool.and_eq_true, beq_iff_eq,
    Bool.not_eq_true', Option.any_eq_false, Prod.mk.injEq, Table.find_eq_some, Table.mem_rows]
  constructor
  · rintro ⟨r, ⟨hr, hrunning, hleft⟩, rfl, rfl⟩
    exact ⟨r, ⟨hr, rfl⟩, hrunning, rfl, fun r' hr' hr'_running hattempt =>
      absurd (hleft r' hr') (by simp [hr'_running, hattempt])⟩
  · rintro ⟨r, ⟨hr, rfl⟩, hrunning, rfl, hleft⟩
    refine ⟨r, ⟨hr, hrunning, fun r' hr' => ?_⟩, rfl, rfl⟩
    simpa using hleft r' hr'

theorem nodup_leftRunning (s s' : JobSystem) (op : JobOp) : (leftRunning s op s').Nodup := by
  refine List.Nodup.of_map Prod.fst ?_
  rw [leftRunning, List.map_map]
  exact (List.filter_sublist.map _).nodup s.jobs.nodup

/-- What is known of the attempts that have stopped running: each stopped once, and its job
    runs again only in a later attempt. -/
def StoppedOnce (seen : List (Id × ℕ)) (s : JobSystem) : Prop :=
  seen.Nodup ∧ ∀ id n, (id, n) ∈ seen → ∃ r, s.jobs.find id = some r ∧ n ≤ r.attemptCount
    ∧ (r.status = .running → n < r.attemptCount)

theorem StoppedOnce.step {seen : List (Id × ℕ)} {s : JobSystem} {op : JobOp}
    (h : StoppedOnce seen s) :
    StoppedOnce (seen ++ leftRunning s op (s.step op)) (s.step op) := by
  obtain ⟨hnodup, hseen⟩ := h
  refine ⟨List.Nodup.append hnodup (nodup_leftRunning _ _ _) ?_, fun id n hmem => ?_⟩
  · rintro ⟨id, n⟩ hold hnew
    obtain ⟨r, hr, _, hlater⟩ := hseen id n hold
    obtain ⟨r₁, hr₁, hrunning, hattempt, _⟩ := mem_leftRunning.mp hnew
    obtain rfl : r = r₁ := Option.some.inj (hr.symm.trans hr₁)
    have := hlater hrunning
    omega
  · rcases List.mem_append.mp hmem with hold | hnew
    · obtain ⟨r, hr, hle, hlater⟩ := hseen id n hold
      obtain ⟨r', hr', hstep⟩ := JobSystem.step_find op hr
      refine ⟨r', hr', hle.trans hstep.attemptCount_le, fun hrunning => ?_⟩
      rcases hstep.of_running hrunning with ⟨hwas, heq⟩ | hnext
      · exact heq ▸ hlater hwas
      · omega
    · obtain ⟨r, hr, _, hattempt, hleft⟩ := mem_leftRunning.mp hnew
      obtain ⟨r', hr', hstep⟩ := JobSystem.step_find op hr
      have hle : n ≤ r'.attemptCount := hattempt ▸ hstep.attemptCount_le
      exact ⟨r', hr', hle, fun hrunning =>
        lt_of_le_of_ne hle (hleft r' hr' hrunning).symm⟩

/-! ### Whole runs -/

/-- **Lease fencing.**  Over every interleaving `ops` of the statements, from every state:
    two holders of one attempt are one worker; once a lease is lost, the fenced statements
    called with it change no row ever after; no attempt leaves `running` twice; and a row in a
    terminal status moves in a step only if the step is a `retryJob` of that job. -/
theorem lease_fencing (s₀ : JobSystem) (ops : List JobOp) :
    (∀ before after, ops = before ++ after → ∀ id r r' w w',
        (Runs.exec JobSystem.step s₀ before).jobs.find id = some r →
        (Runs.exec JobSystem.step s₀ ops).jobs.find id = some r' →
        r.leaseOwner = some w → r'.leaseOwner = some w' →
        r.attemptCount = r'.attemptCount → w = w')
      ∧ (∀ before after, ops = before ++ after → ∀ id lease,
        LeaseLost (Runs.exec JobSystem.step s₀ before) id lease →
        let s := Runs.exec JobSystem.step s₀ ops
        renewJobLease s.clock id lease s.jobs = (s.jobs, false)
          ∧ (∀ callback, withActiveJobLeaseTransaction s.clock id lease callback s.jobs
              = (s.jobs, false))
          ∧ (∀ result committed, completeJob s.clock id result lease committed s.jobs
              = (s.jobs, false))
          ∧ ∀ message committed, failJob s.clock id message lease committed s.jobs
              = (s.jobs, false))
      ∧ (Runs.observe leftRunning JobSystem.step s₀ ops).Nodup
      ∧ ∀ before op after, ops = before ++ op :: after → ∀ id r r',
        (Runs.exec JobSystem.step s₀ before).jobs.find id = some r →
        (Runs.exec JobSystem.step s₀ (before ++ [op])).jobs.find id = some r' →
        r.status.terminal = true → r'.status ≠ r.status → op = .retryJob id true := by
  refine ⟨?_, ?_, ?_, ?_⟩
  · rintro before after rfl id r r' w w' hr hr' hw hw' hattempt
    have hstart : LeasedTo id r.attemptCount w (Runs.exec JobSystem.step s₀ before) :=
      ⟨r, hr, le_rfl, fun other howner _ => Option.some.inj (howner.symm.trans hw)⟩
    have hend : LeasedTo id r.attemptCount w _ :=
      Runs.exec_invariant (I := LeasedTo id r.attemptCount w)
        (fun s op h => LeasedTo.step h op) hstart after
    rw [Runs.exec_append] at hr'
    obtain ⟨r₁, hr₁, _, honly⟩ := hend
    obtain rfl : r' = r₁ := Option.some.inj (hr'.symm.trans hr₁)
    exact (honly w' hw' hattempt.symm).symm
  · rintro before after rfl id lease hlost
    have hend : LeaseLost (Runs.exec JobSystem.step s₀ (before ++ after)) id lease := by
      rw [Runs.exec_append]
      exact Runs.exec_invariant (I := fun s => LeaseLost s id lease)
        (fun s op h => LeaseLost.step h op) hlost after
    exact hend.fenced
  · have hstart : StoppedOnce [] s₀ := ⟨List.nodup_nil, by simp⟩
    exact (Runs.observe_invariant (fun _ _ _ h => StoppedOnce.step h) hstart ops).1
  · rintro before op after - id r r' hr hr' hterm hmoved
    rw [Runs.exec_append] at hr'
    obtain ⟨r₁, hr₁, hstep⟩ := JobSystem.step_find op hr
    obtain rfl : r' = r₁ := Option.some.inj (hr'.symm.trans hr₁)
    have hid : r.id = id := (Table.find_eq_some.mp hr).2
    rw [← hid]
    exact hstep.eq_retryJob_of_terminal hterm hmoved

end ComposeBastion
