import ComposeBastion.Jobs.RemoteOutcome

namespace ComposeBastion

open Runs

/-!
# Reconciled outcomes are permanent

Over every interleaving of reconciliation passes with the statements of the job system, from
an empty table: as long as no claim meets a reconciled row, a reconciled outcome stays
reconciled for its attempt, and the finalizer of an attempt commits at most once
(`reconciled_permanent`).  `staleClaimRun` is a run in which a worker claims from a list it
read before another worker finished, and both conclusions fail.
-/

/-! ### The condition and the properties -/

/-- The row's outcome has been reconciled. -/
def JobRow.reconciled (row : JobRow) : Bool := row.reconciliation.any (·.status == .reconciled)

/-- The step is a claim, and the row it is about to claim has been reconciled. -/
def claimMeetsReconciled (s : ReconcileSystem) : ReconcileOp → Bool
  | .claim w _ =>
    match s.worker w with
    | .looping (candidate :: _) => (s.base.jobs.find candidate.id).any JobRow.reconciled
    | _ => false
  | _ => false

/-- Once reconciled for an attempt, never again `inspecting` or `pending` for that attempt. -/
def ReconciledPermanently (s₀ : ReconcileSystem) (ops : List ReconcileOp) : Prop :=
  ∀ before after, ops = before ++ after → ∀ id r r',
    (exec ReconcileSystem.step s₀ before).base.jobs.find id = some r →
    (exec ReconcileSystem.step s₀ ops).base.jobs.find id = some r' →
    r.reconciled = true → r'.attemptCount = r.attemptCount →
    ∀ rec, r'.reconciliation = some rec → rec.status ≠ .inspecting ∧ rec.status ≠ .pending

/-- The finalizer has been applied at most once for each attempt of each job. -/
def FinalizedOnce (s₀ : ReconcileSystem) (ops : List ReconcileOp) : Prop :=
  (exec ReconcileSystem.step s₀ ops).finalized.Nodup

/-! ### What a settled attempt is -/

/-- Attempt `n` of the row has been settled: the row is in a later attempt, or it has ended
    with a reconciled outcome, or it has been put back into the queue since. -/
def Settled (n : ℕ) (r : JobRow) : Prop :=
  n < r.attemptCount ∨ (n = r.attemptCount
    ∧ ((r.status.terminal = true ∧ r.reconciled = true)
      ∨ (r.reconciliation = none ∧ (r.status = .queued ∨ r.status = .canceled))))

/-- No row that is queued or running carries a reconciliation. -/
def ActiveClean (s : ReconcileSystem) : Prop :=
  ∀ id r, s.base.jobs.find id = some r → r.status.active = true → r.reconciliation = none

theorem terminal_eq_not_active (status : JobStatus) : status.terminal = !status.active := by
  cases status <;> rfl

/-- A statement of the job system leaves an active row without a reconciliation. -/
theorem RowStep.active_clean {now : Time} {r r' : JobRow} {op : JobOp} (h : RowStep now r op r')
    (hclean : r.status.active = true → r.reconciliation = none)
    (hactive : r'.status.active = true) : r'.reconciliation = none := by
  cases h with
  | unchanged => exact hclean hactive
  | claimed _ _ hqueued => exact hclean (by rw [hqueued]; rfl)
  | renewed => exact hclean hactive
  | calledBack _ callback =>
    obtain ⟨hstatus, _, _, _, hrec⟩ := callback.write_fields now r
    exact hrec.trans (hclean (hstatus ▸ hactive))
  | recovered _ hrunning =>
    have hnone : r.reconciliation = none := hclean (by rw [hrunning]; rfl)
    revert hactive
    unfold recoverRow
    split
    · exact fun _ => hnone
    · intro h; cases h
  | requeued => rfl
  | handedOff => rfl
  | handoffFinalized error =>
    exact absurd hactive (by simp only [endHandoff]; split <;> simp [JobStatus.active])
  | _ => cases hactive

/-- A statement of the job system keeps a settled attempt settled. -/
theorem RowStep.settled {now : Time} {r r' : JobRow} {op : JobOp} (h : RowStep now r op r')
    {n : ℕ} (hn : Settled n r) : Settled n r' := by
  rcases hn with hlater | ⟨rfl, hended⟩
  · exact Or.inl (hlater.trans_le h.attemptCount_le)
  · have not_running : r.status ≠ .running := by
      intro hrunning
      rcases hended with ⟨hterm, _⟩ | ⟨_, h | h⟩
      · rw [hrunning] at hterm; cases hterm
      · rw [hrunning] at h; cases h
      · rw [hrunning] at h; cases h
    rcases h.of_not_running not_running with rfl | ⟨_, _, rfl⟩ | ⟨hqueued, rfl⟩ | ⟨_, _, rfl⟩
    · exact Or.inr ⟨rfl, hended⟩
    · exact Or.inl (Nat.lt_succ_self _)
    · rcases hended with ⟨hterm, _⟩ | ⟨hnone, _⟩
      · rw [hqueued] at hterm; cases hterm
      · exact Or.inr ⟨rfl, Or.inr ⟨hnone, Or.inr rfl⟩⟩
    · exact Or.inr ⟨rfl, Or.inr ⟨rfl, Or.inl rfl⟩⟩

/-- **One step.**  Unless a claim meets a reconciled row, a settled attempt stays settled. -/
theorem ReconcileRowStep.settled {s : ReconcileSystem} {r r' : JobRow} {op : ReconcileOp}
    (h : ReconcileRowStep s r op r') (hr : s.base.jobs.find r.id = some r)
    (hop : claimMeetsReconciled s op = false) {n : ℕ} (hn : Settled n r) : Settled n r' := by
  cases h with
  | unchanged => exact hn
  | job hstep => exact hstep.settled hn
  | claimed w token candidate rest hworker hid hfailed =>
    rcases hn with hlater | ⟨rfl, ⟨_, hrec⟩ | ⟨_, h | h⟩⟩
    · exact Or.inl hlater
    · simp [claimMeetsReconciled, hworker, hid, hr, hrec] at hop
    · rw [hfailed] at h; cases h
    · rw [hfailed] at h; cases h
  | inspected _ rec rec' hfailed hrec hinspecting =>
    rcases hn with hlater | ⟨rfl, ⟨_, hreconciled⟩ | ⟨hnone, _⟩⟩
    · exact Or.inl hlater
    · simp [JobRow.reconciled, hrec, hinspecting] at hreconciled
    · rw [hrec] at hnone; cases hnone

theorem ReconcileRowStep.active_clean {s : ReconcileSystem} {r r' : JobRow} {op : ReconcileOp}
    (h : ReconcileRowStep s r op r') (hclean : r.status.active = true → r.reconciliation = none)
    (hactive : r'.status.active = true) : r'.reconciliation = none := by
  cases h with
  | unchanged => exact hclean hactive
  | job hstep => exact hstep.active_clean hclean hactive
  | claimed _ _ _ _ _ _ hfailed =>
    have hstatus : r.status.active = true := hactive
    rw [hfailed] at hstatus; cases hstatus
  | inspected _ _ _ hfailed =>
    have hstatus : r.status.active = true := hactive
    rw [hfailed] at hstatus; cases hstatus

theorem ActiveClean.step {s : ReconcileSystem} (h : ActiveClean s) (op : ReconcileOp) :
    ActiveClean (s.step op) := by
  intro id r' hr' hactive
  obtain ⟨hold, hnew⟩ := s.step_find op id
  cases hr : s.base.jobs.find id with
  | none => simp [JobRow.reconciliation, hnew hr r' hr']
  | some r =>
    obtain ⟨r₁, hr₁, hstep⟩ := hold r hr
    obtain rfl : r' = r₁ := Option.some.inj (hr'.symm.trans hr₁)
    exact hstep.active_clean (h id r hr) hactive

/-- Attempt `n` of job `id` is settled. -/
def SettledAt (id : Id) (n : ℕ) (s : ReconcileSystem) : Prop :=
  ∃ r, s.base.jobs.find id = some r ∧ Settled n r

theorem SettledAt.step {id : Id} {n : ℕ} {s : ReconcileSystem} (h : SettledAt id n s)
    {op : ReconcileOp} (hop : claimMeetsReconciled s op = false) :
    SettledAt id n (s.step op) := by
  obtain ⟨r, hr, hn⟩ := h
  obtain ⟨r', hr', hstep⟩ := (s.step_find op id).1 r hr
  have hid : r.id = id := (Table.find_eq_some.mp hr).2
  exact ⟨r', hr', hstep.settled (by rw [hid]; exact hr) hop hn⟩

/-! ### The finalizer's log -/

/-- Every finalized attempt is settled, and was finalized once. -/
def FinalizedSettled (s : ReconcileSystem) : Prop :=
  s.finalized.Nodup ∧ ∀ id n, (id, n) ∈ s.finalized → SettledAt id n s

theorem find_persistReconciled {now : Time} {candidate : JobRow} {claim : ReconciliationClaim}
    {jobs : JobTable} {r : JobRow} (hr : jobs.find r.id = some r)
    (hselected : persistable candidate.id claim
      (workerLostBeforeRemoteMutationDispatch candidate) r = true) :
    (persistReconciled now candidate claim jobs).1.find r.id
      = some (r.setReconciliation now (persistedReconciliation .reconciled claim none)) := by
  unfold persistReconciled
  rw [Table.find_update, hr, Option.map_some, if_pos hselected]

/-- A step writes at most one entry into the log: for a row under inspection, which it leaves
    reconciled. -/
theorem ReconcileSystem.step_finalized (s : ReconcileSystem) (op : ReconcileOp) :
    (s.step op).finalized = s.finalized
      ∨ ∃ r r' : JobRow, s.base.jobs.find r.id = some r
        ∧ r.reconciliation.any (·.status == .inspecting) = true
        ∧ (s.step op).finalized = s.finalized ++ [(r.id, r.attemptCount)]
        ∧ (s.step op).base.jobs.find r.id = some r' ∧ Settled r.attemptCount r' := by
  cases op with
  | persistReconciled w finalizerThrows =>
    cases hworker : s.worker w with
    | looping => exact Or.inl (by simp only [step, hworker])
    | holding candidate claim rest =>
      cases hrow : (ComposeBastion.persistReconciled s.base.clock candidate claim
        s.base.jobs).2 with
      | none => exact Or.inl (by simp only [step, hworker, hrow]; rfl)
      | some r =>
        have hr : s.base.jobs.find r.id = some r :=
          Table.find_eq_some.mpr ⟨List.mem_of_find?_eq_some hrow, rfl⟩
        have hselected := List.find?_some hrow
        obtain ⟨_, hfailed, rec, hrec, hinspecting, _⟩ :=
          inspectedUnder_iff.mp (inspectedUnder_of_persistable hselected)
        by_cases hfinalizer : (!hasOutcomeFinalizer candidate) = true
        · exact Or.inl (by simp only [step, hworker, hrow, if_pos hfinalizer]; rfl)
        · by_cases hthrows : (finalizerThrows || !finalizerMeets candidate r) = true
          · exact Or.inl (by simp only [step, hworker, hrow, if_neg hfinalizer, if_pos hthrows])
          · refine Or.inr ⟨r, r.setReconciliation s.base.clock
              (persistedReconciliation .reconciled claim none), hr,
              by simp [hrec, hinspecting],
              by simp only [step, hworker, hrow, if_neg hfinalizer, if_neg hthrows], ?_, ?_⟩
            · simp only [step, hworker, hrow, if_neg hfinalizer, if_neg hthrows]
              exact find_persistReconciled hr hselected
            · refine Or.inr ⟨rfl, Or.inl ⟨?_, rfl⟩⟩
              show r.status.terminal = true
              rw [hfailed]; rfl
  | job op => exact Or.inl rfl
  | abandon w => exact Or.inl rfl
  | list w limit analysisError => exact Or.inl (by simp only [step]; split <;> rfl)
  | claim w token => exact Or.inl (by simp only [step]; split <;> rfl)
  | heartbeat w => exact Or.inl (by simp only [step]; split <;> rfl)
  | persistPending w appNow => exact Or.inl (by simp only [step]; split <;> rfl)

theorem FinalizedSettled.step {s : ReconcileSystem} (h : FinalizedSettled s) {op : ReconcileOp}
    (hop : claimMeetsReconciled s op = false) : FinalizedSettled (s.step op) := by
  obtain ⟨hnodup, hsettled⟩ := h
  rcases s.step_finalized op with hsame | ⟨r, r', hr, hinspecting, hlog, hr', hn⟩
  · exact ⟨by rw [hsame]; exact hnodup, fun id n hmem =>
      (hsettled id n (by rwa [hsame] at hmem)).step hop⟩
  · have hfresh : (r.id, r.attemptCount) ∉ s.finalized := by
      -- a settled attempt is not under inspection
      intro hmem
      obtain ⟨r₁, hr₁, hlater | ⟨_, ⟨_, hrec⟩ | ⟨hnone, _⟩⟩⟩ := hsettled _ _ hmem
      all_goals obtain rfl : r = r₁ := Option.some.inj (hr.symm.trans hr₁)
      · exact absurd hlater (lt_irrefl _)
      · cases hval : r.reconciliation with
        | none => simp [hval] at hinspecting
        | some rec =>
          simp only [JobRow.reconciled, hval, Option.any_some, beq_iff_eq] at hrec hinspecting
          rw [hinspecting] at hrec; cases hrec
      · simp [hnone] at hinspecting
    rw [FinalizedSettled, hlog]
    refine ⟨List.nodup_append_comm.mp (List.nodup_cons.mpr ⟨hfresh, hnodup⟩), fun id n hmem => ?_⟩
    rcases List.mem_append.mp hmem with hold | hnew
    · exact (hsettled id n hold).step hop
    · obtain ⟨rfl, rfl⟩ := Prod.mk.injEq .. ▸ List.mem_singleton.mp hnew
      exact ⟨r', hr', hn⟩

/-! ### Whole runs -/

/-- **Reconciled outcomes are permanent.**  In every run from an empty table in which no claim
    meets a reconciled row, a reconciled outcome is never inspected again for its attempt and
    no attempt is finalized twice. -/
theorem reconciled_permanent (now : Time) (ops : List ReconcileOp)
    (h : Meets ReconcileSystem.step (fun s op => claimMeetsReconciled s op = false)
      (.initial now) ops) :
    ReconciledPermanently (.initial now) ops ∧ FinalizedOnce (.initial now) ops := by
  have hclean₀ : ActiveClean (.initial now) := fun id r hr => by cases hr
  have hfinal₀ : FinalizedSettled (.initial now) := ⟨List.nodup_nil, fun _ _ h => by cases h⟩
  refine ⟨?_, (exec_invariant_of_meets (fun s op hop hs => hs.step hop) hfinal₀ h).1⟩
  rintro before after rfl id r r' hr hr' hrec hattempt rec hrec'
  -- at the first point the row has ended, so its attempt is settled there and ever after
  have hclean : ActiveClean (exec ReconcileSystem.step (.initial now) before) :=
    exec_invariant (I := ActiveClean) (fun s op hs => hs.step op) hclean₀ before
  have hended : r.status.terminal = true := by
    rw [terminal_eq_not_active, Bool.not_eq_true', ← Bool.not_eq_true]
    intro hactive
    simp [JobRow.reconciled, hclean id r hr hactive] at hrec
  have hstart : SettledAt id r.attemptCount (exec ReconcileSystem.step (.initial now) before) :=
    ⟨r, hr, Or.inr ⟨rfl, Or.inl ⟨hended, hrec⟩⟩⟩
  have hend : SettledAt id r.attemptCount
      (exec ReconcileSystem.step (.initial now) (before ++ after)) := by
    rw [exec_append]
    exact exec_invariant_of_meets (I := SettledAt id r.attemptCount)
      (fun s op hop hs => hs.step hop) hstart h.append_right
  obtain ⟨r₁, hr₁, hlater | ⟨_, ⟨_, hreconciled⟩ | ⟨hnone, _⟩⟩⟩ := hend
  all_goals obtain rfl : r' = r₁ := Option.some.inj (hr'.symm.trans hr₁)
  · omega
  · simp only [JobRow.reconciled, hrec', Option.any_some, beq_iff_eq] at hreconciled
    rw [hreconciled]
    exact ⟨by simp, by simp⟩
  · rw [hnone] at hrec'; cases hrec'

/-! ### A claim from a stale list -/

/-- A Compose deployment whose worker is lost: one attempt, then `WORKER_LOST`, then the
    quiescence of eleven minutes. -/
def workerLostRun : List ReconcileOp :=
  [.job (.enqueue "job" ⟨"8d7c2f4e-0b1a-4c39-9e55-2a6f1b3c4d5e", .composeDeploy "stack",
      by decide, by decide⟩ none),
    .job (.claimNextJob "worker" []),
    .job (.advanceClock 61000000),
    .job (.recoverExpiredJobs [] true),
    .job (.advanceClock 661000000)]

/-- One worker lists, claims and persists while no other worker is in a pass. -/
def singleWorkerRun : List ReconcileOp :=
  workerLostRun ++
    [.list 0 20 (fun _ => none), .claim 0 "token-0", .heartbeat 0, .persistReconciled 0 false]

theorem singleWorkerRun_permanent :
    Meets ReconcileSystem.step (fun s op => claimMeetsReconciled s op = false)
        (.initial 0) singleWorkerRun
      ∧ ReconciledPermanently (.initial 0) singleWorkerRun
      ∧ FinalizedOnce (.initial 0) singleWorkerRun := by
  have h : Meets ReconcileSystem.step (fun s op => claimMeetsReconciled s op = false)
      (.initial 0) singleWorkerRun := by decide +kernel
  exact ⟨h, reconciled_permanent 0 singleWorkerRun h⟩

/-- Two workers read the candidate list; the first one reconciles the job before the second
    one claims it. -/
def staleClaimRun : List ReconcileOp :=
  workerLostRun ++
    [.list 0 20 (fun _ => none), .list 1 20 (fun _ => none),
      .claim 0 "token-0", .persistReconciled 0 false, .claim 1 "token-1"]

/-- The second worker moves the reconciled row back to `inspecting` and then finalizes the
    same attempt a second time. -/
theorem staleClaimRun_not_permanent :
    ¬ ReconciledPermanently (.initial 0) staleClaimRun
      ∧ ¬ FinalizedOnce (.initial 0) (staleClaimRun ++ [.persistReconciled 1 false]) := by
  constructor
  · intro h
    have hbefore : ((exec ReconcileSystem.step (.initial 0) (staleClaimRun.take 9)).base.jobs.find
        "job").any (fun r => r.reconciled && r.attemptCount == 1) = true := by decide +kernel
    have hafter : ((exec ReconcileSystem.step (.initial 0) staleClaimRun).base.jobs.find
        "job").any (fun r => r.reconciliation.any (·.status == .inspecting)
          && r.attemptCount == 1) = true := by decide +kernel
    obtain ⟨r, hr, hrec⟩ := Option.any_eq_true .. |>.mp hbefore
    obtain ⟨r', hr', hrec'⟩ := Option.any_eq_true .. |>.mp hafter
    simp only [Bool.and_eq_true, beq_iff_eq, Option.any_eq_true] at hrec hrec'
    obtain ⟨⟨rec, hval, hinspecting⟩, hattempt⟩ := hrec'
    exact (h (staleClaimRun.take 9) (staleClaimRun.drop 9) (by simp) "job" r r' hr hr' hrec.1
      (hattempt.trans hrec.2.symm) rec hval).1 hinspecting
  · unfold FinalizedOnce
    decide +kernel

end ComposeBastion
