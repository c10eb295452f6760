import ComposeBastion.Recovery.AdmissionSystem

namespace ComposeBastion

open Runs

/-!
# Rows of the admission system

`RowOrigin` says where a row of the table after a step comes from: it was there before and is
at most less active now, or the step admitted it, and then the admission checks have passed.
`RowFacts` is the invariant about single rows that every step keeps (`RowFacts.step`).
-/

/-! ### Where a row comes from -/

/-- Two rows of one job: the same request, with the same stored scopes. -/
structure SameJob (r r' : JobRow) : Prop where
  id_eq : r'.id = r.id
  hostId_eq : r'.hostId = r.hostId
  payload_eq : r'.payload = r.payload
  recoveryScopes_eq : r'.recoveryScopes = r.recoveryScopes

theorem SameJob.refl (r : JobRow) : SameJob r r := ⟨rfl, rfl, rfl, rfl⟩

/-- A statement changes no request. -/
theorem RowStep.sameJob {now : Time} {r r' : JobRow} {op : JobOp} (h : RowStep now r op r') :
    SameJob r r' := by
  cases h with
  | recovered => unfold recoverRow; split <;> exact ⟨rfl, rfl, rfl, rfl⟩
  | calledBack _ callback =>
    unfold LeaseCallback.write
    cases hrun : callback.run now r with
    | none => exact SameJob.refl r
    | some r' =>
      cases callback with
      | throws => cases hrun
      | otherTables => cases hrun; exact SameJob.refl r
      | recordRemoteMutationDispatch proof =>
        simp only [LeaseCallback.run] at hrun
        split at hrun <;> cases hrun
        exact ⟨rfl, rfl, rfl, rfl⟩
      | recordRemoteMutationTerminal operationId terminalState =>
        simp only [LeaseCallback.run] at hrun
        split at hrun
        · split at hrun <;> cases hrun
          exact ⟨rfl, rfl, rfl, rfl⟩
        · cases hrun
  | _ => exact ⟨rfl, rfl, rfl, rfl⟩

/-- A statement other than `retryJob` activates no row. -/
theorem RowStep.active_of_active {now : Time} {r r' : JobRow} {op : JobOp}
    (h : RowStep now r op r') (hop : op.plain = true) (hactive : r'.status.active = true) :
    r.status.active = true := by
  by_cases hrunning : r.status = .running
  · rw [hrunning]; rfl
  · rcases h.of_not_running hrunning with rfl | ⟨hqueued, _⟩ | ⟨hqueued, _⟩ | ⟨_, rfl, _⟩
    · exact hactive
    · rw [hqueued]; rfl
    · rw [hqueued]; rfl
    · cases hop

section

variable [Js.CaseMapping] (inventory : Inventory)

/-- Where the row `r'` of the table after a step comes from. -/
inductive RowOrigin (s : AdmissionState) (op : AdmissionOp) (r' : JobRow) : Prop
  | kept (r : JobRow) (hr : r ∈ s.base.jobs) (hsame : SameJob r r')
      (hactive : r'.status.active = true → r.status.active = true)
  | enqueued (id : Id) (action : DockerActionRequest) (key : Option String)
      (hop : op = .enqueueJob id action key)
      (hfree : findActiveSingleFlightJob inventory s action.hostId action.payload key none
        = .ok none)
      (hfresh : ∀ r ∈ s.base.jobs, r.id ≠ id)
      (hr' : r' = jobInsert s.base.clock id action key)
  | requeued (r : JobRow) (hr : r ∈ s.base.jobs) (admitted : Bool)
      (hop : op = .retryJob r.id admitted) (hcan : canRetryJob r = true) (found : Option JobRow)
      (hfree : findActiveSingleFlightJob inventory s (r.hostId.getD "") r.payload none (some r.id)
        = .ok found)
      (hr' : r' = requeueRow s.base.clock r)
  | admitted (id : Id) (request : RecoveryRequest) (recoveryClear : Bool)
      (hop : op = .admitRecovery id request recoveryClear)
      (hlock : lockRecoveryOperationAdmission inventory s
        (request.operation.source ++ request.operation.target) recoveryClear = .ok ())
      (hruns : (s.step inventory op).migrationRuns
        = s.migrationRuns ++ request.operation.migrationRun.toList)
      (hfresh : ∀ r ∈ s.base.jobs, r.id ≠ id)
      (hr' : r' = recoveryJobRow s.base.clock id request)

theorem RowOrigin.unchanged {s : AdmissionState} {op : AdmissionOp} {r : JobRow}
    (hr : r ∈ s.base.jobs) : RowOrigin inventory s op r :=
  .kept r hr (SameJob.refl r) id

/-- **Where rows come from.** -/
theorem AdmissionState.step_origin {s : AdmissionState} {op : AdmissionOp} {r' : JobRow}
    (hr' : r' ∈ (s.step inventory op).base.jobs) : RowOrigin inventory s op r' := by
  cases op with
  | recoveryTables attempts obligations => exact .unchanged inventory hr'
  | writeResult id result =>
    obtain ⟨r, hr, heq⟩ := List.mem_map.mp hr'
    refine .kept r hr ?_ ?_ <;> (subst heq; split)
    · exact ⟨rfl, rfl, rfl, rfl⟩
    · exact SameJob.refl r
    · exact fun h => h
    · exact fun h => h
  | statement op =>
    simp only [step] at hr'
    split at hr'
    · rename_i hplain
      have hold : ∃ r, s.base.jobs.find r'.id = some r := by
        cases hfind : s.base.jobs.find r'.id with
        | some r => exact ⟨r, rfl⟩
        | none =>
          obtain ⟨_, _, _, rfl, _⟩ := JobSystem.step_find_new hfind
            (Table.find_eq_some.mpr ⟨hr', rfl⟩)
          cases hplain
      obtain ⟨r, hr⟩ := hold
      obtain ⟨r₁, hr₁, hstep⟩ := JobSystem.step_find op hr
      obtain rfl : r' = r₁ :=
        Option.some.inj ((Table.find_eq_some.mpr ⟨hr', rfl⟩).symm.trans hr₁)
      exact .kept r (Table.find_eq_some.mp hr).1 hstep.sameJob
        (hstep.active_of_active hplain)
    · exact .unchanged inventory hr'
  | enqueueJob id action key =>
    simp only [step, enqueueJob] at hr'
    split at hr'
    · split at hr'
      · rename_i hfree
        simp only [insertJob] at hr'
        split at hr'
        · exact .unchanged inventory hr'
        · rcases Table.mem_insert hr' with hold | ⟨rfl, hfresh⟩
          · exact .unchanged inventory hold
          · exact .enqueued id action key rfl hfree hfresh rfl
      · exact .unchanged inventory hr'
    · exact .unchanged inventory hr'
  | retryJob id admitted =>
    simp only [step, retryAdmittedJob] at hr'
    split at hr'
    · exact .unchanged inventory hr'
    · rename_i r hfind
      obtain ⟨hr, rfl⟩ := Table.find_eq_some.mp hfind
      split at hr'
      · rename_i hcan
        split at hr'
        · rename_i found hfree
          obtain ⟨r₀, hr₀, heq⟩ := List.mem_map.mp hr'
          split at heq
          · rename_i hselected
            simp only [Bool.and_eq_true, beq_iff_eq] at hselected
            obtain rfl : r₀ = r := Table.eq_of_key_eq hr₀ hr hselected.1.1
            exact .requeued r₀ hr admitted rfl (Bool.and_eq_true_iff.mp hcan).1 found hfree
              heq.symm
          · exact .unchanged inventory (heq ▸ hr₀)
        · exact .unchanged inventory hr'
      · exact .unchanged inventory hr'
  | admitRecovery id request recoveryClear =>
    cases hlock : lockRecoveryOperationAdmission inventory s
        (request.operation.source ++ request.operation.target) recoveryClear with
    | error error =>
      simp only [step, admitRecovery, hlock] at hr'
      exact .unchanged inventory hr'
    | ok _ =>
      by_cases hhosts : jobHostsAvailable inventory request.operation.hostId
          request.operation.payload = true
      · have hr'_insert : r' ∈ s.base.jobs.insert (recoveryJobRow s.base.clock id request) := by
          simpa only [step, admitRecovery, hlock, if_pos hhosts] using hr'
        rcases Table.mem_insert hr'_insert with hold | ⟨rfl, hfresh⟩
        · exact .unchanged inventory hold
        · exact .admitted id request recoveryClear rfl hlock
            (by simp only [step, admitRecovery, hlock, if_pos hhosts]) hfresh rfl
      · simp only [step, admitRecovery, hlock, if_neg hhosts] at hr'
        exact .unchanged inventory hr'

/-! ### Facts about single rows -/

/-- The host `h` is one the row can be found by: its own, its payload's target host, or a host
    of its migration run. -/
def Locates (s : AdmissionState) (r : JobRow) (h : Id) : Prop :=
  r.hostId = some (uuidText h) ∨ r.payload.targetHostId = some h
    ∨ ∃ run ∈ s.migrationRuns, r.payload = .migrationExecute run.id
      ∧ (run.sourceHostId = uuidText h ∨ run.targetHostId = uuidText h)

/-- What holds of every row: its host id is a UUID in the spelling of the database, and the
    scopes it stores are conservative, on hosts it can be found by. -/
structure RowFacts (s : AdmissionState) (r : JobRow) : Prop where
  host : ∃ h, r.hostId = some h ∧ isUuid h = true ∧ uuidText h = h
  target : r.payload.targetHostId.all isUuid = true
  scopes : ∀ stored, r.recoveryScopes = some stored → r.type ∈ fencingRecoveryTypes
    ∧ ∀ c ∈ stored.source ++ stored.target,
      (∃ scope, c = conservativeRecoveryDockerMutationScope scope) ∧ ∀ h ∈ c.hostIds, Locates s r h

/-- A scope all of whose targets are on the one host it names. -/
def OnHost (k : Id) (scope : DockerMutationScope) : Prop :=
  (∀ h ∈ scope.hostIds, h = k) ∧ ∀ t ∈ scope.targets, t.hostId = k

theorem hostId_of_mem_recoveryAddTargets {hostId : Id} (ts : List DockerMutationTarget)
    (hts : ∀ t ∈ ts, t.hostId = hostId) (values : List (MutationTargetKind × String)) :
    ∀ t ∈ recoveryAddTargets ts hostId values, t.hostId = hostId := by
  refine List.foldlRecOn (motive := fun ts : List DockerMutationTarget =>
    ∀ t ∈ ts, t.hostId = hostId) values _ hts fun ts hts value _ t ht => ?_
  rcases mem_recoveryAddTarget.mp ht with hold | ⟨_, rfl | ⟨_, _, rfl⟩⟩
  · exact hts t hold
  · rfl
  · rfl

theorem onHost_buildRecoverySource (hostId : Id) (identity : RecoveryAppIdentity)
    (context : RecoverySourceContext) :
    OnHost hostId (buildRecoverySourceDockerMutationScope hostId identity context) := by
  refine ⟨fun h hh => by simpa [buildRecoverySourceDockerMutationScope] using hh, ?_⟩
  intro t ht
  simp only [buildRecoverySourceDockerMutationScope] at ht
  split at ht
  · exact hostId_of_mem_recoveryAddTargets [] (fun _ h => by cases h)
      [(.composeProject, "recovery-identity-" ++ identity.fallback)] t ht
  · exact hostId_of_mem_recoveryAddTargets [] (fun _ h => by cases h) _ t ht

theorem onHost_restorePlan (hostId : Id) (plan : RestorePlan) :
    OnHost hostId (plan.dockerMutationScope hostId) := by
  refine ⟨fun h hh => by simpa [RestorePlan.dockerMutationScope] using hh, ?_⟩
  refine List.foldlRecOn (motive := fun ts : List DockerMutationTarget =>
    ∀ t ∈ ts, t.hostId = hostId) plan.targetValues _ (fun _ h => by cases h)
    fun ts hts value _ t ht => ?_
  simp only [restorePlanAddTarget] at ht
  split at ht
  all_goals
    split at ht
    · exact hts t ht
    · rcases mem_pushTarget.mp ht with hold | rfl
      · exact hts t hold
      · rfl

theorem onHost_conservativeMigrationTarget (hostId : Id) (projectName : String) :
    OnHost hostId (conservativeMigrationTargetDockerScope hostId projectName) := by
  refine ⟨fun h hh => by simpa [conservativeMigrationTargetDockerScope] using hh, ?_⟩
  intro t ht
  simp only [conservativeMigrationTargetDockerScope, List.mem_append] at ht
  rcases ht with ht | ht
  · simp only [List.mem_cons, List.not_mem_nil, or_false] at ht
    rcases ht with rfl | rfl | rfl | rfl <;> rfl
  · split at ht
    · cases ht
    · rw [List.mem_singleton] at ht
      rw [ht]

omit [Js.CaseMapping] in
theorem onHost_backup (hostId : Id) (volume : Bool) (value : String) :
    OnHost hostId (backupDockerMutationScope hostId volume value) := by
  refine ⟨fun h hh => by simpa [backupDockerMutationScope] using hh, fun t ht => ?_⟩
  rw [backupDockerMutationScope, List.mem_singleton] at ht
  rw [ht]

/-- The scopes of a recovery operation are each on one host: the job's, the target host of its
    payload, or a host of the migration run it inserts. -/
theorem RecoveryOperation.onHost_of_mem (operation : RecoveryOperation)
    {scope : DockerMutationScope} (h : scope ∈ operation.source ++ operation.target) :
    ∃ k, OnHost k scope ∧ (k = operation.hostId ∨ operation.payload.targetHostId = some k
      ∨ ∃ run, operation.migrationRun = some run ∧ operation.payload = .migrationExecute run.id
        ∧ (run.sourceHostId = k ∨ run.targetHostId = k)) := by
  cases operation with
  | capture host point identity context =>
    simp only [source, target, List.append_nil, List.mem_singleton] at h
    subst h
    exact ⟨host, onHost_buildRecoverySource host identity context, Or.inl rfl⟩
  | restore host point drill plan =>
    simp only [source, target, List.nil_append, List.mem_singleton] at h
    subst h
    exact ⟨host, onHost_restorePlan host plan, Or.inl rfl⟩
  | migration sourceHost targetHost run identity context migrationTarget =>
    have hrun : (migration sourceHost targetHost run identity context migrationTarget).migrationRun
        = some ⟨run, uuidText sourceHost, uuidText targetHost⟩ := rfl
    rcases List.mem_append.mp h with h | h
    · rw [source, List.mem_singleton] at h
      subst h
      exact ⟨uuidText sourceHost, onHost_buildRecoverySource _ identity context,
        Or.inr (Or.inr ⟨_, hrun, rfl, Or.inl rfl⟩)⟩
    · cases migrationTarget with
      | plan plan =>
        rw [target, List.mem_singleton] at h
        subst h
        exact ⟨uuidText targetHost, onHost_restorePlan _ plan,
          Or.inr (Or.inr ⟨_, hrun, rfl, Or.inr rfl⟩)⟩
      | conservative projectName =>
        rw [target, List.mem_singleton] at h
        subst h
        exact ⟨uuidText targetHost, onHost_conservativeMigrationTarget _ projectName,
          Or.inr (Or.inr ⟨_, hrun, rfl, Or.inr rfl⟩)⟩
  | volumeBackup host backup volume =>
    simp only [source, target, List.append_nil, List.mem_singleton] at h
    subst h
    exact ⟨host, onHost_backup host true volume, Or.inl rfl⟩
  | hostPathBackup host backup path =>
    simp only [source, target, List.append_nil, List.mem_singleton] at h
    subst h
    exact ⟨host, onHost_backup host false path, Or.inl rfl⟩
  | volumeClone host targetHost backup sourceVolume targetVolume =>
    rcases List.mem_append.mp h with h | h
    · rw [source, List.mem_singleton] at h
      subst h
      exact ⟨host, onHost_backup host true sourceVolume, Or.inl rfl⟩
    · rw [target, List.mem_singleton] at h
      subst h
      exact ⟨targetHost, onHost_backup targetHost true targetVolume, Or.inr (Or.inl rfl)⟩
  | volumeRestore host backup volume =>
    simp only [source, target, List.nil_append, List.mem_singleton] at h
    subst h
    exact ⟨host, onHost_backup host true volume, Or.inl rfl⟩
  | hostPathRestore host backup path =>
    simp only [source, target, List.nil_append, List.mem_singleton] at h
    subst h
    exact ⟨host, onHost_backup host false path, Or.inl rfl⟩
  | backupDrill host backup volume drillTarget =>
    simp only [source, target, List.nil_append, List.mem_singleton] at h
    subst h
    exact ⟨host, onHost_backup host volume drillTarget, Or.inl rfl⟩

/-- The conservative form of a scope on one host names that host. -/
theorem OnHost.conservative {k : Id} {scope : DockerMutationScope} (h : OnHost k scope) :
    ∀ host ∈ (conservativeRecoveryDockerMutationScope scope).hostIds, host = k := by
  intro host hhost
  rcases List.mem_append.mp (mem_sortedUnique.mp hhost) with hlisted | htarget
  · exact h.1 host hlisted
  · obtain ⟨t, ht, rfl⟩ := List.mem_map.mp htarget
    obtain ⟨t₀, ht₀, heq⟩ := hostId_of_mem_conservative t ht
    exact heq.trans (h.2 t₀ ht₀)

/-- The targets of the conservative form are on hosts it names. -/
theorem hostId_mem_conservative (scope : DockerMutationScope) :
    ∀ t ∈ (conservativeRecoveryDockerMutationScope scope).targets,
      t.hostId ∈ (conservativeRecoveryDockerMutationScope scope).hostIds := fun _ ht =>
  mem_sortedUnique.mpr (List.mem_append_right _ (List.mem_map_of_mem ht))

/-! ### The facts are an invariant -/

omit [Js.CaseMapping] in
/-- A row stays where it can be found: migration runs are only added. -/
theorem Locates.mono {s s' : AdmissionState} {r r' : JobRow} {h : Id}
    (hruns : s.migrationRuns ⊆ s'.migrationRuns) (hsame : SameJob r r') (hloc : Locates s r h) :
    Locates s' r' h := by
  rcases hloc with hown | htarget | ⟨run, hrun, hpayload, hhost⟩
  · exact Or.inl (hsame.hostId_eq.trans hown)
  · exact Or.inr (Or.inl (by rw [hsame.payload_eq, htarget]))
  · exact Or.inr (Or.inr ⟨run, hruns hrun, hsame.payload_eq.trans hpayload, hhost⟩)

theorem RowFacts.mono {s s' : AdmissionState} {r r' : JobRow}
    (hruns : s.migrationRuns ⊆ s'.migrationRuns) (hsame : SameJob r r') (h : RowFacts s r) :
    RowFacts s' r' := by
  refine ⟨by rw [hsame.hostId_eq]; exact h.host, by rw [hsame.payload_eq]; exact h.target,
    fun stored hstored => ?_⟩
  obtain ⟨htype, hscopes⟩ := h.scopes stored (hsame.recoveryScopes_eq ▸ hstored)
  refine ⟨by rw [JobRow.type, hsame.payload_eq]; exact htype, fun c hc => ?_⟩
  exact ⟨(hscopes c hc).1, fun k hk => ((hscopes c hc).2 k hk).mono hruns hsame⟩

theorem AdmissionState.migrationRuns_subset (s : AdmissionState) (op : AdmissionOp) :
    s.migrationRuns ⊆ (s.step inventory op).migrationRuns := by
  cases op with
  | enqueueJob id action key =>
    simp only [step, enqueueJob]
    split
    · split <;> exact List.Subset.refl _
    · exact List.Subset.refl _
  | retryJob id admitted =>
    simp only [step, retryAdmittedJob]
    split
    · exact List.Subset.refl _
    · split
      · split <;> exact List.Subset.refl _
      · exact List.Subset.refl _
  | admitRecovery id request recoveryClear =>
    simp only [step, admitRecovery]
    split
    · exact List.Subset.refl _
    · split
      · exact List.subset_append_left _ _
      · exact List.Subset.refl _
  | statement op =>
    simp only [step]
    split <;> exact List.Subset.refl _
  | writeResult id result => exact List.Subset.refl _
  | recoveryTables attempts obligations => exact List.Subset.refl _

omit [Js.CaseMapping] in
/-- The hosts of a migration run are spelled as the database spells them. -/
theorem RecoveryOperation.uuidText_migrationRun {operation : RecoveryOperation}
    {run : MigrationRun} (h : operation.migrationRun = some run) :
    uuidText run.sourceHostId = run.sourceHostId ∧ uuidText run.targetHostId = run.targetHostId := by
  cases operation <;> cases h
  exact ⟨uuidText_idem _, uuidText_idem _⟩

omit [Js.CaseMapping] in
theorem RecoveryOperation.type_mem (operation : RecoveryOperation) :
    operation.payload.type ∈ fencingRecoveryTypes := by
  cases operation <;>
    simp [RecoveryOperation.payload, ActionPayload.type, fencingRecoveryTypes]

omit [Js.CaseMapping] in
/-- The host id of a request in the spelling of the database. -/
theorem host_of_request {hostId : Id} (h : isUuid hostId = true) :
    ∃ k, some (uuidText hostId) = some k ∧ isUuid k = true ∧ uuidText k = k :=
  ⟨uuidText hostId, rfl, isUuid_uuidText h, uuidText_idem hostId⟩

/-- The row of an admitted recovery operation can be found by the hosts of its scopes. -/
theorem rowFacts_recoveryJobRow {s : AdmissionState} {now : Time} {id : Id}
    {request : RecoveryRequest}
    (hruns : ∀ run, request.operation.migrationRun = some run → run ∈ s.migrationRuns) :
    RowFacts s (recoveryJobRow now id request) := by
  refine ⟨host_of_request request.hostId_isUuid, request.targetHostId_isUuid,
    fun stored hstored => ?_⟩
  cases hstored
  refine ⟨request.operation.type_mem, fun c hc => ?_⟩
  obtain ⟨scope, hscope, rfl⟩ : ∃ scope ∈ request.operation.source ++ request.operation.target,
      conservativeRecoveryDockerMutationScope scope = c := by
    simpa only [persistedRecoveryScopes, ← List.map_append, List.mem_map] using hc
  refine ⟨⟨scope, rfl⟩, fun h hh => ?_⟩
  obtain ⟨k, honHost, hk⟩ := request.operation.onHost_of_mem hscope
  obtain rfl : h = k := honHost.conservative h hh
  rcases hk with rfl | htarget | ⟨run, hrun, hpayload, hhost⟩
  · exact Or.inl rfl
  · exact Or.inr (Or.inl htarget)
  · obtain ⟨hsource, htarget⟩ := RecoveryOperation.uuidText_migrationRun hrun
    refine Or.inr (Or.inr ⟨run, hruns run hrun, hpayload, hhost.imp ?_ ?_⟩)
    · rintro rfl; exact hsource.symm
    · rintro rfl; exact htarget.symm

/-- The facts hold of every row. -/
def AdmissionState.AllRows (s : AdmissionState) : Prop := ∀ r ∈ s.base.jobs, RowFacts s r

omit [Js.CaseMapping] in
theorem AdmissionState.allRows_initial [Js.CaseMapping] (now : Time) : (initial now).AllRows :=
  fun _ hr => absurd hr (Table.not_mem_empty _)

/-- **Every step keeps the facts.** -/
theorem AdmissionState.AllRows.step {s : AdmissionState} (h : s.AllRows) (op : AdmissionOp) :
    (s.step inventory op).AllRows := by
  intro r' hr'
  have hruns := s.migrationRuns_subset inventory op
  rcases s.step_origin inventory hr' with ⟨r, hr, hsame, _⟩ | ⟨id, action, key, _, _, _, rfl⟩
    | ⟨r, hr, _, _, _, _, _, rfl⟩ | ⟨id, request, _, _, _, hadded, _, rfl⟩
  · exact (h r hr).mono hruns hsame
  · exact ⟨host_of_request action.hostId_isUuid, action.targetHostId_isUuid,
      fun _ hstored => by cases hstored⟩
  · exact RowFacts.mono hruns (r := r) ⟨rfl, rfl, rfl, rfl⟩ (h r hr)
  · refine rowFacts_recoveryJobRow fun run hrun => ?_
    rw [hadded, hrun]
    exact List.mem_append_right _ (List.mem_singleton_self run)

end

end ComposeBastion
