import ComposeBastion.Recovery.AdmissionChecks

namespace ComposeBastion

open Runs

/-!
# Exclusion of direct mutations and recovery operations

The three exclusion properties of admission, over every run of the admission system:

* `Exclusive` — no two active jobs have Docker scopes that collide;
* `RecoveryExclusive` — no active job has a Docker scope that collides with one of an active
  recovery operation;
* `Fenced` — a step admits nothing that collides with a job whose remote outcome is unknown.

Each holds along the runs that avoid the slips of the source, and each slip is a condition on
the request and the state it meets: a host id spelled other than the database spells it, a
Compose request that meets a container clone from another host, a recovery operation that meets
an active analysis, and a recovery operation on a host that a job has left in an unknown state.
-/

section

variable [Js.CaseMapping] (inventory : Inventory)

/-! ### Rows that become active -/

/-- The scope of a job does not change. -/
theorem SameJob.canonicalJobScope_eq {r r' : JobRow} (h : SameJob r r') :
    canonicalJobScope inventory r' = canonicalJobScope inventory r := by
  rw [canonicalJobScope, canonicalJobScope, h.hostId_eq, h.payload_eq]

omit [Js.CaseMapping] in
/-- The row `r'` is active now, and no active row of the state `s` before had its id. -/
def NewlyActive (s : AdmissionState) (r' : JobRow) : Prop :=
  r'.status.active = true ∧ ∀ r ∈ s.base.jobs, r.id = r'.id → r.status.active = false

omit [Js.CaseMapping] in
instance (s : AdmissionState) (r' : JobRow) : Decidable (NewlyActive s r') :=
  inferInstanceAs (Decidable (_ ∧ ∀ r ∈ s.base.jobs.rows, _))

omit [Js.CaseMapping] in
/-- The job a step admits, if any. -/
def AdmissionOp.admittedId : AdmissionOp → Option Id
  | enqueueJob id _ _ => some id
  | retryJob id _ => some id
  | admitRecovery id _ _ => some id
  | _ => none

omit [Js.CaseMapping] in
theorem not_active_of_canRetryJob {r : JobRow} (h : canRetryJob r = true) :
    r.status.active = false := by
  simp only [canRetryJob, Bool.and_eq_true, Bool.or_eq_true, beq_iff_eq] at h
  rcases h.1.1.1.1 with hfailed | hcanceled
  · rw [hfailed]; rfl
  · rw [hcanceled]; rfl

/-- An active row was active before the step, or the step has admitted it. -/
theorem AdmissionState.active_origin {s : AdmissionState} {op : AdmissionOp} {r' : JobRow}
    (hr' : r' ∈ (s.step inventory op).base.jobs) (hactive : r'.status.active = true) :
    (∃ r ∈ s.base.jobs, SameJob r r' ∧ r.status.active = true)
      ∨ (op.admittedId = some r'.id ∧ NewlyActive s r') := by
  rcases s.step_origin inventory hr' with ⟨r, hr, hsame, hkept⟩
    | ⟨id, action, key, rfl, _, hfresh, rfl⟩ | ⟨r, hr, _, rfl, hcan, _, _, rfl⟩
    | ⟨id, request, _, rfl, _, _, hfresh, rfl⟩
  · exact Or.inl ⟨r, hr, hsame, hkept hactive⟩
  · exact Or.inr ⟨rfl, hactive, fun r hr hid => absurd hid (hfresh r hr)⟩
  · refine Or.inr ⟨rfl, hactive, fun r₀ hr₀ hid => ?_⟩
    rw [Table.eq_of_key_eq hr₀ hr hid]
    exact not_active_of_canRetryJob hcan
  · exact Or.inr ⟨rfl, hactive, fun r hr hid => absurd hid (hfresh r hr)⟩

/-- **Pairs of active rows.**  A symmetric relation between requests that holds of the active
    rows, and between a row the step admits and the active rows, holds of the active rows
    after the step. -/
theorem AdmissionState.pairwise_step {s : AdmissionState} {op : AdmissionOp}
    {R : JobRow → JobRow → Prop} (hsymm : ∀ r q, R r q → R q r)
    (hsame : ∀ r r' q, SameJob r r' → R r q → R r' q)
    (hold : ∀ r ∈ s.base.jobs, ∀ q ∈ s.base.jobs, r.id ≠ q.id → r.status.active = true →
      q.status.active = true → R r q)
    (hnew : ∀ r' ∈ (s.step inventory op).base.jobs, NewlyActive s r' →
      ∀ q ∈ s.base.jobs, q.status.active = true → R r' q) :
    ∀ r' ∈ (s.step inventory op).base.jobs, ∀ q' ∈ (s.step inventory op).base.jobs,
      r'.id ≠ q'.id → r'.status.active = true → q'.status.active = true → R r' q' := by
  intro r' hr' q' hq' hne hrActive hqActive
  have hsame_right : ∀ r q q', SameJob q q' → R r q → R r q' := fun r q q' hqq hR =>
    hsymm _ _ (hsame q q' r hqq (hsymm _ _ hR))
  rcases s.active_origin inventory hr' hrActive with ⟨r, hr, hrsame, hr₀⟩ | ⟨hrId, hrNew⟩
  · rcases s.active_origin inventory hq' hqActive with ⟨q, hq, hqsame, hq₀⟩ | ⟨_, hqNew⟩
    · have hids : r.id ≠ q.id := by rw [← hrsame.id_eq, ← hqsame.id_eq]; exact hne
      exact hsame_right _ _ _ hqsame (hsame _ _ _ hrsame (hold r hr q hq hids hr₀ hq₀))
    · exact hsame _ _ _ hrsame (hsymm _ _ (hnew q' hq' hqNew r hr hr₀))
  · rcases s.active_origin inventory hq' hqActive with ⟨q, hq, hqsame, hq₀⟩ | ⟨hqId, _⟩
    · exact hsame_right _ _ _ hqsame (hnew r' hr' hrNew q hq hq₀)
    · rw [hrId] at hqId
      exact absurd (Option.some.inj hqId) hne

/-! ### What an admitted row has passed -/

omit [Js.CaseMapping] in
/-- The request names its host as the database does, if its scope is read off that name. -/
def SpelledAsStored : AdmissionOp → Prop
  | .enqueueJob _ action _ =>
      scopeReadsHostId action.payload = true → action.hostId = uuidText action.hostId
  | _ => True

omit [Js.CaseMapping] in
instance (op : AdmissionOp) : Decidable (SpelledAsStored op) := by
  cases op <;> unfold SpelledAsStored <;> infer_instance

omit [Js.CaseMapping] in
theorem stackId_of_canRetryJob {r : JobRow} (h : canRetryJob r = true) :
    r.payload.stackId = none ∧ r.type ∉ fencingRecoveryTypes := by
  simp only [canRetryJob, Bool.and_eq_true, List.contains_eq_mem, decide_eq_true_eq] at h
  have htype : r.payload.type ∈ manualRetryJobTypes := h.1.1.2
  have hstack : ∀ payload : ActionPayload, payload.type ∈ manualRetryJobTypes →
      payload.stackId = none := by
    intro payload hmem
    cases payload <;> first
      | rfl
      | exact absurd hmem (by simp [ActionPayload.type, manualRetryJobTypes, autoRetryJobTypes])
  have hdisjoint : ∀ type ∈ manualRetryJobTypes, type ∉ fencingRecoveryTypes := by decide
  exact ⟨hstack _ htype, hdisjoint _ htype⟩

/-- A direct job that becomes active has passed `findActiveSingleFlightJob` with the scope its
    row has. -/
theorem AdmissionState.direct_admitted {s : AdmissionState} {op : AdmissionOp} {r' : JobRow}
    {c : DockerMutationScope} (hall : s.AllRows) (hspelled : SpelledAsStored op)
    (hr' : r' ∈ (s.step inventory op).base.jobs) (hnew : NewlyActive s r')
    (hc : canonicalJobScope inventory r' = some c) :
    ∃ hostId payload key revived resolved, isUuid hostId = true
      ∧ resolveDockerMutationScopeForJob inventory hostId payload = some resolved
      ∧ canonicalizeDockerMutationScope inventory resolved = c
      ∧ findActiveSingleFlightJob inventory s hostId payload key revived = .ok none
      ∧ (payload.stackId.isSome = true →
        ∃ id action key, op = .enqueueJob id action key ∧ action.hostId = hostId
          ∧ action.payload = payload) := by
  rcases s.step_origin inventory hr' with ⟨r, hr, hsame, hkept⟩
    | ⟨id, action, key, rfl, hfree, _, rfl⟩ | ⟨r, hr, _, _, hcan, _, hfree, rfl⟩
    | ⟨id, request, _, _, _, _, _, rfl⟩
  · have hended := hnew.2 r hr hsame.id_eq.symm
    rw [hkept hnew.1] at hended
    cases hended
  · obtain ⟨resolved, hresolved, hcanonical⟩ := canonicalJobScope_eq_some.mp hc
    have hspelling : resolveDockerMutationScopeForJob inventory action.hostId action.payload
        = resolveDockerMutationScopeForJob inventory (uuidText action.hostId) action.payload := by
      by_cases hreads : scopeReadsHostId action.payload = true
      · rw [← hspelled hreads]
      · exact (resolve_uuidText (ne_empty_of_isUuid action.hostId_isUuid)
          (Bool.eq_false_iff.mpr hreads)).symm
    exact ⟨_, _, _, _, resolved, action.hostId_isUuid, hspelling.trans hresolved, hcanonical,
      hfree, fun _ => ⟨id, action, key, rfl, rfl, rfl⟩⟩
  · obtain ⟨resolved, hresolved, hcanonical⟩ := canonicalJobScope_eq_some.mp hc
    rw [findActive_of_retry hr (not_active_of_canRetryJob hcan) hfree] at hfree
    obtain ⟨host, hhost, huuid, _⟩ := (hall r hr).host
    refine ⟨r.hostId.getD "", r.payload, none, some r.id, resolved, ?_, hresolved, hcanonical,
      hfree, fun hstack => ?_⟩
    · rw [hhost]; exact huuid
    · rw [(stackId_of_canRetryJob hcan).1] at hstack
      cases hstack
  · have hdisjoint : ∀ type ∈ fencingRecoveryTypes, type ∉ crossTargetJobTypes := by decide
    exact absurd (type_mem_of_canonicalJobScope hc) (hdisjoint _ request.operation.type_mem)

/-- A recovery operation that becomes active has passed `lockRecoveryOperationAdmission` with
    the scopes its row stores. -/
theorem AdmissionState.recovery_admitted {s : AdmissionState} {op : AdmissionOp} {r' : JobRow}
    {stored : StoredRecoveryDockerScopes} (hall : s.AllRows)
    (hr' : r' ∈ (s.step inventory op).base.jobs) (hnew : NewlyActive s r')
    (hstored : r'.recoveryScopes = some stored) :
    ∃ id request recoveryClear, op = .admitRecovery id request recoveryClear
      ∧ lockRecoveryOperationAdmission inventory s
          (request.operation.source ++ request.operation.target) recoveryClear = .ok ()
      ∧ stored.source ++ stored.target = (request.operation.source
          ++ request.operation.target).map conservativeRecoveryDockerMutationScope := by
  rcases s.step_origin inventory hr' with ⟨r, hr, hsame, hkept⟩
    | ⟨id, action, key, _, _, _, rfl⟩ | ⟨r, hr, _, _, hcan, _, _, rfl⟩
    | ⟨id, request, recoveryClear, rfl, hlock, _, _, rfl⟩
  · have hended := hnew.2 r hr hsame.id_eq.symm
    rw [hkept hnew.1] at hended
    cases hended
  · cases hstored
  · exact absurd ((hall r hr).scopes stored hstored).1 (stackId_of_canRetryJob hcan).2
  · cases hstored
    exact ⟨id, request, recoveryClear, rfl, hlock, List.map_append.symm⟩

/-! ### Direct mutations -/

/-- No two active jobs have Docker scopes that collide. -/
def Exclusive (s : AdmissionState) : Prop :=
  ∀ r ∈ s.base.jobs, ∀ q ∈ s.base.jobs, r.id ≠ q.id → r.status.active = true →
    q.status.active = true → ∀ c d, canonicalJobScope inventory r = some c →
      canonicalJobScope inventory q = some d → dockerMutationScopesConflict c d = false

/-- A Compose request with a scope meets no standing container clone from another host. -/
def MeetsNoClone (standing : JobRow → Bool) (s : AdmissionState) : AdmissionOp → Prop
  | .enqueueJob _ action _ =>
      action.payload.stackId.isSome = true →
        (resolveDockerMutationScopeForJob inventory action.hostId action.payload).isSome = true →
        ∀ row ∈ s.base.jobs.rows, standing row = true → ¬ MissedClone action.hostId row
  | _ => True

instance (standing : JobRow → Bool) (s : AdmissionState) (op : AdmissionOp) :
    Decidable (MeetsNoClone inventory standing s op) := by
  cases op <;> unfold MeetsNoClone <;> infer_instance

/-- The condition under which single flight sees every active job. -/
def SeesActiveJobs (s : AdmissionState) (op : AdmissionOp) : Prop :=
  SpelledAsStored op ∧ MeetsNoClone inventory (fun row => row.status.active) s op

instance (s : AdmissionState) (op : AdmissionOp) : Decidable (SeesActiveJobs inventory s op) :=
  inferInstanceAs (Decidable (_ ∧ _))

/-- A direct job that becomes active collides with no standing job. -/
theorem AdmissionState.not_conflict_of_admitted {s : AdmissionState} {op : AdmissionOp}
    {standing : JobRow → Bool} {r' q : JobRow} {c d : DockerMutationScope} (hall : s.AllRows)
    (hspelled : SpelledAsStored op) (hclone : MeetsNoClone inventory standing s op)
    (hr' : r' ∈ (s.step inventory op).base.jobs) (hnew : NewlyActive s r')
    (hc : canonicalJobScope inventory r' = some c) (hq : q ∈ s.base.jobs)
    (hd : canonicalJobScope inventory q = some d) (hstanding : standing q = true)
    (hkind : q.status.active = true ∨ isUnreconciledRemoteOutcome q = true) :
    dockerMutationScopesConflict c d = false := by
  obtain ⟨hostId, payload, key, revived, resolved, huuid, hresolved, rfl, hfree, hcompose⟩ :=
    s.direct_admitted inventory hall hspelled hr' hnew hc
  refine not_conflict_of_findActive huuid hresolved hfree hq (hall q hq) hd (fun hstack => ?_) hkind
  obtain ⟨id, action, key, rfl, rfl, rfl⟩ := hcompose hstack
  exact hclone hstack (by rw [hresolved]; rfl) q hq hstanding

/-- One admission keeps the active jobs apart. -/
theorem Exclusive.step {s : AdmissionState} {op : AdmissionOp} (hall : s.AllRows)
    (hop : SeesActiveJobs inventory s op) (h : Exclusive inventory s) :
    Exclusive inventory (s.step inventory op) := by
  refine s.pairwise_step inventory (R := fun r q => ∀ c d, canonicalJobScope inventory r = some c →
    canonicalJobScope inventory q = some d → dockerMutationScopesConflict c d = false)
    (fun r q hR c d hc hd => ?_) (fun r r' q hsame hR c d hc hd => ?_) h
    (fun r' hr' hnew q hq hqActive c d hc hd => ?_)
  · rw [dockerMutationScopesConflict_comm]
    exact hR d c hd hc
  · rw [hsame.canonicalJobScope_eq] at hc
    exact hR c d hc hd
  · exact s.not_conflict_of_admitted inventory hall hop.1 hop.2 hr' hnew hc hq hd hqActive
      (Or.inl hqActive)

/-- **Mutual exclusion of direct mutations.**  Along every run whose requests spell their host
    ids as the database does and whose Compose requests meet no active container clone from
    another host, no two active jobs have scopes that collide. -/
theorem direct_mutual_exclusion (now : Time) (ops : List AdmissionOp)
    (hops : Meets (AdmissionState.step inventory) (SeesActiveJobs inventory)
      (AdmissionState.initial now) ops) :
    Exclusive inventory
      (exec (AdmissionState.step inventory) (AdmissionState.initial now) ops) := by
  have hinvariant := exec_invariant_of_meets
    (I := fun s : AdmissionState => s.AllRows ∧ Exclusive inventory s)
    (fun s op hop h => ⟨h.1.step inventory op, h.2.step inventory h.1 hop⟩)
    ⟨AdmissionState.allRows_initial now, fun _ hr => absurd hr (Table.not_mem_empty _)⟩ hops
  exact hinvariant.2

end

section TwoHosts

attribute [local instance] Js.asciiCaseMapping

def sourceHost : Id := "11111111-1111-4111-8111-111111111111"

def stackHost : Id := "22222222-2222-4222-8222-222222222222"

def webStack : Id := "33333333-3333-4333-8333-333333333333"

/-- Two hosts, with one Compose stack on the second. -/
def twoHosts : Inventory where
  hosts := [sourceHost, stackHost]
  snapshots := []
  composeStacks := [⟨webStack, stackHost, "web", none⟩]
  deploymentAnalyses := []

/-- The state after these steps, with nothing there before. -/
def runOnTwoHosts (ops : List AdmissionOp) : AdmissionState :=
  exec (AdmissionState.step twoHosts) (AdmissionState.initial 0) ops

/-- Cloning a container from the first host onto the second. -/
def cloneOntoStackHost : DockerActionRequest :=
  ⟨sourceHost, .containerClone stackHost "api" none, by decide, by decide⟩

/-- Stopping the stack. -/
def stopWebStack : DockerActionRequest :=
  ⟨stackHost, .composeStop webStack, by decide, by decide⟩

/-- The stop is admitted beside the clone that is active already; the other way round the
    clone is refused. -/
theorem clone_then_stop_not_exclusive :
    ¬ Exclusive twoHosts (runOnTwoHosts
        [.enqueueJob "clone" cloneOntoStackHost none, .enqueueJob "stop" stopWebStack none])
      ∧ (runOnTwoHosts [.enqueueJob "stop" stopWebStack none,
          .enqueueJob "clone" cloneOntoStackHost none]).base.jobs.rows
        = [jobInsert 0 "stop" stopWebStack none] := by
  refine ⟨fun h => ?_, by decide +kernel⟩
  have hrows : (runOnTwoHosts [.enqueueJob "clone" cloneOntoStackHost none,
      .enqueueJob "stop" stopWebStack none]).base.jobs.rows
        = [jobInsert 0 "clone" cloneOntoStackHost none, jobInsert 0 "stop" stopWebStack none] := by
    decide +kernel
  have hconflict := h (jobInsert 0 "clone" cloneOntoStackHost none)
    (Table.mem_rows.mp (hrows ▸ List.mem_cons_self)) (jobInsert 0 "stop" stopWebStack none)
    (Table.mem_rows.mp (hrows ▸ List.mem_cons_of_mem _ List.mem_cons_self)) (by decide) rfl rfl _ _
    (Option.some_get (by decide +kernel)).symm (Option.some_get (by decide +kernel)).symm
  revert hconflict
  decide +kernel

theorem stop_then_clone_exclusive :
    Exclusive twoHosts (runOnTwoHosts
      [.enqueueJob "stop" stopWebStack none, .enqueueJob "clone" cloneOntoStackHost none]) :=
  direct_mutual_exclusion twoHosts 0 _ (by decide +kernel)

end TwoHosts

section

variable [Js.CaseMapping] (inventory : Inventory)

/-! ### Recovery operations -/

/-- No active job has a Docker scope that collides with a scope of an active recovery
    operation. -/
def RecoveryExclusive (s : AdmissionState) : Prop :=
  ∀ r ∈ s.base.jobs, ∀ q ∈ s.base.jobs, r.status.active = true → q.status.active = true →
    ∀ c stored, canonicalJobScope inventory r = some c → q.recoveryScopes = some stored →
      ∀ d ∈ stored.source ++ stored.target,
        dockerMutationScopesConflict c (canonicalizeDockerMutationScope inventory d) = false

/-- A recovery operation meets no active analysis on a host it has a target on. -/
def MeetsNoAnalysis (s : AdmissionState) : AdmissionOp → Prop
  | .admitRecovery _ request _ =>
      ∀ row ∈ s.base.jobs.rows, row.status.active = true → row.type = .deployAnalyze →
        ∀ scope ∈ request.operation.source ++ request.operation.target,
          ∀ t ∈ (conservativeRecoveryDockerMutationScope scope).targets,
            row.hostId ≠ some t.hostId
  | _ => True

instance (s : AdmissionState) (op : AdmissionOp) : Decidable (MeetsNoAnalysis s op) := by
  cases op <;> unfold MeetsNoAnalysis <;> infer_instance

/-- The condition under which direct mutations and recovery operations see each other. -/
def SeesRecovery (s : AdmissionState) (op : AdmissionOp) : Prop :=
  SpelledAsStored op ∧ MeetsNoAnalysis s op

instance (s : AdmissionState) (op : AdmissionOp) : Decidable (SeesRecovery s op) :=
  inferInstanceAs (Decidable (_ ∧ _))

/-- A job collides with the scopes that have a target on one of its hosts only. -/
theorem not_conflict_of_other_hosts {s : AdmissionState} {r : JobRow} {c scope : DockerMutationScope}
    (hfacts : RowFacts s r) (hc : canonicalJobScope inventory r = some c)
    (hhost : ∀ t ∈ scope.targets,
      r.hostId ≠ some t.hostId ∧ (r.type = .containerClone →
        r.payload.targetHostId ≠ some t.hostId)) :
    dockerMutationScopesConflict c (canonicalizeDockerMutationScope inventory scope) = false := by
  by_contra hconflict
  rw [Bool.not_eq_false] at hconflict
  obtain ⟨resolved, hresolved, rfl⟩ := canonicalJobScope_eq_some.mp hc
  obtain ⟨lt, hlt, rt, hrt, htargets⟩ := dockerMutationScopesConflict_iff.mp hconflict
  obtain ⟨t, ht, hthost⟩ := exists_target_of_mem_canonicalize rt hrt
  have hlisted := hostId_mem_of_mem_canonicalize
    (resolveDockerMutationScopeForJob_spec hresolved).host_listed lt hlt
  obtain ⟨hown, htarget⟩ := hhost t ht
  rw [hthost, ← (targetsConflict_same htargets).1] at hown htarget
  rcases hfacts.located hresolved hlisted with ⟨hhost, _⟩ | hhost
  · exact hown hhost
  · exact htarget (type_of_targetHostId
      (resolveDockerMutationScopeForJob_spec hresolved).type_mem hhost) hhost

/-- An analysis collides with the recovery operations that have a target on its host only. -/
theorem not_conflict_of_analysis {s : AdmissionState} {r : JobRow} {c scope : DockerMutationScope}
    (hfacts : RowFacts s r) (htype : r.type = .deployAnalyze)
    (hc : canonicalJobScope inventory r = some c)
    (hhost : ∀ t ∈ scope.targets, r.hostId ≠ some t.hostId) :
    dockerMutationScopesConflict c (canonicalizeDockerMutationScope inventory scope) = false := by
  refine not_conflict_of_other_hosts inventory hfacts hc fun t ht => ⟨hhost t ht, fun hclone => ?_⟩
  rw [htype] at hclone
  cases hclone

/-- A recovery operation that becomes active collides with no active direct job. -/
theorem AdmissionState.not_conflict_of_recovery {s : AdmissionState} {op : AdmissionOp}
    {r' q : JobRow} {stored : StoredRecoveryDockerScopes} {c d : DockerMutationScope}
    (hall : s.AllRows) (hop : MeetsNoAnalysis s op)
    (hr' : r' ∈ (s.step inventory op).base.jobs) (hnew : NewlyActive s r')
    (hstored : r'.recoveryScopes = some stored) (hd : d ∈ stored.source ++ stored.target)
    (hq : q ∈ s.base.jobs) (hactive : q.status.active = true)
    (hc : canonicalJobScope inventory q = some c) :
    dockerMutationScopesConflict c (canonicalizeDockerMutationScope inventory d) = false := by
  obtain ⟨id, request, recoveryClear, rfl, hlock, heq⟩ :=
    s.recovery_admitted inventory hall hr' hnew hstored
  rw [heq] at hd
  obtain ⟨scope, hscope, rfl⟩ := List.mem_map.mp hd
  by_cases hanalysis : q.type = .deployAnalyze
  · exact not_conflict_of_analysis inventory (hall q hq) hanalysis hc
      (hop q hq hactive hanalysis scope hscope)
  · exact not_conflict_of_lock hlock hscope hq (hall q hq) hactive hc hanalysis

/-- One admission keeps direct jobs and recovery operations apart. -/
theorem RecoveryExclusive.step {s : AdmissionState} {op : AdmissionOp} (hall : s.AllRows)
    (hop : SeesRecovery s op) (h : RecoveryExclusive inventory s) :
    RecoveryExclusive inventory (s.step inventory op) := by
  intro r' hr' q' hq' hrActive hqActive c stored hc hstored d hd
  rcases s.active_origin inventory hr' hrActive with ⟨r, hr, hrsame, hr₀⟩ | ⟨hrId, hrNew⟩
  · rw [hrsame.canonicalJobScope_eq] at hc
    rcases s.active_origin inventory hq' hqActive with ⟨q, hq, hqsame, hq₀⟩ | ⟨_, hqNew⟩
    · rw [hqsame.recoveryScopes_eq] at hstored
      exact h r hr q hq hr₀ hq₀ c stored hc hstored d hd
    · exact s.not_conflict_of_recovery inventory hall hop.2 hq' hqNew hstored hd hr hr₀ hc
  · rcases s.active_origin inventory hq' hqActive with ⟨q, hq, hqsame, hq₀⟩ | ⟨hqId, _⟩
    · rw [hqsame.recoveryScopes_eq] at hstored
      obtain ⟨hostId, payload, _, _, resolved, _, hresolved, rfl, hfree, _⟩ :=
        s.direct_admitted inventory hall hop.1 hr' hrNew hc
      obtain ⟨initial, hinitial⟩ := singleFlightScope_isSome hresolved
      have hspec := resolveDockerMutationScopeForJob_spec hresolved
      exact not_conflict_of_assert hspec.wellFormed hspec.host_listed
        (findActive_none hinitial hresolved hfree).1 hq (hall q hq) hq₀ hstored hd
    · -- the one row the step has admitted is not both
      rw [hrId] at hqId
      obtain rfl : r' = q' := Table.eq_of_key_eq hr' hq' (Option.some.inj hqId)
      rw [recoveryScopes_of_canonicalJobScope (hall.step inventory op r' hr') hc] at hstored
      cases hstored

/-- A direct request that collides with an active recovery operation is refused. -/
def RefusesDirect (s : AdmissionState) : Prop :=
  ∀ (action : DockerActionRequest) (key : Option String) (scope : DockerMutationScope),
    resolveDockerMutationScopeForJob inventory action.hostId action.payload = some scope →
    ∀ q ∈ s.base.jobs, q.status.active = true → ∀ stored, q.recoveryScopes = some stored →
    ∀ d ∈ stored.source ++ stored.target,
      dockerMutationScopesConflict (canonicalizeDockerMutationScope inventory scope)
        (canonicalizeDockerMutationScope inventory d) = true →
      ∃ error, findActiveSingleFlightJob inventory s action.hostId action.payload key none
        = .error error

/-- A recovery operation that collides with an active direct job other than an analysis is
    refused. -/
def RefusesRecovery (s : AdmissionState) : Prop :=
  ∀ (proposed : List DockerMutationScope) (recoveryClear : Bool), ∀ scope ∈ proposed,
    ∀ r ∈ s.base.jobs, r.status.active = true → r.type ≠ .deployAnalyze →
    ∀ c, canonicalJobScope inventory r = some c →
      dockerMutationScopesConflict c (canonicalizeDockerMutationScope inventory
        (conservativeRecoveryDockerMutationScope scope)) = true →
      ∃ error, lockRecoveryOperationAdmission inventory s proposed recoveryClear = .error error

theorem AdmissionState.AllRows.refusesDirect {s : AdmissionState} (hall : s.AllRows) :
    RefusesDirect inventory s := by
  intro action key scope hscope q hq hactive stored hstored d hd hconflict
  cases hfree : findActiveSingleFlightJob inventory s action.hostId action.payload key none with
  | error error => exact ⟨error, rfl⟩
  | ok found =>
    obtain ⟨initial, hinitial⟩ := singleFlightScope_isSome hscope
    have hassert : assertDockerMutationDoesNotConflictWithRecovery inventory s
        (canonicalizeDockerMutationScope inventory scope) = .ok () := by
      simp only [findActiveSingleFlightJob, hinitial, hscope, Option.map_some,
        Option.elim_some] at hfree
      split at hfree
      · cases hfree
      · assumption
    have hspec := resolveDockerMutationScopeForJob_spec hscope
    rw [not_conflict_of_assert hspec.wellFormed hspec.host_listed hassert hq (hall q hq) hactive
      hstored hd] at hconflict
    cases hconflict

theorem AdmissionState.AllRows.refusesRecovery {s : AdmissionState} (hall : s.AllRows) :
    RefusesRecovery inventory s := by
  intro proposed recoveryClear scope hscope r hr hactive htype c hc hconflict
  cases hlock : lockRecoveryOperationAdmission inventory s proposed recoveryClear with
  | error error => exact ⟨error, rfl⟩
  | ok _ =>
    rw [not_conflict_of_lock hlock hscope hr (hall r hr) hactive hc htype] at hconflict
    cases hconflict

/-- **Direct mutations and recovery operations exclude each other.**  Along every run whose
    requests spell their host ids as the database does and whose recovery operations meet no
    active analysis on their hosts, no active job collides with an active recovery operation,
    and each side is refused while the other is active. -/
theorem recovery_direct_exclusion (now : Time) (ops : List AdmissionOp)
    (hops : Meets (AdmissionState.step inventory) SeesRecovery (AdmissionState.initial now) ops) :
    let s := exec (AdmissionState.step inventory) (AdmissionState.initial now) ops
    RecoveryExclusive inventory s ∧ RefusesDirect inventory s ∧ RefusesRecovery inventory s := by
  have hinvariant := exec_invariant_of_meets
    (I := fun s : AdmissionState => s.AllRows ∧ RecoveryExclusive inventory s)
    (fun s op hop h => ⟨h.1.step inventory op, h.2.step inventory h.1 hop⟩)
    ⟨AdmissionState.allRows_initial now, fun _ hr => absurd hr (Table.not_mem_empty _)⟩ hops
  exact ⟨hinvariant.2, hinvariant.1.refusesDirect inventory, hinvariant.1.refusesRecovery inventory⟩

end

section TwoHosts

attribute [local instance] Js.asciiCaseMapping

/-- An analysis of a deployment on the second host. -/
def analyzeOnStackHost : DockerActionRequest :=
  ⟨stackHost, .deployAnalyze "44444444-4444-4444-8444-444444444444", by decide, by decide⟩

/-- A capture of the container `api` on the second host. -/
def captureOnStackHost : RecoveryRequest where
  operation := .capture stackHost "55555555-5555-4555-8555-555555555555" ⟨["api"], none, ""⟩
    ⟨["api"], [], none, none⟩
  hostId_isUuid := by decide
  targetHostId_isUuid := by decide

/-- The capture is admitted beside the analysis that is active already; the other way round
    the analysis is refused. -/
theorem analyze_then_capture_not_exclusive :
    ¬ RecoveryExclusive twoHosts (runOnTwoHosts [.enqueueJob "analyze" analyzeOnStackHost none,
        .admitRecovery "capture" captureOnStackHost true])
      ∧ (runOnTwoHosts [.admitRecovery "capture" captureOnStackHost true,
          .enqueueJob "analyze" analyzeOnStackHost none]).base.jobs.rows
        = [recoveryJobRow 0 "capture" captureOnStackHost] := by
  refine ⟨fun h => ?_, by decide +kernel⟩
  have hrows : (runOnTwoHosts [.enqueueJob "analyze" analyzeOnStackHost none,
      .admitRecovery "capture" captureOnStackHost true]).base.jobs.rows
        = [jobInsert 0 "analyze" analyzeOnStackHost none,
          recoveryJobRow 0 "capture" captureOnStackHost] := by
    decide +kernel
  have hconflict := h (jobInsert 0 "analyze" analyzeOnStackHost none)
    (Table.mem_rows.mp (hrows ▸ List.mem_cons_self)) (recoveryJobRow 0 "capture" captureOnStackHost)
    (Table.mem_rows.mp (hrows ▸ List.mem_cons_of_mem _ List.mem_cons_self)) rfl rfl _ _
    (Option.some_get (by decide +kernel)).symm rfl _
    (List.mem_append_left _ (List.mem_singleton_self _))
  revert hconflict
  decide +kernel

theorem capture_then_analyze_exclusive :
    RecoveryExclusive twoHosts (runOnTwoHosts [.admitRecovery "capture" captureOnStackHost true,
      .enqueueJob "analyze" analyzeOnStackHost none]) :=
  (recovery_direct_exclusion twoHosts 0 _ (by decide +kernel)).1

end TwoHosts

section

variable [Js.CaseMapping] (inventory : Inventory)

/-! ### Unknown outcomes -/

/-- The Docker scopes of a job: its own, or those of the recovery operation it carries out. -/
def mutationScopes (r : JobRow) : List DockerMutationScope :=
  (canonicalJobScope inventory r).toList
    ++ (r.recoveryScopes.elim [] fun stored => stored.source ++ stored.target).map
      (canonicalizeDockerMutationScope inventory)

/-- The step admits nothing that collides with a job whose remote outcome is unknown. -/
def Fenced (s : AdmissionState) (op : AdmissionOp) : Prop :=
  ∀ r' ∈ (s.step inventory op).base.jobs.rows, NewlyActive s r' →
    ∀ q ∈ s.base.jobs.rows, isUnreconciledRemoteOutcome q = true →
      ∀ d ∈ canonicalJobScope inventory q, ∀ c ∈ mutationScopes inventory r',
        dockerMutationScopesConflict c d = false

instance (s : AdmissionState) (op : AdmissionOp) : Decidable (Fenced inventory s op) := by
  unfold Fenced; infer_instance

/-- A recovery operation has no target on a host of a job whose remote outcome is unknown: not on
    the job's own host, and not on the one that a clone is for. -/
def MeetsNoUnknown (s : AdmissionState) : AdmissionOp → Prop
  | .admitRecovery _ request _ =>
      ∀ row ∈ s.base.jobs.rows, isUnreconciledRemoteOutcome row = true →
        ∀ scope ∈ request.operation.source ++ request.operation.target,
          ∀ t ∈ (conservativeRecoveryDockerMutationScope scope).targets,
            row.hostId ≠ some t.hostId ∧ (row.type = .containerClone →
              row.payload.targetHostId ≠ some t.hostId)
  | _ => True

instance (s : AdmissionState) (op : AdmissionOp) : Decidable (MeetsNoUnknown s op) := by
  cases op <;> unfold MeetsNoUnknown <;> infer_instance

/-- The condition under which admission sees every job with an unknown outcome. -/
def SeesUnknown (s : AdmissionState) (op : AdmissionOp) : Prop :=
  SpelledAsStored op ∧ MeetsNoClone inventory isUnreconciledRemoteOutcome s op
    ∧ MeetsNoUnknown s op

instance (s : AdmissionState) (op : AdmissionOp) : Decidable (SeesUnknown inventory s op) :=
  inferInstanceAs (Decidable (_ ∧ _ ∧ _))

theorem AdmissionState.AllRows.fenced {s : AdmissionState} {op : AdmissionOp} (hall : s.AllRows)
    (hop : SeesUnknown inventory s op) : Fenced inventory s op := by
  intro r' hr' hnew q hq hunknown d hd c hc
  obtain ⟨hspelled, hclone, hrecovery⟩ := hop
  rcases List.mem_append.mp hc with hdirect | hstored
  · exact s.not_conflict_of_admitted inventory hall hspelled hclone hr' hnew
      (Option.mem_toList.mp hdirect) hq hd hunknown (Or.inr hunknown)
  · obtain ⟨scope, hscope, rfl⟩ := List.mem_map.mp hstored
    cases hscopes : r'.recoveryScopes with
    | none => rw [hscopes] at hscope; cases hscope
    | some stored =>
      rw [hscopes, Option.elim_some] at hscope
      obtain ⟨id, request, recoveryClear, rfl, _, heq⟩ :=
        s.recovery_admitted inventory hall hr' hnew hscopes
      rw [heq] at hscope
      obtain ⟨scope, hproposed, rfl⟩ := List.mem_map.mp hscope
      rw [dockerMutationScopesConflict_comm]
      exact not_conflict_of_other_hosts inventory (hall q hq) hd
        (hrecovery q hq hunknown scope hproposed)

/-- Recovery admission reads the active jobs and no others. -/
theorem lockRecoveryOperationAdmission_congr {s s' : AdmissionState}
    (hjobs : s'.base.jobs.rows.filter (·.status.active) = s.base.jobs.rows.filter (·.status.active))
    (hattempts : s'.restoreAttempts = s.restoreAttempts) (proposed : List DockerMutationScope)
    (recoveryClear : Bool) :
    lockRecoveryOperationAdmission inventory s' proposed recoveryClear
      = lockRecoveryOperationAdmission inventory s proposed recoveryClear := by
  have hdirect : ∀ hostIds, activeDirectJobs s' hostIds = activeDirectJobs s hostIds := by
    intro hostIds
    have hfilter : ∀ rows : List JobRow, rows.filter (fun row => row.status.active
        && !recoveryOperationTypes.contains row.type && onHosts hostIds row)
        = (rows.filter (·.status.active)).filter
          (fun row => !recoveryOperationTypes.contains row.type && onHosts hostIds row) := by
      intro rows
      rw [List.filter_filter]
      refine List.filter_congr fun row _ => ?_
      rw [Bool.and_assoc, Bool.and_comm]
    rw [activeDirectJobs, activeDirectJobs, hfilter, hfilter, hjobs]
  have hscopes : ∀ hostIds, activeRestoreAttemptScopes s' hostIds
      = activeRestoreAttemptScopes s hostIds := by
    intro hostIds
    rw [activeRestoreAttemptScopes, activeRestoreAttemptScopes, hattempts]
  simp only [lockRecoveryOperationAdmission, hdirect, hscopes]

/-- **Unknown outcomes fence.**  Along every run whose requests spell their host ids as the
    database does, whose Compose requests meet no clone of unknown outcome from another host
    and whose recovery operations have no target on a host of a job of unknown outcome, no step
    admits what collides with such a job.  Recovery admission itself reads no failed job at all. -/
theorem unknown_outcome_fence (now : Time) (ops : List AdmissionOp)
    (hops : Meets (AdmissionState.step inventory) (SeesUnknown inventory)
      (AdmissionState.initial now) ops) :
    Meets (AdmissionState.step inventory) (Fenced inventory) (AdmissionState.initial now) ops
      ∧ ∀ (s s' : AdmissionState) (proposed : List DockerMutationScope) (recoveryClear : Bool),
        s'.base.jobs.rows.filter (·.status.active) = s.base.jobs.rows.filter (·.status.active) →
        s'.restoreAttempts = s.restoreAttempts →
        lockRecoveryOperationAdmission inventory s' proposed recoveryClear
          = lockRecoveryOperationAdmission inventory s proposed recoveryClear := by
  refine ⟨Meets.imp_of_invariant (fun _ op h => h.step inventory op)
    (fun s op hall hop => hall.fenced inventory hop) (AdmissionState.allRows_initial now) hops, ?_⟩
  intro s s' proposed recoveryClear hjobs hattempts
  exact lockRecoveryOperationAdmission_congr inventory hjobs hattempts proposed recoveryClear

end

section TwoHosts

attribute [local instance] Js.asciiCaseMapping

/-- Stopping the container `api` on the second host. -/
def stopApi : DockerActionRequest :=
  ⟨stackHost, .containerStop "api", by decide, by decide⟩

/-- A worker claims the stop and is lost. -/
def lostStop : List AdmissionOp :=
  [.enqueueJob "stop" stopApi none, .statement (.claimNextJob "worker" []),
    .statement (.advanceClock 61000000), .statement (.recoverExpiredJobs [] true)]

/-- A capture of the container whose state is unknown is admitted. -/
theorem lost_stop_then_capture_not_fenced :
    ¬ Meets (AdmissionState.step twoHosts) (Fenced twoHosts) (AdmissionState.initial 0)
      (lostStop ++ [.admitRecovery "capture" captureOnStackHost true]) := by
  decide +kernel

theorem lost_stop_then_stop_fenced :
    Meets (AdmissionState.step twoHosts) (Fenced twoHosts) (AdmissionState.initial 0)
      (lostStop ++ [.enqueueJob "again" stopApi none]) :=
  (unknown_outcome_fence twoHosts 0 _ (by decide +kernel)).1

end TwoHosts

end ComposeBastion
