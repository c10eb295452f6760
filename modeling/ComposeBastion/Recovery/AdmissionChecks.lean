import ComposeBastion.Recovery.AdmissionRows

namespace ComposeBastion

/-!
# What the admission checks guarantee

One specification lemma for each check, for rows of which `RowFacts` holds:

* `not_conflict_of_findActive` — a direct request that `findActiveSingleFlightJob` lets pass
  collides with no active job and no job with an unknown outcome, except for the container
  clones its host condition misses (`MissedClone`);
* `not_conflict_of_assert` — it collides with no active recovery operation;
* `not_conflict_of_lock` — a recovery operation that `lockRecoveryOperationAdmission` lets
  pass collides with no active direct job that `resolvedDirectDockerMutationScopes` knows.

All of them rest on `common_host`: scopes that collide have a host in common, and a row is
selected by the hosts of its scope (`RowFacts.onHosts`).
-/

section

variable [Js.CaseMapping] {inventory : Inventory}

/-! ### Rows are found by the hosts of their scopes -/

/-- Scopes that collide have a host in common. -/
theorem common_host {l r : DockerMutationScope} (hl : ∀ t ∈ l.targets, t.hostId ∈ l.hostIds)
    (hr : ∀ t ∈ r.targets, t.hostId ∈ r.hostIds)
    (h : dockerMutationScopesConflict (canonicalizeDockerMutationScope inventory l)
      (canonicalizeDockerMutationScope inventory r) = true) :
    ∃ k, k ∈ l.hostIds ∧ k ∈ r.hostIds := by
  obtain ⟨lt, hlt, rt, hrt, hconflict⟩ := dockerMutationScopesConflict_iff.mp h
  refine ⟨lt.hostId, hostId_mem_of_mem_canonicalize hl lt hlt, ?_⟩
  rw [(targetsConflict_same hconflict).1]
  exact hostId_mem_of_mem_canonicalize hr rt hrt

omit [Js.CaseMapping] in
theorem onHosts_of_mem {hostIds : List Id} {r : JobRow} {k : Id} (hk : k ∈ hostIds)
    (h : r.hostId = some (uuidText k) ∨ r.payload.targetHostId = some k) :
    onHosts hostIds r = true := by
  rcases h with hown | htarget
  · simp only [onHosts, hown, Option.any_some, Bool.or_eq_true, List.contains_eq_mem,
      List.mem_map, decide_eq_true_eq]
    exact Or.inl ⟨k, hk, rfl⟩
  · simp [onHosts, htarget, hk]

/-- A row is on each host its scope names, under the name the database has for it. -/
theorem RowFacts.located {s : AdmissionState} {r : JobRow} (h : RowFacts s r)
    {scope : DockerMutationScope}
    (hscope : resolveDockerMutationScopeForJob inventory (r.hostId.getD "") r.payload = some scope)
    {k : Id} (hk : k ∈ scope.hostIds) :
    (r.hostId = some k ∧ uuidText k = k) ∨ r.payload.targetHostId = some k := by
  obtain ⟨host, hhost, huuid, hspelled⟩ := h.host
  rw [hhost, Option.getD_some] at hscope
  rcases (resolveDockerMutationScopeForJob_spec hscope).host_of_mem k hk
    with ⟨_, rfl⟩ | rfl | ⟨target, htarget, rfl⟩
  · rw [trim_of_isUuid huuid]
    exact Or.inl ⟨hhost, hspelled⟩
  · rw [hspelled, trim_of_isUuid huuid]
    exact Or.inl ⟨hhost, hspelled⟩
  · have htarget_uuid := h.target
    rw [htarget, Option.all_some] at htarget_uuid
    rw [trim_of_isUuid htarget_uuid]
    exact Or.inr htarget

/-- The form in which the SQL conditions find the row. -/
theorem RowFacts.found {s : AdmissionState} {r : JobRow} (h : RowFacts s r)
    {scope : DockerMutationScope}
    (hscope : resolveDockerMutationScopeForJob inventory (r.hostId.getD "") r.payload = some scope)
    {k : Id} (hk : k ∈ scope.hostIds) :
    r.hostId = some (uuidText k) ∨ r.payload.targetHostId = some k := by
  rcases h.located hscope hk with ⟨hown, hspelled⟩ | htarget
  · rw [hspelled]; exact Or.inl hown
  · exact Or.inr htarget

theorem canonicalJobScope_eq_some {r : JobRow} {c : DockerMutationScope} :
    canonicalJobScope inventory r = some c ↔ ∃ scope,
      resolveDockerMutationScopeForJob inventory (r.hostId.getD "") r.payload = some scope
        ∧ canonicalizeDockerMutationScope inventory scope = c :=
  Option.map_eq_some_iff

/-- A job with a Docker scope is of a cross-target type. -/
theorem type_mem_of_canonicalJobScope {r : JobRow} {c : DockerMutationScope}
    (h : canonicalJobScope inventory r = some c) : r.type ∈ crossTargetJobTypes := by
  obtain ⟨scope, hscope, _⟩ := canonicalJobScope_eq_some.mp h
  exact (resolveDockerMutationScopeForJob_spec hscope).type_mem

/-! ### Single flight -/

/-- Every job with a Docker scope is admitted through a single-flight scope. -/
theorem singleFlightScope_isSome {hostId : Id} {payload : ActionPayload}
    {scope : DockerMutationScope}
    (h : resolveDockerMutationScopeForJob inventory hostId payload = some scope) :
    ∃ initial, singleFlightScope hostId payload = some initial := by
  cases hinitial : singleFlightScope hostId payload with
  | some initial => exact ⟨initial, rfl⟩
  | none =>
    -- only the last case of `singleFlightScope` can fail, when there is no direct scope
    unfold singleFlightScope at hinitial
    split at hinitial
    case h_8 =>
      rw [Option.map_eq_none_iff] at hinitial
      unfold resolveDockerMutationScopeForJob at h
      rw [hinitial] at h
      dsimp only at h
      split at h
      case h_6 => cases h
      all_goals simp_all
    all_goals cases hinitial

/-- The scopes with the narrow host condition are those of the Compose jobs and of registry
    trust, and their host is the requested one. -/
theorem singleFlightScope_hostId {hostId : Id} {payload : ActionPayload}
    {initial : SingleFlightScope} (h : singleFlightScope hostId payload = some initial) :
    initial.hostId = none ∨ (initial.hostId = some hostId
      ∧ (payload.stackId.isSome = true ∨ payload.type = .hostConfigureRegistryTrust)) := by
  unfold singleFlightScope at h
  split at h
  case h_8 =>
    obtain ⟨_, _, rfl⟩ := Option.map_eq_some_iff.mp h
    exact Or.inl rfl
  all_goals cases h
  · exact Or.inl rfl
  · exact Or.inl rfl
  · exact Or.inl rfl
  · exact Or.inr ⟨rfl, Or.inr rfl⟩
  · exact Or.inr ⟨rfl, Or.inl rfl⟩
  · exact Or.inr ⟨rfl, Or.inl rfl⟩
  · exact Or.inr ⟨rfl, Or.inl rfl⟩

omit [Js.CaseMapping] in
/-- The rows the host condition of a Compose request on `hostId` misses: container clones from
    another host onto this one. -/
def MissedClone (hostId : Id) (row : JobRow) : Prop :=
  row.type = .containerClone ∧ row.payload.targetHostId = some (uuidText hostId)
    ∧ row.hostId ≠ some (uuidText hostId)

instance (hostId : Id) (row : JobRow) : Decidable (MissedClone hostId row) :=
  inferInstanceAs (Decidable (_ ∧ _ ∧ _))

omit [Js.CaseMapping] in
/-- Among the cross-target types only the container clone has a second host. -/
theorem type_of_targetHostId {payload : ActionPayload} {k : Id}
    (htype : payload.type ∈ crossTargetJobTypes) (h : payload.targetHostId = some k) :
    payload.type = .containerClone := by
  cases payload <;> first
    | (cases h; done)
    | rfl
    | simp [ActionPayload.type, crossTargetJobTypes, reconcilableDockerMutationTypes] at htype

/-- **The prefilter selects what collides**, except for a missed clone. -/
theorem selects_of_conflict {s : AdmissionState} {hostId : Id} {payload : ActionPayload}
    {initial : SingleFlightScope} {resolved : DockerMutationScope} {r : JobRow}
    {c : DockerMutationScope} (huuid : isUuid hostId = true)
    (hinitial : singleFlightScope hostId payload = some initial)
    (hresolved : resolveDockerMutationScopeForJob inventory hostId payload = some resolved)
    (hr : RowFacts s r) (hc : canonicalJobScope inventory r = some c)
    (hmissed : payload.stackId.isSome = true → ¬ MissedClone hostId r)
    (hconflict : dockerMutationScopesConflict
      (canonicalizeDockerMutationScope inventory resolved) c = true) :
    (initial.resolve (some resolved)).selects r = true := by
  have hspec := resolveDockerMutationScopeForJob_spec hresolved
  obtain ⟨scope, hscope, rfl⟩ := canonicalJobScope_eq_some.mp hc
  have hrowSpec := resolveDockerMutationScopeForJob_spec hscope
  obtain ⟨k, hk, hkrow⟩ := common_host hspec.host_listed hrowSpec.host_listed hconflict
  have hlocated := hr.found hscope hkrow
  have htype : (initial.resolve (some resolved)).types.contains r.type = true := by
    simp only [SingleFlightScope.resolve, List.contains_eq_mem, List.mem_dedup, List.mem_append,
      decide_eq_true_eq]
    exact Or.inr hrowSpec.type_mem
  rw [SingleFlightScope.selects, htype, Bool.true_and]
  rcases singleFlightScope_hostId hinitial with hnone | ⟨hsome, hcompose | htrust⟩
  · simp only [SingleFlightScope.resolve, hnone, Bool.or_eq_true]
    exact Or.inr (onHosts_of_mem hk hlocated)
  · simp only [SingleFlightScope.resolve, hsome, beq_iff_eq]
    -- a Compose job has one host, that of its stack's row
    have hkhost : k = uuidText hostId := by
      have hnoTarget : payload.targetHostId = none ∧ scopeReadsHostId payload = false := by
        cases payload <;> first
          | (cases hcompose; done)
          | exact ⟨rfl, rfl⟩
      rcases hspec.host_of_mem k hk with ⟨hreads, _⟩ | rfl | ⟨target, htarget, _⟩
      · rw [hnoTarget.2] at hreads; cases hreads
      · exact trim_of_isUuid (isUuid_uuidText huuid)
      · rw [hnoTarget.1] at htarget; cases htarget
    subst hkhost
    rw [uuidText_idem] at hlocated
    by_contra hother
    rcases hlocated with hown | htarget
    · exact hother hown
    · exact hmissed hcompose
        ⟨type_of_targetHostId hrowSpec.type_mem htarget, htarget, hother⟩
  · have htrusted := hspec.type_mem
    rw [htrust] at htrusted
    exact absurd htrusted (by decide)

/-- What a request that may be inserted has passed. -/
theorem findActive_none {s : AdmissionState} {hostId : Id} {payload : ActionPayload}
    {key : Option String} {revived : Option Id} {initial : SingleFlightScope}
    {resolved : DockerMutationScope}
    (hinitial : singleFlightScope hostId payload = some initial)
    (hresolved : resolveDockerMutationScopeForJob inventory hostId payload = some resolved)
    (h : findActiveSingleFlightJob inventory s hostId payload key revived = .ok none) :
    let requested := canonicalizeDockerMutationScope inventory resolved
    assertDockerMutationDoesNotConflictWithRecovery inventory s requested = .ok ()
      ∧ activeMatch inventory s (initial.resolve (some resolved)) (some requested) = none
      ∧ ambiguousMatch inventory s (initial.resolve (some resolved)) (some requested) = none := by
  simp only [findActiveSingleFlightJob, hinitial, hresolved, Option.map_some,
    Option.elim_some] at h
  split at h
  · cases h
  · rename_i hassert
    split at h
    · split at h
      · cases h
      · split at h <;> cases h
    · rename_i hactive
      split at h
      · cases h
      · rename_i hambiguous
        exact ⟨hassert, hactive, hambiguous⟩

/-- A retried job is not the active job in its own way. -/
theorem findActive_of_retry {s : AdmissionState} {r : JobRow} (hr : r ∈ s.base.jobs)
    (hended : r.status.active = false) {found : Option JobRow}
    (h : findActiveSingleFlightJob inventory s (r.hostId.getD "") r.payload none (some r.id)
      = .ok found) : found = none := by
  simp only [findActiveSingleFlightJob] at h
  split at h
  · cases h; rfl
  · split at h
    · cases h
    · split at h
      · rename_i row hactive
        split at h
        · rename_i hrevived
          have hrow := List.find?_some hactive
          have hmem : row ∈ s.base.jobs := List.mem_of_find?_eq_some hactive
          obtain rfl : r = row := Table.eq_of_key_eq hr hmem (by simpa using hrevived)
          rw [hended] at hrow
          cases hrow
        · simp at h
      · split at h <;> cases h
        rfl

omit [Js.CaseMapping] in
/-- `LIKE` with a prefix matches what starts with it. -/
theorem likePrefix_of_isPrefixOf {pre text : List Char} (h : pre.isPrefixOf text = true) :
    likePrefix pre text = true := by
  induction pre generalizing text with
  | nil => rfl
  | cons p pre ih =>
    cases text with
    | nil => cases h
    | cons c text =>
      simp only [List.isPrefixOf, Bool.and_eq_true] at h
      simp [likePrefix, h.1, ih h.2]

omit [Js.CaseMapping] in
/-- The SQL condition on the error selects every ambiguous outcome. -/
theorem ambiguousError_of_isUnreconciled {r : JobRow} (h : isUnreconciledRemoteOutcome r = true) :
    r.status = .failed ∧ ambiguousError r.error = true := by
  simp only [isUnreconciledRemoteOutcome, isAmbiguousRemoteOutcome, Bool.and_eq_true,
    beq_iff_eq] at h
  obtain ⟨⟨hfailed, herror⟩, _⟩ := h
  refine ⟨hfailed, ?_⟩
  cases htext : r.error with
  | none => rw [htext] at herror; cases herror
  | some text =>
    rw [htext] at herror
    simp only [githubDeploymentFailureNeedsReconciliation, Option.getD_some, Js.startsWith,
      Bool.or_eq_true] at herror
    simp only [ambiguousError, Option.any_some, Bool.or_eq_true]
    exact herror.imp likePrefix_of_isPrefixOf likePrefix_of_isPrefixOf

/-- **Single flight.**  A direct request that may be inserted collides with no active job and
    with no job whose outcome is unknown, except for a clone that is missed. -/
theorem not_conflict_of_findActive {s : AdmissionState} {hostId : Id} {payload : ActionPayload}
    {key : Option String} {revived : Option Id} {resolved : DockerMutationScope} {r : JobRow}
    {c : DockerMutationScope} (huuid : isUuid hostId = true)
    (hresolved : resolveDockerMutationScopeForJob inventory hostId payload = some resolved)
    (h : findActiveSingleFlightJob inventory s hostId payload key revived = .ok none)
    (hr : r ∈ s.base.jobs) (hfacts : RowFacts s r) (hc : canonicalJobScope inventory r = some c)
    (hmissed : payload.stackId.isSome = true → ¬ MissedClone hostId r)
    (hstanding : r.status.active = true ∨ isUnreconciledRemoteOutcome r = true) :
    dockerMutationScopesConflict (canonicalizeDockerMutationScope inventory resolved) c = false := by
  obtain ⟨initial, hinitial⟩ := singleFlightScope_isSome hresolved
  obtain ⟨_, hactive, hambiguous⟩ := findActive_none hinitial hresolved h
  by_contra hconflict
  rw [Bool.not_eq_false] at hconflict
  have hmatch : (initial.resolve (some resolved)).isMatch inventory
      (some (canonicalizeDockerMutationScope inventory resolved)) r = true := by
    rw [SingleFlightScope.isMatch,
      selects_of_conflict huuid hinitial hresolved hfacts hc hmissed hconflict, Bool.true_and,
      Bool.or_eq_true]
    exact Or.inr (by simp [conflictsWith, hc, hconflict])
  rcases hstanding with hrunning | hunknown
  · have := List.find?_eq_none.mp hactive r hr
    simp [hrunning, hmatch] at this
  · obtain ⟨hfailed, herror⟩ := ambiguousError_of_isUnreconciled hunknown
    have hlisted : r ∈ (s.base.jobs.rows.filter fun row =>
        row.status == .failed && ambiguousError row.error).insertionSort
          fun a b => b.completedAt.getD 0 ≤ a.completedAt.getD 0 := by
      rw [List.mem_insertionSort, List.mem_filter]
      exact ⟨hr, by simp [hfailed, herror]⟩
    have := List.find?_eq_none.mp hambiguous r hlisted
    simp [hunknown, hmatch] at this

/-! ### Direct mutations against recovery operations -/

omit [Js.CaseMapping] in
theorem Locates.selected {s : AdmissionState} {r : JobRow} {k : Id} {hostIds : List Id}
    (hk : k ∈ hostIds) (h : Locates s r k) :
    (onHosts hostIds r || migratesOnHosts s hostIds r) = true := by
  rw [Bool.or_eq_true]
  rcases h with hown | htarget | ⟨run, hrun, hpayload, hhost⟩
  · exact Or.inl (onHosts_of_mem hk (Or.inl hown))
  · exact Or.inl (onHosts_of_mem hk (Or.inr htarget))
  · right
    have hlisted : uuidText k ∈ hostIds.map uuidText := List.mem_map_of_mem hk
    simp only [migratesOnHosts, hpayload, List.any_eq_true, Bool.and_eq_true, Bool.or_eq_true,
      List.contains_eq_mem, decide_eq_true_eq, beq_iff_eq]
    refine ⟨run, hrun, rfl, hhost.imp ?_ ?_⟩ <;> (intro heq; rw [heq]; exact hlisted)

/-- The scopes two jobs are compared by lose nothing when they are made conservative. -/
theorem covers_requested {scope : DockerMutationScope} (h : WellFormedTargets scope.targets) :
    Covers (canonicalizeDockerMutationScope inventory
        (conservativeRecoveryDockerMutationScope
          (canonicalizeDockerMutationScope inventory scope))).targets
      (canonicalizeDockerMutationScope inventory scope).targets :=
  (covers_conservative (h.canonicalize)).trans
    (Covers.of_subset fun _ ht => mem_canonicalize_of_mem inventory ht)

/-- **Recovery fences direct mutations.** -/
theorem not_conflict_of_assert {s : AdmissionState} {resolved : DockerMutationScope} {r : JobRow}
    {stored : StoredRecoveryDockerScopes} {c : DockerMutationScope}
    (hwellFormed : WellFormedTargets resolved.targets)
    (hlisted : ∀ t ∈ resolved.targets, t.hostId ∈ resolved.hostIds)
    (h : assertDockerMutationDoesNotConflictWithRecovery inventory s
      (canonicalizeDockerMutationScope inventory resolved) = .ok ())
    (hr : r ∈ s.base.jobs) (hfacts : RowFacts s r) (hactive : r.status.active = true)
    (hstored : r.recoveryScopes = some stored) (hc : c ∈ stored.source ++ stored.target) :
    dockerMutationScopesConflict (canonicalizeDockerMutationScope inventory resolved)
      (canonicalizeDockerMutationScope inventory c) = false := by
  by_contra hconflict
  rw [Bool.not_eq_false] at hconflict
  obtain ⟨htype, hscopes⟩ := hfacts.scopes stored hstored
  obtain ⟨⟨scope, rfl⟩, hlocates⟩ := hscopes c hc
  obtain ⟨k, hk, hkrow⟩ := common_host hlisted (hostId_mem_conservative scope) hconflict
  -- the row is among those the assertion reads
  have hselected : r ∈ activeRecoveryJobs s (conservativeRecoveryDockerMutationScope
      (canonicalizeDockerMutationScope inventory resolved)).hostIds := by
    have hkhosts : k ∈ (conservativeRecoveryDockerMutationScope
        (canonicalizeDockerMutationScope inventory resolved)).hostIds :=
      mem_sortedUnique.mpr (List.mem_append_left _ hk)
    rw [activeRecoveryJobs, List.mem_insertionSort, List.mem_filter]
    exact ⟨hr, by simp [hactive, htype, (hlocates k hkrow).selected hkhosts]⟩
  have hstoredScope : conservativeRecoveryDockerMutationScope
      (conservativeRecoveryDockerMutationScope scope) ∈ storedRecoveryDockerScopes r := by
    simp only [storedRecoveryDockerScopes, hstored]
    exact List.mem_map_of_mem hc
  have hfound := dockerMutationScopesConflict_of_covers (covers_requested hwellFormed)
    (covers_canonicalize_conservative inventory scope) hconflict
  simp only [assertDockerMutationDoesNotConflictWithRecovery] at h
  split at h
  · cases h
  · rename_i hnone
    refine List.find?_eq_none.mp hnone r hselected ?_
    rw [List.any_eq_true]
    exact ⟨_, hstoredScope, hfound⟩

/-! ### Recovery operations against direct mutations -/

/-- A job with a Docker scope is no recovery operation. -/
theorem recoveryScopes_of_canonicalJobScope {s : AdmissionState} {r : JobRow}
    {c : DockerMutationScope} (hfacts : RowFacts s r)
    (h : canonicalJobScope inventory r = some c) : r.recoveryScopes = none := by
  cases hstored : r.recoveryScopes with
  | none => rfl
  | some stored =>
    have hdisjoint : ∀ type ∈ crossTargetJobTypes, type ∉ fencingRecoveryTypes := by decide
    exact absurd (hfacts.scopes stored hstored).1
      (hdisjoint _ (type_mem_of_canonicalJobScope h))

/-- `resolvedDirectDockerMutationScopes` knows every direct job but the analyses. -/
theorem resolvedDirect_eq {r : JobRow} {scope : DockerMutationScope}
    (hstored : r.recoveryScopes = none) (htype : r.type ≠ .deployAnalyze)
    (h : resolveDockerMutationScopeForJob inventory (r.hostId.getD "") r.payload = some scope) :
    resolvedDirectDockerMutationScopes inventory r = [scope] := by
  have hnone : storedRecoveryDockerScopes r = [] := by simp [storedRecoveryDockerScopes, hstored]
  unfold resolveDockerMutationScopeForJob at h
  simp only [resolvedDirectDockerMutationScopes, hnone, ne_eq, not_true_eq_false, if_false]
  cases hdirect : dockerMutationScope (r.hostId.getD "") r.payload with
  | some direct =>
    simp only [hdirect, Option.some.injEq] at h ⊢
    rw [h]
  | none =>
    simp only [hdirect] at h ⊢
    split at h
    · rename_i hpayload; simp only [hpayload, h, Option.toList_some]
    · rename_i hpayload; simp only [hpayload, h, Option.toList_some]
    · rename_i hpayload; simp only [hpayload, h, Option.toList_some]
    · rename_i hpayload; exact absurd (by rw [JobRow.type, hpayload]; rfl) htype
    · rename_i hpayload; simp only [hpayload, h, Option.toList_some]
    · cases h

/-- **Direct mutations fence recovery**, but for analyses. -/
theorem not_conflict_of_lock {s : AdmissionState} {proposed : List DockerMutationScope}
    {recoveryClear : Bool} {scope : DockerMutationScope} {r : JobRow} {c : DockerMutationScope}
    (h : lockRecoveryOperationAdmission inventory s proposed recoveryClear = .ok ())
    (hscope : scope ∈ proposed) (hr : r ∈ s.base.jobs) (hfacts : RowFacts s r)
    (hactive : r.status.active = true) (hc : canonicalJobScope inventory r = some c)
    (htype : r.type ≠ .deployAnalyze) :
    dockerMutationScopesConflict c (canonicalizeDockerMutationScope inventory
      (conservativeRecoveryDockerMutationScope scope)) = false := by
  by_contra hconflict
  rw [Bool.not_eq_false] at hconflict
  have hdirect := type_mem_of_canonicalJobScope hc
  have hstored := recoveryScopes_of_canonicalJobScope hfacts hc
  obtain ⟨resolved, hresolved, rfl⟩ := canonicalJobScope_eq_some.mp hc
  obtain ⟨k, hk, hkscope⟩ := common_host (resolveDockerMutationScopeForJob_spec hresolved).host_listed
    (hostId_mem_conservative scope) hconflict
  have hselected : r ∈ activeDirectJobs s (sortedUnique
      ((proposed.map conservativeRecoveryDockerMutationScope).flatMap (·.hostIds))) := by
    have hnotRecovery : r.type ∉ recoveryOperationTypes := by
      have hdisjoint : ∀ type ∈ crossTargetJobTypes, type ∉ recoveryOperationTypes := by decide
      exact hdisjoint _ hdirect
    have hhosts : onHosts (sortedUnique
        ((proposed.map conservativeRecoveryDockerMutationScope).flatMap (·.hostIds))) r = true :=
      onHosts_of_mem (mem_sortedUnique.mpr
        (List.mem_flatMap.mpr ⟨_, List.mem_map_of_mem hscope, hkscope⟩))
        (hfacts.found hresolved hk)
    rw [activeDirectJobs, List.mem_insertionSort, List.mem_filter]
    exact ⟨hr, by simp [hactive, hnotRecovery, hhosts]⟩
  simp only [lockRecoveryOperationAdmission] at h
  split at h
  · cases h
  · split at h
    · cases h
    · rename_i hnone
      refine List.find?_eq_none.mp hnone r hselected ?_
      rw [resolvedDirect_eq hstored htype hresolved, List.any_cons, List.any_nil, Bool.or_false,
        List.any_eq_true]
      refine ⟨_, List.mem_map_of_mem (List.mem_map_of_mem hscope), ?_⟩
      rwa [dockerMutationScopesConflict_comm]

end

end ComposeBastion
