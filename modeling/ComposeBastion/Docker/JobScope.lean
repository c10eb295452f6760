import ComposeBastion.Docker.MutationScope

namespace ComposeBastion

/-!
# The Docker mutation scope of a job

`resolveDockerMutationScopeForJob` gives every job that mutates Docker its scope: the direct
actions from their payload, the Compose and deployment jobs through the stack or analysis they
name.  `canonicalJobScope` is the scope of a job row with all its aliases, which is what two
jobs are compared by.

`JobScope` collects what admission relies on: a scope exists for the cross-target types only,
its targets are well formed, and its hosts are the job's own.
-/

/-! ### Spelling of host ids -/

theorem uuidText_idem (id : Id) : uuidText (uuidText id) = uuidText id := by
  rw [uuidText, uuidText, String.toList_ofList, List.map_map]
  exact congrArg String.ofList (List.map_congr_left fun c _ => Js.toLower_toLower c)

/-- A character of a UUID in lower case is a character of a UUID. -/
theorem toLower_hexDigit {c : Char}
    (h : (('0' ≤ c && c ≤ '9') || ('a' ≤ c && c ≤ 'f') || ('A' ≤ c && c ≤ 'F')) = true) :
    (('0' ≤ c.toLower && c.toLower ≤ '9') || ('a' ≤ c.toLower && c.toLower ≤ 'f')
      || ('A' ≤ c.toLower && c.toLower ≤ 'F')) = true := by
  have hdigits : ∀ n < 0x67, ∀ d : Char, d = Char.ofNat n →
      (('0' ≤ d && d ≤ '9') || ('a' ≤ d && d ≤ 'f') || ('A' ≤ d && d ≤ 'F')) = true →
      (('0' ≤ d.toLower && d.toLower ≤ '9') || ('a' ≤ d.toLower && d.toLower ≤ 'f')
        || ('A' ≤ d.toLower && d.toLower ≤ 'F')) = true := by
    intro n hn d hd
    subst hd
    revert n
    decide +kernel
  refine hdigits c.toNat ?_ c (Char.ofNat_toNat c).symm h
  simp only [Bool.or_eq_true, Bool.and_eq_true, decide_eq_true_eq, Char.le_def,
    UInt32.le_iff_toNat_le] at h
  have h9 : ('9' : Char).val.toNat = 0x39 := rfl
  have hf : ('f' : Char).val.toNat = 0x66 := rfl
  have hF : ('F' : Char).val.toNat = 0x46 := rfl
  show c.val.toNat < 0x67
  omega

theorem isUuid_uuidText {id : Id} (h : isUuid id = true) : isUuid (uuidText id) = true := by
  simp only [isUuid, Bool.and_eq_true, List.all_eq_true] at h ⊢
  obtain ⟨hlength, hchars⟩ := h
  refine ⟨by simpa [uuidText] using hlength, ?_⟩
  rintro ⟨c, i⟩ hmem
  simp only [uuidText, String.toList_ofList, List.mem_zipIdx_iff_getElem?, List.getElem?_map,
    Option.map_eq_some_iff] at hmem
  obtain ⟨d, hd, rfl⟩ := hmem
  have hold := hchars (d, i) (List.mem_zipIdx_iff_getElem?.mpr hd)
  dsimp only at hold ⊢
  split at hold
  · rename_i hi
    rw [if_pos hi]
    rw [beq_iff_eq.mp hold]
    decide
  · rename_i hi
    rw [if_neg hi]
    exact toLower_hexDigit hold

section

variable [Js.CaseMapping]

/-! ### Resolving the scope of a job -/

/-- `CROSS_TARGET_JOB_TYPES`. -/
def crossTargetJobTypes : List JobType :=
  reconcilableDockerMutationTypes
    ++ [.composeDeploy, .composeStop, .composeRemove, .deployAnalyze, .deployExecute]

/-- `stackRemoteDirectory`. -/
def stackRemoteDirectory (stackId : Id) : String :=
  Js.posixNormalize ("/tmp/composebastion" ++ "/" ++ stackId)

/-- The scope of a Compose job on the stack it names, if that stack is on the host. -/
def stackScope (inventory : Inventory) (hostId stackId : Id) : Option DockerMutationScope :=
  if stackId = "" ∨ hostId = "" then none
  else
    match inventory.composeStacks.find? fun stack =>
        stack.id = uuidText stackId ∧ stack.hostId = uuidText hostId with
    | none => none
    | some stack =>
      let workingDir := stack.sourceWorkingDir.getD ""
      dockerMutationScope stack.hostId (.composeDeployPath
        (if workingDir = "" then stackRemoteDirectory stack.id else workingDir) stack.projectName)

/-- The scope of a deployment on the directory and project its analysis chose. -/
def analysisScope (inventory : Inventory) (hostId analysisId : Id) : Option DockerMutationScope :=
  if analysisId = "" ∨ hostId = "" then none
  else
    match inventory.deploymentAnalyses.find? fun analysis =>
        analysis.id = uuidText analysisId ∧ analysis.hostId = uuidText hostId with
    | none => none
    | some analysis =>
      let workingDir := analysis.workingDir.getD ""
      let projectName := analysis.projectName.getD ""
      if workingDir = "" ∨ projectName = "" then none
      else dockerMutationScope analysis.hostId (.composeDeployPath workingDir projectName)

/-- `resolveDockerMutationScopeForJob`, for a request or a row with this host and payload. -/
def resolveDockerMutationScopeForJob (inventory : Inventory) (hostId : Id)
    (payload : ActionPayload) : Option DockerMutationScope :=
  match dockerMutationScope hostId payload with
  | some direct => some direct
  | none =>
    match payload with
    | .composeDeploy stackId => stackScope inventory hostId stackId
    | .composeStop stackId => stackScope inventory hostId stackId
    | .composeRemove stackId => stackScope inventory hostId stackId
    | .deployAnalyze _ =>
      if hostId = "" then none else dockerMutationScope hostId (.composeDeployPath "*" "*")
    | .deployExecute analysisId => analysisScope inventory hostId analysisId
    | _ => none

/-- The scope of a job row, canonicalised: what `dockerMutationScopesConflict` is asked about. -/
def canonicalJobScope (inventory : Inventory) (row : JobRow) : Option DockerMutationScope :=
  (resolveDockerMutationScopeForJob inventory (row.hostId.getD "") row.payload).map
    (canonicalizeDockerMutationScope inventory)

/-! ### What a resolved scope is -/

omit [Js.CaseMapping] in
/-- The jobs whose scope is read off the host id as it is spelled: the direct actions and the
    analyses.  Compose and deployment jobs take the host id of a database row. -/
def scopeReadsHostId (payload : ActionPayload) : Bool :=
  reconcilableDockerMutationTypes.contains payload.type || payload.type == .deployAnalyze

/-- What admission relies on about the scope of a job on `hostId`. -/
structure JobScope (hostId : Id) (payload : ActionPayload) (scope : DockerMutationScope) :
    Prop where
  type_mem : payload.type ∈ crossTargetJobTypes
  wellFormed : WellFormedTargets scope.targets
  host_listed : ∀ t ∈ scope.targets, t.hostId ∈ scope.hostIds
  host_of_mem : ∀ h ∈ scope.hostIds, (scopeReadsHostId payload = true ∧ h = Js.trim hostId)
    ∨ h = Js.trim (uuidText hostId)
    ∨ ∃ host, payload.targetHostId = some host ∧ h = Js.trim host

/-- A Compose deployment has one host, its own. -/
theorem jobScope_of_deployPath {hostId host : Id} {payload : ActionPayload}
    {workingDir projectName : String} {scope : DockerMutationScope}
    (hhost : (scopeReadsHostId payload = true ∧ host = hostId) ∨ host = uuidText hostId)
    (htype : payload.type ∈ crossTargetJobTypes)
    (h : dockerMutationScope host (.composeDeployPath workingDir projectName) = some scope) :
    JobScope hostId payload scope := by
  have hspec := dockerMutationScope_spec h
  refine ⟨htype, hspec.wellFormed, hspec.host_listed, fun h hh => ?_⟩
  rcases hspec.host_of_mem h hh with rfl | ⟨_, hnone, _⟩
  · rcases hhost with ⟨hreads, rfl⟩ | rfl
    · exact Or.inl ⟨hreads, rfl⟩
    · exact Or.inr (Or.inl rfl)
  · cases hnone

theorem jobScope_of_stackScope {inventory : Inventory} {hostId stackId : Id}
    {payload : ActionPayload} {scope : DockerMutationScope}
    (htype : payload.type ∈ crossTargetJobTypes)
    (h : stackScope inventory hostId stackId = some scope) : JobScope hostId payload scope := by
  unfold stackScope at h
  split at h
  · cases h
  · split at h
    · cases h
    · rename_i stack hfind
      have hstack := List.find?_some hfind
      simp only [decide_eq_true_eq] at hstack
      exact jobScope_of_deployPath (Or.inr hstack.2) htype h

theorem jobScope_of_analysisScope {inventory : Inventory} {hostId analysisId : Id}
    {payload : ActionPayload} {scope : DockerMutationScope}
    (htype : payload.type ∈ crossTargetJobTypes)
    (h : analysisScope inventory hostId analysisId = some scope) :
    JobScope hostId payload scope := by
  unfold analysisScope at h
  split at h
  · cases h
  · split at h
    · cases h
    · rename_i analysis hfind
      have hanalysis := List.find?_some hfind
      simp only [decide_eq_true_eq] at hanalysis
      dsimp only at h
      split at h
      · cases h
      · exact jobScope_of_deployPath (Or.inr hanalysis.2) htype h

/-- **What a resolved scope is.** -/
theorem resolveDockerMutationScopeForJob_spec {inventory : Inventory} {hostId : Id}
    {payload : ActionPayload} {scope : DockerMutationScope}
    (h : resolveDockerMutationScopeForJob inventory hostId payload = some scope) :
    JobScope hostId payload scope := by
  have cross : ∀ {type : JobType}, type ∈ [JobType.composeDeploy, .composeStop, .composeRemove,
      .deployAnalyze, .deployExecute] → type ∈ crossTargetJobTypes :=
    fun htype => List.mem_append_right _ htype
  unfold resolveDockerMutationScopeForJob at h
  split at h
  · rename_i direct hdirect
    cases h
    have hspec := dockerMutationScope_spec hdirect
    refine ⟨List.mem_append_left _ hspec.type_mem, hspec.wellFormed, hspec.host_listed,
      fun h hh => ?_⟩
    rcases hspec.host_of_mem h hh with hown | htarget
    · exact Or.inl ⟨by simp [scopeReadsHostId, hspec.type_mem], hown⟩
    · exact Or.inr (Or.inr htarget)
  · split at h
    · exact jobScope_of_stackScope (cross (by simp [ActionPayload.type])) h
    · exact jobScope_of_stackScope (cross (by simp [ActionPayload.type])) h
    · exact jobScope_of_stackScope (cross (by simp [ActionPayload.type])) h
    · split at h
      · cases h
      · exact jobScope_of_deployPath (Or.inl ⟨rfl, rfl⟩) (cross (by simp [ActionPayload.type])) h
    · exact jobScope_of_analysisScope (cross (by simp [ActionPayload.type])) h
    · cases h

/-- Resolving a scope does not depend on the spelling of the host id for the other jobs. -/
theorem resolve_uuidText {inventory : Inventory} {hostId : Id} {payload : ActionPayload}
    (hhost : hostId ≠ "") (h : scopeReadsHostId payload = false) :
    resolveDockerMutationScopeForJob inventory (uuidText hostId) payload
      = resolveDockerMutationScopeForJob inventory hostId payload := by
  have hhost' : uuidText hostId ≠ "" := by
    intro hempty
    apply hhost
    rw [← String.toList_inj] at hempty ⊢
    simpa [uuidText] using hempty
  have hdirect : ∀ host, dockerMutationScope host payload = none := by
    intro host
    cases hscope : dockerMutationScope host payload with
    | none => rfl
    | some scope =>
      have htype := (dockerMutationScope_spec hscope).type_mem
      simp [scopeReadsHostId, htype] at h
  unfold resolveDockerMutationScopeForJob
  rw [hdirect, hdirect]
  cases payload <;>
    simp [stackScope, analysisScope, uuidText_idem, hhost, hhost', scopeReadsHostId,
      ActionPayload.type] at h ⊢

end

end ComposeBastion
