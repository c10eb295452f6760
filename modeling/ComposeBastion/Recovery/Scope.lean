import ComposeBastion.Docker.JobScope

namespace ComposeBastion

open Js (toLowerCase)

/-!
# Docker scopes of recovery operations

The scopes `recoveryOperationAdmission.ts`, `recoveryCenter.ts`, `recoveryRestorePlan.ts` and
`backups.ts` build for captures, restores, migrations and backups, and the conservative form
in which they are compared and stored.

* `conservativeRecoveryDockerMutationScope` — every target normalised again, a path with its
  host's `*`;
* `Covers` — a scope that collides with everything another one collides with;
* `covers_conservative`, `Covers.canonicalize` — normalising a scope again, and resolving its
  aliases afterwards, loses no conflict.
-/

section

variable [Js.CaseMapping]

/-! ### The conservative form -/

/-- The value the `addTarget` of recovery stores; an empty path normalises to `.`. -/
def recoveryTargetValue : MutationTargetKind → String → String
  | .hostPath, value => Js.posixNormalize (Js.trim value)
  | .composeProject, value => normalizedProject value
  | _, value => Js.trim value

/-- `addTarget` of `recoveryOperationAdmission.ts`. -/
def recoveryAddTarget (targets : List DockerMutationTarget) (hostId : Id)
    (kind : MutationTargetKind) (rawValue : String) : List DockerMutationTarget :=
  let value := recoveryTargetValue kind rawValue
  if hostId = "" ∨ value = "" ∨ (kind = .hostPath ∧ value = ".") then targets
  else
    let pushed := pushTarget targets ⟨hostId, kind, value⟩
    if kind = .hostPath ∧ value ≠ "*" then pushTarget pushed ⟨hostId, .hostPath, "*"⟩ else pushed

/-- `recoveryAddTarget` for each `(kind, value)` in turn. -/
def recoveryAddTargets (targets : List DockerMutationTarget) (hostId : Id)
    (values : List (MutationTargetKind × String)) : List DockerMutationTarget :=
  values.foldl (fun targets value => recoveryAddTarget targets hostId value.1 value.2) targets

/-- `conservativeRecoveryDockerMutationScope`. -/
def conservativeRecoveryDockerMutationScope (scope : DockerMutationScope) : DockerMutationScope :=
  let targets := scope.targets.foldl
    (fun targets target => recoveryAddTarget targets target.hostId target.kind target.value) []
  ⟨scope.type, sortedUnique (scope.hostIds ++ targets.map (·.hostId)), targets⟩

/-! ### The scopes the services build -/

/-- The parts of a `RecoveryAppIdentity` that scopes read; `fallback` is `identityFallback`. -/
structure RecoveryAppIdentity where
  containerIds : List String
  projectName : Option String
  fallback : String
  deriving DecidableEq, Repr

/-- `RecoverySourceContext`. -/
structure RecoverySourceContext where
  containerIds : List String
  volumeNames : List String
  projectName : Option String
  workingDir : Option String
  deriving DecidableEq, Repr

/-- The `(kind, value)` pairs of `buildRecoverySourceDockerMutationScope`. -/
def recoverySourceTargets (identity : RecoveryAppIdentity) (context : RecoverySourceContext) :
    List (MutationTargetKind × String) :=
  let projectName := (context.projectName <|> identity.projectName).getD ""
  let workingDir := context.workingDir.getD ""
  (context.containerIds ++ identity.containerIds).map (fun id => (.container, id))
    ++ context.volumeNames.map (fun name => (.volume, name))
    ++ (if projectName = "" then [] else [(.composeProject, projectName)])
    ++ (if workingDir = "" then [] else [(.hostPath, workingDir)])

/-- `buildRecoverySourceDockerMutationScope`.  Without any target the identity itself becomes
    a Compose project. -/
def buildRecoverySourceDockerMutationScope (hostId : Id) (identity : RecoveryAppIdentity)
    (context : RecoverySourceContext) : DockerMutationScope :=
  let targets := recoveryAddTargets [] hostId (recoverySourceTargets identity context)
  ⟨.composeDeployPath, [hostId],
    if targets = [] then
      recoveryAddTarget [] hostId .composeProject ("recovery-identity-" ++ identity.fallback)
    else targets⟩

/-- The `addTarget` of `recoveryRestorePlan.ts`, which does not add `*` to a path. -/
def restorePlanAddTarget (hostId : Id) (targets : List DockerMutationTarget)
    (value : MutationTargetKind × String) : List DockerMutationTarget :=
  let normalized := match value.1 with
    | .hostPath => Js.posixNormalize value.2
    | .composeProject => normalizedProject value.2
    | _ => Js.trim value.2
  if normalized = "" then targets else pushTarget targets ⟨hostId, value.1, normalized⟩

/-- The destinations of a restore plan. -/
structure RestorePlan where
  projectName : String
  volumes : List String
  paths : List String
  networks : List String
  containers : List String
  deriving DecidableEq, Repr

/-- The `(kind, value)` pairs of a restore plan. -/
def RestorePlan.targetValues (plan : RestorePlan) : List (MutationTargetKind × String) :=
  [(.composeProject, plan.projectName)]
    ++ plan.volumes.map (fun name => (.volume, name))
    ++ plan.paths.map (fun path => (.hostPath, path))
    ++ plan.networks.map (fun name => (.network, name))
    ++ plan.containers.map (fun name => (.container, name))

/-- `buildRecoveryRestorePlan(…).dockerMutationScope`. -/
def RestorePlan.dockerMutationScope (hostId : Id) (plan : RestorePlan) : DockerMutationScope :=
  ⟨.composeDeployPath, [hostId], plan.targetValues.foldl (restorePlanAddTarget hostId) []⟩

/-- `conservativeMigrationTargetDockerScope`, for the project name the run intends. -/
def conservativeMigrationTargetDockerScope (targetHostId : Id) (projectName : String) :
    DockerMutationScope :=
  let intendedProject := normalizedProject projectName
  ⟨.composeDeployPath, [targetHostId],
    [⟨targetHostId, .container, "*"⟩, ⟨targetHostId, .network, "*"⟩,
      ⟨targetHostId, .volume, "*"⟩, ⟨targetHostId, .hostPath, "*"⟩]
    ++ if intendedProject = "" then [] else [⟨targetHostId, .composeProject, intendedProject⟩]⟩

omit [Js.CaseMapping] in
/-- `backupDockerMutationScope`: one volume or one host path. -/
def backupDockerMutationScope (hostId : Id) (volume : Bool) (value : String) :
    DockerMutationScope :=
  ⟨if volume then .volumeCreate else .hostMkdir, [hostId],
    [⟨hostId, if volume then .volume else .hostPath, value⟩]⟩

/-- `storedRecoveryDockerScopes`: the scopes of a recovery job, source and target together. -/
def storedRecoveryDockerScopes (row : JobRow) : List DockerMutationScope :=
  match row.recoveryScopes with
  | none => []
  | some stored => (stored.source ++ stored.target).map conservativeRecoveryDockerMutationScope

/-- What `persistRecoveryDockerMutationScopes` writes. -/
def persistedRecoveryScopes (source target : List DockerMutationScope) :
    StoredRecoveryDockerScopes :=
  ⟨source.map conservativeRecoveryDockerMutationScope,
    target.map conservativeRecoveryDockerMutationScope⟩

/-! ### Covering a scope -/

/-- `t` is a target of the list, or a path whose host's `*` is. -/
def CoveredBy (ts : List DockerMutationTarget) (t : DockerMutationTarget) : Prop :=
  t ∈ ts ∨ (t.kind = .hostPath ∧ ⟨t.hostId, .hostPath, "*"⟩ ∈ ts)

/-- Every target of `ts` is covered by `ts'`. -/
def Covers (ts' ts : List DockerMutationTarget) : Prop := ∀ t ∈ ts, CoveredBy ts' t

omit [Js.CaseMapping]

theorem Covers.of_subset {ts ts' : List DockerMutationTarget} (h : ts ⊆ ts') : Covers ts' ts :=
  fun _ ht => Or.inl (h ht)

theorem Covers.trans {ts ts' ts'' : List DockerMutationTarget} (h : Covers ts' ts)
    (h' : Covers ts'' ts') : Covers ts'' ts := by
  intro t ht
  rcases h t ht with hmem | ⟨hpath, hstar⟩
  · exact h' t hmem
  · rcases h' _ hstar with hmem | ⟨_, hmem⟩
    · exact Or.inr ⟨hpath, hmem⟩
    · exact Or.inr ⟨hpath, hmem⟩

/-- **Covering keeps conflicts.** -/
theorem dockerMutationScopesConflict_of_covers {l r l' r' : DockerMutationScope}
    (hl : Covers l'.targets l.targets) (hr : Covers r'.targets r.targets)
    (h : dockerMutationScopesConflict l r = true) :
    dockerMutationScopesConflict l' r' = true := by
  obtain ⟨lt, hlt, rt, hrt, hconflict⟩ := dockerMutationScopesConflict_iff.mp h
  obtain ⟨hhost, hkind⟩ := targetsConflict_same hconflict
  have star_left : ∀ t : DockerMutationTarget, t.hostId = lt.hostId → t.kind = .hostPath →
      targetsConflict ⟨lt.hostId, .hostPath, "*"⟩ t = true := by
    intro t hthost htkind
    simp [targetsConflict, hthost, htkind]
  have star_right : ∀ t : DockerMutationTarget, t.hostId = lt.hostId → t.kind = .hostPath →
      targetsConflict t ⟨lt.hostId, .hostPath, "*"⟩ = true := by
    intro t hthost htkind
    simp [targetsConflict, hthost, htkind]
  rw [dockerMutationScopesConflict_iff]
  rcases hl lt hlt with hl' | ⟨hlpath, hlstar⟩
  · rcases hr rt hrt with hr' | ⟨hrpath, hrstar⟩
    · exact ⟨lt, hl', rt, hr', hconflict⟩
    · rw [← hhost] at hrstar
      exact ⟨lt, hl', _, hrstar, star_right lt rfl (hkind.trans hrpath)⟩
  · rcases hr rt hrt with hr' | ⟨hrpath, hrstar⟩
    · exact ⟨_, hlstar, rt, hr', star_left rt hhost.symm (hkind.symm.trans hlpath)⟩
    · rw [← hhost] at hrstar
      exact ⟨_, hlstar, _, hrstar, star_left _ rfl rfl⟩

end

section

variable [Js.CaseMapping]

/-! ### Normalising again -/

/-- Recovery normalises everything but paths as the direct actions do. -/
theorem recoveryTargetValue_eq {kind : MutationTargetKind} (hkind : kind ≠ .hostPath)
    (value : String) : recoveryTargetValue kind value = normalizedTarget kind value := by
  cases kind with
  | hostPath => exact absurd rfl hkind
  | _ => rfl

/-- What `recoveryAddTarget` adds. -/
theorem mem_recoveryAddTarget {targets : List DockerMutationTarget} {hostId : Id}
    {kind : MutationTargetKind} {value : String} {t : DockerMutationTarget} :
    t ∈ recoveryAddTarget targets hostId kind value ↔ t ∈ targets
      ∨ ((hostId ≠ "" ∧ recoveryTargetValue kind value ≠ ""
          ∧ ¬ (kind = .hostPath ∧ recoveryTargetValue kind value = "."))
        ∧ (t = ⟨hostId, kind, recoveryTargetValue kind value⟩
          ∨ (kind = .hostPath ∧ recoveryTargetValue kind value ≠ "*"
            ∧ t = ⟨hostId, .hostPath, "*"⟩))) := by
  unfold recoveryAddTarget
  by_cases hblank : hostId = "" ∨ recoveryTargetValue kind value = ""
      ∨ (kind = .hostPath ∧ recoveryTargetValue kind value = ".")
  · rw [if_pos hblank]
    tauto
  · rw [if_neg hblank]
    by_cases hpath : kind = .hostPath ∧ recoveryTargetValue kind value ≠ "*"
    · simp only [if_pos hpath, mem_pushTarget]
      tauto
    · simp only [if_neg hpath, mem_pushTarget]
      tauto

theorem WellFormedTargets.recoveryAddTarget {targets : List DockerMutationTarget}
    (h : WellFormedTargets targets) (hostId : Id) (kind : MutationTargetKind) (value : String) :
    WellFormedTargets (recoveryAddTarget targets hostId kind value) := by
  intro t ht
  rcases mem_recoveryAddTarget.mp ht with hold | ⟨⟨hhost, hvalue, hdot⟩, rfl | ⟨_, _, rfl⟩⟩
  · obtain ⟨hnormal, hstar⟩ := h t hold
    exact ⟨hnormal, fun hpath => mem_recoveryAddTarget.mpr (Or.inl (hstar hpath))⟩
  · refine ⟨⟨hhost, hvalue, fun hkind => ?_⟩, fun hpath => ?_⟩
    · rw [recoveryTargetValue_eq hkind]
      exact normalizedTarget_idem hkind value
    · obtain rfl : kind = .hostPath := hpath
      by_cases hstar : recoveryTargetValue .hostPath value = "*"
      · exact mem_recoveryAddTarget.mpr (Or.inr ⟨⟨hhost, hvalue, hdot⟩, Or.inl (by rw [hstar])⟩)
      · exact mem_recoveryAddTarget.mpr
          (Or.inr ⟨⟨hhost, hvalue, hdot⟩, Or.inr ⟨rfl, hstar, rfl⟩⟩)
  · exact ⟨⟨hhost, (by decide : ("*" : String) ≠ ""), fun hkind => absurd rfl hkind⟩,
      fun _ => ht⟩

/-- The targets of the conservative form are well formed. -/
theorem wellFormed_conservative (scope : DockerMutationScope) :
    WellFormedTargets (conservativeRecoveryDockerMutationScope scope).targets :=
  List.foldlRecOn scope.targets _ (fun _ ht => by cases ht)
    fun _ hts target _ => hts.recoveryAddTarget target.hostId target.kind target.value

/-- The conservative form names no host that the scope does not have a target on. -/
theorem hostId_of_mem_conservative {scope : DockerMutationScope} :
    ∀ t ∈ (conservativeRecoveryDockerMutationScope scope).targets,
      ∃ t₀ ∈ scope.targets, t.hostId = t₀.hostId := by
  refine List.foldlRecOn (motive := fun ts : List DockerMutationTarget =>
    ∀ t ∈ ts, ∃ t₀ ∈ scope.targets, t.hostId = t₀.hostId) scope.targets _
    (fun _ ht => by cases ht) fun ts hts target htarget t ht => ?_
  rcases mem_recoveryAddTarget.mp ht with hold | ⟨_, rfl | ⟨_, _, rfl⟩⟩
  · exact hts t hold
  · exact ⟨target, htarget, rfl⟩
  · exact ⟨target, htarget, rfl⟩

/-- Every target of the scope has been normalised and added. -/
theorem mem_conservative_of_added {scope : DockerMutationScope} {t₀ t : DockerMutationTarget}
    (ht₀ : t₀ ∈ scope.targets)
    (ht : ∀ ts, t ∈ recoveryAddTarget ts t₀.hostId t₀.kind t₀.value) :
    t ∈ (conservativeRecoveryDockerMutationScope scope).targets := by
  have grows : ∀ (rest ts : List DockerMutationTarget), t ∈ ts →
      t ∈ rest.foldl (fun targets target =>
        recoveryAddTarget targets target.hostId target.kind target.value) ts := by
    intro rest ts hmem
    exact List.foldlRecOn (motive := fun ts : List DockerMutationTarget => t ∈ ts) rest _ hmem
      fun ts hts target _ => mem_recoveryAddTarget.mpr (Or.inl hts)
  obtain ⟨front, rest, hsplit⟩ := List.append_of_mem ht₀
  show t ∈ scope.targets.foldl _ []
  rw [hsplit, List.foldl_append, List.foldl_cons]
  exact grows rest _ (ht _)

/-- **Normalising again covers.**  A well-formed scope loses nothing in its conservative form. -/
theorem covers_conservative {scope : DockerMutationScope}
    (h : WellFormedTargets scope.targets) :
    Covers (conservativeRecoveryDockerMutationScope scope).targets scope.targets := by
  intro t ht
  obtain ⟨⟨hhost, hvalue, hnormal⟩, hstar⟩ := h t ht
  by_cases hpath : t.kind = .hostPath
  · -- a path may be respelled, but its host's `*` stays
    refine Or.inr ⟨hpath, mem_conservative_of_added (hstar hpath) fun ts => ?_⟩
    have hvalue_star : recoveryTargetValue .hostPath "*" = "*" := by
      show Js.posixNormalize (Js.trim "*") = "*"
      decide
    exact mem_recoveryAddTarget.mpr (Or.inr
      ⟨⟨hhost, by rw [hvalue_star]; decide, fun h => absurd (hvalue_star.symm.trans h.2) (by decide)⟩,
        Or.inl (by rw [hvalue_star])⟩)
  · refine Or.inl (mem_conservative_of_added ht fun ts => ?_)
    have hsame : recoveryTargetValue t.kind t.value = t.value := by
      rw [recoveryTargetValue_eq hpath, hnormal hpath]
    exact mem_recoveryAddTarget.mpr (Or.inr
      ⟨⟨hhost, by rwa [hsame], fun hdot => hpath hdot.1⟩, Or.inl (by rw [hsame])⟩)

/-! ### Canonicalising what covers -/

/-- Adding more to a list that covers covers. -/
theorem Covers.addTargets {ts ts' : List DockerMutationTarget} (h : Covers ts' ts) (hostId : Id)
    {values values' : List (MutationTargetKind × String)} (hvalues : values ⊆ values') :
    Covers (addTargets ts' hostId values') (addTargets ts hostId values) := by
  intro t ht
  rcases mem_addTargets.mp ht with hold | ⟨value, hvalue, hadds⟩
  · rcases h t hold with hmem | ⟨hpath, hmem⟩
    · exact Or.inl (mem_addTargets.mpr (Or.inl hmem))
    · exact Or.inr ⟨hpath, mem_addTargets.mpr (Or.inl hmem)⟩
  · exact Or.inl (mem_addTargets.mpr (Or.inr ⟨value, hvalues hvalue, hadds⟩))

omit [Js.CaseMapping] in
theorem targetValues_subset {ts ts' : List DockerMutationTarget} (h : Covers ts' ts) (hostId : Id)
    {kind : MutationTargetKind} (hkind : kind ≠ .hostPath) :
    targetValues ts hostId kind ⊆ targetValues ts' hostId kind := by
  intro value hvalue
  simp only [targetValues, List.mem_map, List.mem_filter, decide_eq_true_eq] at hvalue ⊢
  obtain ⟨t, ⟨ht, hhost, htkind⟩, rfl⟩ := hvalue
  rcases h t ht with hmem | ⟨hpath, _⟩
  · exact ⟨t, ⟨hmem, hhost, htkind⟩, rfl⟩
  · exact absurd (htkind.symm.trans hpath) hkind

section

variable (inventory : Inventory) (type : JobType) (hostId : Id)

/-- More named values have more aliases. -/
theorem aliasTargets_subset (kind : MutationTargetKind) {values values' : List String}
    (h : values ⊆ values') :
    aliasTargets inventory type hostId kind values
      ⊆ aliasTargets inventory type hostId kind values' := by
  have hrows : aliasRows inventory hostId kind values ⊆ aliasRows inventory hostId kind values' := by
    intro row hrow
    simp only [aliasRows, List.mem_filter, decide_eq_true_eq] at hrow ⊢
    exact ⟨hrow.1, hrow.2.1, hrow.2.2.1, hrow.2.2.2.imp (h ·) (h ·)⟩
  intro value hvalue
  unfold aliasTargets at hvalue ⊢
  rcases List.mem_append.mp hvalue with halias | hstar
  · refine List.mem_append_left _ ?_
    obtain ⟨row, hrow, hmem⟩ := List.mem_flatMap.mp halias
    exact List.mem_flatMap.mpr ⟨row, hrows hrow, hmem⟩
  · refine List.mem_append_right _ ?_
    split at hstar
    · rename_i hunknown
      obtain ⟨htype, v, hv, hunmatched⟩ := hunknown
      rw [if_pos]
      · exact hstar
      · refine ⟨htype, v, h hv, fun row hrow => ?_⟩
        simp only [aliasRows, List.mem_filter, decide_eq_true_eq] at hrow
        -- a row that carries `v` was among the rows of `values`
        have hold : (row.externalId ∈ values ∨ row.name ∈ values) →
            row ∈ aliasRows inventory hostId kind values := by
          intro hcarries
          simp only [aliasRows, List.mem_filter, decide_eq_true_eq]
          exact ⟨hrow.1, hrow.2.1, hrow.2.2.1, hcarries⟩
        exact ⟨fun heq => (hunmatched row (hold (Or.inl (heq ▸ hv)))).1 heq,
          fun heq => (hunmatched row (hold (Or.inr (heq ▸ hv)))).2 heq⟩
    · cases hstar

theorem Covers.canonicalizeKind {ts ts' : List DockerMutationTarget} (h : Covers ts' ts)
    {kind : MutationTargetKind} (hkind : kind ≠ .hostPath) :
    Covers (canonicalizeKind inventory type hostId ts' kind)
      (canonicalizeKind inventory type hostId ts kind) := by
  rw [canonicalizeKind_eq, canonicalizeKind_eq]
  refine h.addTargets hostId (aliasTargets_subset inventory type hostId kind ?_)
  intro value hvalue
  simp only [namedValues, List.mem_filter] at hvalue ⊢
  exact ⟨targetValues_subset h hostId hkind hvalue.1, hvalue.2⟩

/-- The loop over the projects adds what each of them adds. -/
theorem mem_foldl_canonicalizeProject {ts : List DockerMutationTarget} {projects : List String}
    {t : DockerMutationTarget} :
    t ∈ projects.foldl (canonicalizeProject inventory type hostId) ts ↔ t ∈ ts
      ∨ ∃ project ∈ projects, ∃ value ∈ projectTargets inventory type hostId project,
        Adds hostId value t := by
  induction projects generalizing ts with
  | nil => simp
  | cons project projects ih =>
    rw [List.foldl_cons, ih, canonicalizeProject, mem_addTargets]
    simp only [List.mem_cons, exists_eq_or_imp, or_assoc]

theorem Covers.canonicalizeHost {ts ts' : List DockerMutationTarget} (h : Covers ts' ts) :
    Covers (canonicalizeHost inventory type ts' hostId)
      (canonicalizeHost inventory type ts hostId) := by
  have hkinds : ∀ (kinds : List MutationTargetKind) (ts ts' : List DockerMutationTarget),
      .hostPath ∉ kinds → Covers ts' ts →
      Covers (kinds.foldl (ComposeBastion.canonicalizeKind inventory type hostId) ts')
        (kinds.foldl (ComposeBastion.canonicalizeKind inventory type hostId) ts) := by
    intro kinds
    induction kinds with
    | nil => exact fun _ _ _ h => h
    | cons kind kinds ih =>
      intro ts ts' hnopath h
      rw [List.mem_cons, not_or] at hnopath
      exact ih _ _ hnopath.2 (h.canonicalizeKind inventory type hostId (Ne.symm hnopath.1))
  have haliases := hkinds snapshotKinds ts ts' (by decide) h
  intro t ht
  rcases (mem_foldl_canonicalizeProject inventory type hostId).mp ht
    with hold | ⟨project, hproject, value, hvalue, hadds⟩
  · rcases haliases t hold with hmem | ⟨hpath, hmem⟩
    · exact Or.inl ((mem_foldl_canonicalizeProject inventory type hostId).mpr (Or.inl hmem))
    · exact Or.inr
        ⟨hpath, (mem_foldl_canonicalizeProject inventory type hostId).mpr (Or.inl hmem)⟩
  · exact Or.inl ((mem_foldl_canonicalizeProject inventory type hostId).mpr (Or.inr
      ⟨project, targetValues_subset haliases hostId (by decide) hproject, value, hvalue, hadds⟩))

end

/-- **Canonicalising covers.**  Canonicalisation is monotone in the targets. -/
theorem Covers.canonicalize (inventory : Inventory) {scope scope' : DockerMutationScope}
    (h : Covers scope'.targets scope.targets) (htype : scope'.type = scope.type)
    (hhosts : scope'.hostIds = scope.hostIds) :
    Covers (canonicalizeDockerMutationScope inventory scope').targets
      (canonicalizeDockerMutationScope inventory scope).targets := by
  have hfold : ∀ (hosts : List Id) (ts ts' : List DockerMutationTarget), Covers ts' ts →
      Covers (hosts.foldl (ComposeBastion.canonicalizeHost inventory scope.type) ts')
        (hosts.foldl (ComposeBastion.canonicalizeHost inventory scope.type) ts) := by
    intro hosts
    induction hosts with
    | nil => exact fun _ _ h => h
    | cons host hosts ih =>
      intro ts ts' h
      rw [List.foldl_cons, List.foldl_cons]
      exact ih _ _ (h.canonicalizeHost inventory scope.type host)
  show Covers (scope'.hostIds.foldl (ComposeBastion.canonicalizeHost inventory scope'.type) scope'.targets)
    (scope.hostIds.foldl (ComposeBastion.canonicalizeHost inventory scope.type) scope.targets)
  rw [htype, hhosts]
  exact hfold _ _ _ h

omit [Js.CaseMapping] in
/-- The sorted list of a set of strings depends on the set only. -/
theorem sortedUnique_congr {xs ys : List String} (h : ∀ x, x ∈ xs ↔ x ∈ ys) :
    sortedUnique xs = sortedUnique ys := by
  have hperm : List.Perm xs.dedup ys.dedup :=
    (List.perm_ext_iff_of_nodup xs.nodup_dedup ys.nodup_dedup).mpr (by simpa using h)
  refine @List.Perm.eq_of_pairwise _ (· ≤ ·) _ _ (fun _ _ _ _ => le_antisymm)
    (List.pairwise_insertionSort _ _) (List.pairwise_insertionSort _ _) ?_
  exact ((List.perm_insertionSort _ _).trans hperm).trans (List.perm_insertionSort _ _).symm

/-- A conservative scope in conservative form, canonicalised, covers itself canonicalised. -/
theorem covers_canonicalize_conservative (inventory : Inventory) (scope : DockerMutationScope) :
    let stored := conservativeRecoveryDockerMutationScope scope
    Covers
      (canonicalizeDockerMutationScope inventory
        (conservativeRecoveryDockerMutationScope stored)).targets
      (canonicalizeDockerMutationScope inventory stored).targets := by
  intro stored
  refine (covers_conservative (wellFormed_conservative scope)).canonicalize inventory rfl ?_
  show sortedUnique (stored.hostIds ++ _) = sortedUnique (scope.hostIds ++ stored.targets.map _)
  refine sortedUnique_congr fun host => ?_
  have hstored : host ∈ stored.hostIds ↔ host ∈ scope.hostIds
      ∨ host ∈ stored.targets.map (·.hostId) := by
    show host ∈ sortedUnique _ ↔ _
    rw [mem_sortedUnique, List.mem_append]
    exact Iff.rfl
  rw [List.mem_append, List.mem_append, hstored]
  refine ⟨fun h => h.elim id fun hmem => Or.inr ?_, fun h => Or.inl h⟩
  obtain ⟨t, ht, rfl⟩ := List.mem_map.mp hmem
  obtain ⟨t₀, ht₀, heq⟩ := hostId_of_mem_conservative t ht
  exact List.mem_map.mpr ⟨t₀, ht₀, heq.symm⟩

end

end ComposeBastion
