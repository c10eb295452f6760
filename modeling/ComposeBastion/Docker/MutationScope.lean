import ComposeBastion.Jobs.Model
import Mathlib.Data.List.Sort
import Mathlib.Data.List.Dedup
import Mathlib.Data.String.Basic

namespace ComposeBastion

open Js (toLowerCase)

/-!
# Docker mutation scopes

`services/dockerMutationScope.ts`: the set of Docker objects, host paths and Compose projects
an action touches, and when two such sets collide.

* `dockerMutationScope hostId payload` — the scope read off an action or a job row;
* `dockerMutationScopesConflict` — some target of the one collides with some target of the other;
* `canonicalizeDockerMutationScope` — the scope with every alias the inventory knows;
* `dockerMutationAdmissionKeys` — the advisory locks that serialise admission.

A scope is only ever extended, and only on the hosts it names: `mem_canonicalize_of_mem` and
`hostId_mem_of_mem_canonicalize` are what the admission proofs use of the canonicalisation.
-/

/-- `RECONCILABLE_DOCKER_MUTATION_TYPES`. -/
def reconcilableDockerMutationTypes : List JobType :=
  [.hostMkdir, .gitClone, .gitPull, .gitCloneDeploy, .containerRun, .containerClone,
    .containerStart, .containerStop, .containerRestart, .containerRename, .containerUpdate,
    .containerRemove, .imagePull, .imageRemove, .imagePrune, .imageCleanup, .networkCreate,
    .networkRemove, .networkPrune, .volumeCreate, .volumeRemove, .volumePrune,
    .composeDeployPath, .composeWriteDeployPath, .registryLogin]

section

variable [Js.CaseMapping]

/-! ### Targets -/

/-- `normalizedPath`. -/
def normalizedPath (value : String) : String :=
  if Js.trim value = "" then "" else Js.posixNormalize (Js.trim value)

/-- `normalizedProject`. -/
def normalizedProject (value : String) : String := toLowerCase (Js.trim value)

/-- The value `addTarget` stores for a target of the given kind. -/
def normalizedTarget : MutationTargetKind → String → String
  | .hostPath, value => normalizedPath value
  | .composeProject, value => normalizedProject value
  | _, value => Js.trim value

/-- `targets.push(target)` unless it is there. -/
def pushTarget (targets : List DockerMutationTarget) (target : DockerMutationTarget) :
    List DockerMutationTarget :=
  if target ∈ targets then targets else targets ++ [target]

/-- `addTarget`.  A host path also claims the whole host-path domain of its host. -/
def addTarget (targets : List DockerMutationTarget) (hostId : Id) (kind : MutationTargetKind)
    (value : String) : List DockerMutationTarget :=
  let normalized := normalizedTarget kind value
  if hostId = "" ∨ normalized = "" then targets
  else
    let pushed := pushTarget targets ⟨hostId, kind, normalized⟩
    if kind = .hostPath ∧ normalized ≠ "*" then pushTarget pushed ⟨hostId, .hostPath, "*"⟩
    else pushed

/-- `addTarget` for each `(kind, value)` in turn. -/
def addTargets (targets : List DockerMutationTarget) (hostId : Id)
    (values : List (MutationTargetKind × String)) : List DockerMutationTarget :=
  values.foldl (fun targets value => addTarget targets hostId value.1 value.2) targets

/-! ### The scope of an action -/

/-- The `(kind, value)` pairs a Compose deployment adds: its directory and project, and every
    resource the reviewed definition may create. -/
def composeDeploymentTargets (workingDir projectName : String) :
    List (MutationTargetKind × String) :=
  [(.hostPath, workingDir), (.composeProject, projectName), (.registryAuth, "*"),
    (.container, "*"), (.image, "*"), (.network, "*"), (.volume, "*")]

/-- `addContainerRunTargets`. -/
def containerRunTargets (image : String) (name network : Option String) (volumes : List String) :
    List (MutationTargetKind × String) :=
  [(.container, name.getD ""), (.image, image), (.network, network.getD "")]
    ++ volumes.map fun volumeName => (.volume, volumeName)

/-- The name a clone claims on its target host. -/
def cloneTargetName (containerId : String) (targetName : Option String) : String :=
  let name := Js.trim (targetName.getD "")
  if name = "" then "clone-of:" ++ Js.trim containerId else name

/-- The `switch` of `dockerMutationScope`: the targets of a mutating action on `hostId`. -/
def mutationTargets (hostId : Id) : ActionPayload → Option (List DockerMutationTarget)
  | .hostMkdir path => some (addTargets [] hostId [(.hostPath, path)])
  | .gitClone directory => some (addTargets [] hostId [(.hostPath, directory)])
  | .gitPull directory => some (addTargets [] hostId [(.hostPath, directory)])
  | .gitCloneDeploy directory projectName =>
      some (addTargets [] hostId (composeDeploymentTargets directory projectName))
  | .composeDeployPath workingDir projectName =>
      some (addTargets [] hostId (composeDeploymentTargets workingDir projectName))
  | .composeWriteDeployPath workingDir projectName =>
      some (addTargets [] hostId (composeDeploymentTargets workingDir projectName))
  | .containerRun image name network volumes =>
      some (addTargets [] hostId
        (containerRunTargets image name network volumes ++ [(.registryAuth, "*")]))
  | .containerClone targetHostId containerId targetName =>
      some (addTargets (addTargets [] hostId [(.container, containerId)]) (Js.trim targetHostId)
        [(.container, cloneTargetName containerId targetName), (.registryAuth, "*")])
  | .containerStart containerId => some (addTargets [] hostId [(.container, containerId)])
  | .containerStop containerId => some (addTargets [] hostId [(.container, containerId)])
  | .containerRestart containerId => some (addTargets [] hostId [(.container, containerId)])
  | .containerRemove containerId => some (addTargets [] hostId [(.container, containerId)])
  | .containerRename containerId name =>
      some (addTargets [] hostId [(.container, containerId), (.container, name)])
  | .containerUpdate containerId targetImage =>
      some (addTargets [] hostId
        [(.container, containerId), (.image, targetImage.getD ""), (.registryAuth, "*")])
  | .imagePull image => some (addTargets [] hostId [(.image, image), (.registryAuth, "*")])
  | .imageRemove imageId => some (addTargets [] hostId [(.image, imageId)])
  | .imageCleanup targets =>
      some (addTargets [] hostId (targets.flatMap fun target =>
        [(.image, target.imageId), (.image, target.reference.getD "")]))
  | .imagePrune => some (addTargets [] hostId [(.image, "*")])
  | .networkCreate name => some (addTargets [] hostId [(.network, name)])
  | .networkRemove networkId => some (addTargets [] hostId [(.network, networkId)])
  | .networkPrune => some (addTargets [] hostId [(.network, "*")])
  | .volumeCreate name => some (addTargets [] hostId [(.volume, name)])
  | .volumeRemove volumeName => some (addTargets [] hostId [(.volume, volumeName)])
  | .volumePrune => some (addTargets [] hostId [(.volume, "*")])
  | .registryLogin _ => some (addTargets [] hostId [(.registryAuth, "*")])
  | _ => none

/-- `[...new Set(values)].sort()`. -/
def sortedUnique (values : List String) : List String :=
  values.dedup.insertionSort (· ≤ ·)

omit [Js.CaseMapping] in
@[simp] theorem mem_sortedUnique {values : List String} {v : String} :
    v ∈ sortedUnique values ↔ v ∈ values := by
  simp [sortedUnique]

/-- `dockerMutationScope`, for the type and payload of `payload` and the host `hostId`. -/
def dockerMutationScope (hostId : Id) (payload : ActionPayload) : Option DockerMutationScope :=
  if Js.trim hostId = "" then none
  else match mutationTargets (Js.trim hostId) payload with
    | none => none
    | some targets =>
      if targets = [] then none
      else some ⟨payload.type, sortedUnique (targets.map (·.hostId)), targets⟩

/-! ### Conflicts -/

/-- `pathsOverlap`. -/
def pathsOverlap (left right : String) : Bool :=
  let leftPrefix := if Js.endsWith left "/" then left else left ++ "/"
  let rightPrefix := if Js.endsWith right "/" then right else right ++ "/"
  left == right || Js.startsWith left rightPrefix || Js.startsWith right leftPrefix

/-- `targetsConflict`. -/
def targetsConflict (left right : DockerMutationTarget) : Bool :=
  if left.hostId ≠ right.hostId ∨ left.kind ≠ right.kind then false
  else if left.value = "*" ∨ right.value = "*" then true
  else if left.kind = .hostPath then pathsOverlap left.value right.value
  else left.value == right.value

/-- `dockerMutationScopesConflict`. -/
def dockerMutationScopesConflict (left right : DockerMutationScope) : Bool :=
  left.targets.any fun leftTarget => right.targets.any (targetsConflict leftTarget)

/-- `dockerMutationAdmissionKeys`: every host domain first, then the target keys. -/
def dockerMutationAdmissionKeys (scope : DockerMutationScope) : List String :=
  sortedUnique (scope.hostIds.map ("docker-mutation-admission:" ++ ·))
    ++ sortedUnique (scope.targets.flatMap fun target =>
      match target.kind with
      | .hostPath => ["deployment-target:path:" ++ target.hostId ++ ":" ++ target.value]
      | .composeProject => ["deployment-target:project:" ++ target.hostId ++ ":" ++ target.value]
      | _ => [])

/-! ### Canonicalisation against the inventory -/

/-- `data.Labels ?? data.labels` of a snapshot: absent, Docker's `key=value,…` text, or an
    object with this entry under `com.docker.compose.project`. -/
inductive SnapshotLabels
  | absent
  | text (labels : String)
  | entry (project : Option String)
  deriving DecidableEq, Repr

/-- A row of `resource_snapshots`. -/
structure ResourceSnapshot where
  hostId : Id
  kind : MutationTargetKind
  externalId : String
  name : String
  labels : SnapshotLabels
  image : Option String
  deriving DecidableEq, Repr

/-- A row of `compose_stacks`, as far as scopes read it. -/
structure ComposeStackRow where
  id : Id
  hostId : Id
  projectName : String
  sourceWorkingDir : Option String
  deriving DecidableEq, Repr

/-- A row of `deployment_analyses`, as far as scopes read it. -/
structure DeploymentAnalysisRow where
  id : Id
  hostId : Id
  workingDir : Option String
  projectName : Option String
  deriving DecidableEq, Repr

/-- The inventory a scope is resolved against. -/
structure Inventory where
  hosts : List Id
  snapshots : List ResourceSnapshot
  composeStacks : List ComposeStackRow
  deploymentAnalyses : List DeploymentAnalysisRow

/-- `snapshotKinds`. -/
def snapshotKinds : List MutationTargetKind := [.container, .image, .network, .volume]

/-- `existingReferenceTypes`. -/
def existingReferenceTypes : List JobType :=
  [.gitPull, .containerClone, .containerStart, .containerStop, .containerRestart,
    .containerRename, .containerUpdate, .containerRemove, .imageRemove, .imageCleanup,
    .networkRemove, .volumeRemove]

/-- `futureResourceCreatingTypes`. -/
def futureResourceCreatingTypes : List JobType :=
  [.gitCloneDeploy, .composeDeployPath, .composeWriteDeployPath]

/-- The value of the first label of `key=value,…` with this key. -/
def labelValue (key : String) (labels : String) : Option String :=
  (labels.toList.splitOn ',').findSome? fun label =>
    match label.splitOn '=' with
    | [] => none
    | first :: rest =>
      if Js.trim (String.ofList first) = key then
        some (Js.trim (String.ofList (['='].intercalate rest)))
      else none

/-- `composeProjectFromSnapshot`. -/
def composeProjectFromSnapshot (row : ResourceSnapshot) : String :=
  match row.labels with
  | .absent => ""
  | .entry project => toLowerCase (Js.trim (project.getD ""))
  | .text labels => ((labelValue "com.docker.compose.project" labels).map toLowerCase).getD ""

/-- The values of the targets of one kind on one host. -/
def targetValues (targets : List DockerMutationTarget) (hostId : Id) (kind : MutationTargetKind) :
    List String :=
  (targets.filter fun target => target.hostId = hostId ∧ target.kind = kind).map (·.value)

/-- What one snapshot row that matches a target of `kind` adds. -/
def snapshotTargets (kind : MutationTargetKind) (row : ResourceSnapshot) :
    List (MutationTargetKind × String) :=
  [(kind, row.externalId), (kind, row.name)]
    ++ (if composeProjectFromSnapshot row = "" then []
        else [(.composeProject, composeProjectFromSnapshot row)])

/-- The snapshots of one kind on one host that carry one of the values as id or name. -/
def aliasRows (inventory : Inventory) (hostId : Id) (kind : MutationTargetKind)
    (values : List String) : List ResourceSnapshot :=
  inventory.snapshots.filter fun row =>
    row.hostId = uuidText hostId ∧ row.kind = kind ∧ (row.externalId ∈ values ∨ row.name ∈ values)

/-- What the targets of one kind on one host add: their aliases, and `*` when an action that
    refers to existing objects names one the inventory does not know. -/
def aliasTargets (inventory : Inventory) (type : JobType) (hostId : Id)
    (kind : MutationTargetKind) (values : List String) : List (MutationTargetKind × String) :=
  let rows := aliasRows inventory hostId kind values
  rows.flatMap (snapshotTargets kind)
    ++ if type ∈ existingReferenceTypes
          ∧ ∃ value ∈ values, ∀ row ∈ rows, value ≠ row.externalId ∧ value ≠ row.name then
        [(kind, "*")]
      else []

/-- The values of one kind on one host that name one object. -/
def namedValues (targets : List DockerMutationTarget) (hostId : Id) (kind : MutationTargetKind) :
    List String :=
  (targetValues targets hostId kind).filter (· ≠ "*")

/-- The body of the loop over `snapshotKinds`. -/
def canonicalizeKind (inventory : Inventory) (type : JobType) (hostId : Id)
    (targets : List DockerMutationTarget) (kind : MutationTargetKind) :
    List DockerMutationTarget :=
  if namedValues targets hostId kind = [] then targets
  else addTargets targets hostId
    (aliasTargets inventory type hostId kind (namedValues targets hostId kind))

/-- What one snapshot row of a Compose project adds. -/
def projectRowTargets (row : ResourceSnapshot) : List (MutationTargetKind × String) :=
  [(row.kind, row.externalId), (row.kind, row.name)]
    ++ if row.kind = .container then [(.image, row.image.getD "")] else []

/-- What one Compose project on one host adds: its resources, and every resource when none is
    known or the action may create more. -/
def projectTargets (inventory : Inventory) (type : JobType) (hostId : Id) (project : String) :
    List (MutationTargetKind × String) :=
  let rows := inventory.snapshots.filter fun row =>
    row.hostId = uuidText hostId ∧ row.kind ∈ [.container, .network, .volume]
      ∧ composeProjectFromSnapshot row = project
  rows.flatMap projectRowTargets
    ++ if rows = [] ∨ type ∈ futureResourceCreatingTypes then
        [(.container, "*"), (.image, "*"), (.network, "*"), (.volume, "*")]
      else []

/-- The body of the loop over the Compose projects. -/
def canonicalizeProject (inventory : Inventory) (type : JobType) (hostId : Id)
    (targets : List DockerMutationTarget) (project : String) : List DockerMutationTarget :=
  addTargets targets hostId (projectTargets inventory type hostId project)

/-- The body of the loop over `scope.hostIds`. -/
def canonicalizeHost (inventory : Inventory) (type : JobType)
    (targets : List DockerMutationTarget) (hostId : Id) : List DockerMutationTarget :=
  let withAliases := snapshotKinds.foldl (canonicalizeKind inventory type hostId) targets
  (targetValues withAliases hostId .composeProject).foldl
    (canonicalizeProject inventory type hostId) withAliases

/-- `canonicalizeDockerMutationScope`. -/
def canonicalizeDockerMutationScope (inventory : Inventory) (scope : DockerMutationScope) :
    DockerMutationScope :=
  { scope with
    targets := scope.hostIds.foldl (canonicalizeHost inventory scope.type) scope.targets }

/-! ### Adding targets -/

/-- A target in the form `addTarget` stores it: on some host, not blank, and not changed by
    normalising it once more.  Paths are left out: every path claims `*` as well. -/
def DockerMutationTarget.Normal (t : DockerMutationTarget) : Prop :=
  t.hostId ≠ "" ∧ t.value ≠ ""
    ∧ (t.kind ≠ .hostPath → normalizedTarget t.kind t.value = t.value)

/-- Targets built by `addTarget`: all in normal form, and each path with its host's `*`. -/
def WellFormedTargets (targets : List DockerMutationTarget) : Prop :=
  ∀ t ∈ targets, t.Normal ∧ (t.kind = .hostPath → ⟨t.hostId, .hostPath, "*"⟩ ∈ targets)

/-- `ts'` is `ts` with more targets on `hostId`. -/
structure ExtendsOn (hostId : Id) (ts ts' : List DockerMutationTarget) : Prop where
  mem : ∀ t ∈ ts, t ∈ ts'
  new : ∀ t ∈ ts', t ∈ ts ∨ t.hostId = hostId

namespace ExtendsOn

variable {hostId : Id} {ts ts' ts'' : List DockerMutationTarget}

omit [Js.CaseMapping]

theorem refl (hostId : Id) (ts : List DockerMutationTarget) : ExtendsOn hostId ts ts :=
  ⟨fun _ h => h, fun _ h => Or.inl h⟩

theorem trans (h : ExtendsOn hostId ts ts') (h' : ExtendsOn hostId ts' ts'') :
    ExtendsOn hostId ts ts'' where
  mem t ht := h'.mem t (h.mem t ht)
  new t ht := (h'.new t ht).elim (h.new t) Or.inr

/-- A loop whose body extends the targets extends them. -/
theorem foldl {β : Type*} {f : List DockerMutationTarget → β → List DockerMutationTarget}
    (hf : ∀ ts b, ExtendsOn hostId ts (f ts b)) (bs : List β) :
    ExtendsOn hostId ts (bs.foldl f ts) := by
  induction bs generalizing ts with
  | nil => exact refl hostId ts
  | cons b bs ih => exact (hf ts b).trans ih

end ExtendsOn

omit [Js.CaseMapping] in
theorem mem_pushTarget {targets : List DockerMutationTarget} {target t : DockerMutationTarget} :
    t ∈ pushTarget targets target ↔ t ∈ targets ∨ t = target := by
  unfold pushTarget
  split
  · rename_i hmem
    exact ⟨Or.inl, fun h => h.elim id fun heq => heq ▸ hmem⟩
  · simp

/-- What `addTarget` adds: the normalised value, and `*` beside a path. -/
theorem mem_addTarget {targets : List DockerMutationTarget} {hostId : Id}
    {kind : MutationTargetKind} {value : String} {t : DockerMutationTarget} :
    t ∈ addTarget targets hostId kind value ↔ t ∈ targets
      ∨ (hostId ≠ "" ∧ normalizedTarget kind value ≠ ""
        ∧ (t = ⟨hostId, kind, normalizedTarget kind value⟩
          ∨ (kind = .hostPath ∧ normalizedTarget kind value ≠ "*" ∧ t = ⟨hostId, .hostPath, "*"⟩))) := by
  unfold addTarget
  by_cases hblank : hostId = "" ∨ normalizedTarget kind value = ""
  · rw [if_pos hblank]
    refine ⟨Or.inl, fun h => h.elim id fun ⟨hhost, hvalue, _⟩ => ?_⟩
    exact absurd hblank (not_or.mpr ⟨hhost, hvalue⟩)
  · rw [if_neg hblank]
    obtain ⟨hhost, hvalue⟩ := not_or.mp hblank
    by_cases hpath : kind = .hostPath ∧ normalizedTarget kind value ≠ "*"
    · simp only [if_pos hpath, mem_pushTarget]
      tauto
    · simp only [if_neg hpath, mem_pushTarget]
      tauto

theorem extendsOn_addTarget (targets : List DockerMutationTarget) (hostId : Id)
    (kind : MutationTargetKind) (value : String) :
    ExtendsOn hostId targets (addTarget targets hostId kind value) where
  mem t ht := mem_addTarget.mpr (Or.inl ht)
  new t ht := by
    rcases mem_addTarget.mp ht with ht | ⟨_, _, rfl | ⟨_, _, rfl⟩⟩
    · exact Or.inl ht
    · exact Or.inr rfl
    · exact Or.inr rfl

theorem extendsOn_addTargets (targets : List DockerMutationTarget) (hostId : Id)
    (values : List (MutationTargetKind × String)) :
    ExtendsOn hostId targets (addTargets targets hostId values) :=
  ExtendsOn.foldl (fun ts value => extendsOn_addTarget ts hostId value.1 value.2) values

/-- What `addTarget` on `hostId` adds for one `(kind, value)`. -/
def Adds (hostId : Id) (value : MutationTargetKind × String) (t : DockerMutationTarget) : Prop :=
  hostId ≠ "" ∧ normalizedTarget value.1 value.2 ≠ ""
    ∧ (t = ⟨hostId, value.1, normalizedTarget value.1 value.2⟩
      ∨ (value.1 = .hostPath ∧ normalizedTarget value.1 value.2 ≠ "*"
        ∧ t = ⟨hostId, .hostPath, "*"⟩))

theorem mem_addTargets {targets : List DockerMutationTarget} {hostId : Id}
    {values : List (MutationTargetKind × String)} {t : DockerMutationTarget} :
    t ∈ addTargets targets hostId values ↔ t ∈ targets ∨ ∃ value ∈ values, Adds hostId value t := by
  unfold addTargets
  induction values generalizing targets with
  | nil => simp
  | cons value values ih =>
    rw [List.foldl_cons, ih, mem_addTarget]
    simp only [List.mem_cons, exists_eq_or_imp, Adds, or_assoc]

/-- Normalising twice is normalising once, paths apart. -/
theorem normalizedTarget_idem {kind : MutationTargetKind} (hkind : kind ≠ .hostPath)
    (value : String) :
    normalizedTarget kind (normalizedTarget kind value) = normalizedTarget kind value := by
  cases kind with
  | hostPath => exact absurd rfl hkind
  | composeProject =>
    show toLowerCase (Js.trim (toLowerCase (Js.trim value))) = toLowerCase (Js.trim value)
    rw [Js.CaseMapping.trim_toLowerCase, Js.CaseMapping.toLowerCase_idem]
  | _ => exact Js.trim_idem value

theorem WellFormedTargets.addTarget {targets : List DockerMutationTarget}
    (h : WellFormedTargets targets) (hostId : Id) (kind : MutationTargetKind) (value : String) :
    WellFormedTargets (addTarget targets hostId kind value) := by
  intro t ht
  rcases mem_addTarget.mp ht with hold | ⟨hhost, hvalue, rfl | ⟨_, _, rfl⟩⟩
  · obtain ⟨hnormal, hstar⟩ := h t hold
    exact ⟨hnormal, fun hpath => mem_addTarget.mpr (Or.inl (hstar hpath))⟩
  · refine ⟨⟨hhost, hvalue, fun hkind => normalizedTarget_idem hkind value⟩, fun hpath => ?_⟩
    obtain rfl : kind = .hostPath := hpath
    by_cases hstar : normalizedTarget .hostPath value = "*"
    · exact mem_addTarget.mpr (Or.inr ⟨hhost, hvalue, Or.inl (by rw [hstar])⟩)
    · exact mem_addTarget.mpr (Or.inr ⟨hhost, hvalue, Or.inr ⟨rfl, hstar, rfl⟩⟩)
  · exact ⟨⟨hhost, (by decide : ("*" : String) ≠ ""), fun hkind => absurd rfl hkind⟩,
      fun _ => ht⟩

theorem WellFormedTargets.addTargets {targets : List DockerMutationTarget}
    (h : WellFormedTargets targets) (hostId : Id) (values : List (MutationTargetKind × String)) :
    WellFormedTargets (addTargets targets hostId values) := by
  unfold ComposeBastion.addTargets
  induction values generalizing targets with
  | nil => exact h
  | cons value values ih => exact ih (h.addTarget hostId value.1 value.2)

/-! ### Which hosts a scope names -/

/-- The targets of an action are on its host or, for a clone, on its target host. -/
theorem hostId_of_mem_mutationTargets {hostId : Id} {payload : ActionPayload}
    {targets : List DockerMutationTarget} (h : mutationTargets hostId payload = some targets)
    {t : DockerMutationTarget} (ht : t ∈ targets) :
    t.hostId = hostId ∨ ∃ host, payload.targetHostId = some host ∧ t.hostId = Js.trim host := by
  have own : ∀ values, t ∈ addTargets [] hostId values → t.hostId = hostId := fun values ht =>
    ((extendsOn_addTargets [] hostId values).new t ht).elim (fun h => by cases h) id
  cases payload
  case containerClone host containerId targetName =>
    cases h
    rcases (extendsOn_addTargets _ _ _).new t ht with hsource | htarget
    · exact Or.inl (own _ hsource)
    · exact Or.inr ⟨host, rfl, htarget⟩
  all_goals first
    | (cases h; exact Or.inl (own _ ht))
    | cases h

theorem wellFormed_mutationTargets {hostId : Id} {payload : ActionPayload}
    {targets : List DockerMutationTarget} (h : mutationTargets hostId payload = some targets) :
    WellFormedTargets targets := by
  have start : WellFormedTargets [] := fun _ ht => by cases ht
  cases payload
  case containerClone => cases h; exact (start.addTargets _ _).addTargets _ _
  all_goals first
    | (cases h; exact start.addTargets _ _)
    | cases h

/-- Only the reconcilable types have a scope of their own. -/
theorem type_mem_of_mutationTargets {hostId : Id} {payload : ActionPayload}
    {targets : List DockerMutationTarget} (h : mutationTargets hostId payload = some targets) :
    payload.type ∈ reconcilableDockerMutationTypes := by
  cases payload <;> first
    | (cases h; done)
    | simp [ActionPayload.type, reconcilableDockerMutationTypes]

/-- **What a direct scope is.**  Its type is the action's, its targets are well formed, each
    is on a host the scope names, and these hosts are the action's. -/
structure DirectScope (hostId : Id) (payload : ActionPayload) (scope : DockerMutationScope) :
    Prop where
  type_mem : payload.type ∈ reconcilableDockerMutationTypes
  wellFormed : WellFormedTargets scope.targets
  host_listed : ∀ t ∈ scope.targets, t.hostId ∈ scope.hostIds
  host_of_mem : ∀ h ∈ scope.hostIds,
    h = Js.trim hostId ∨ ∃ host, payload.targetHostId = some host ∧ h = Js.trim host

theorem dockerMutationScope_spec {hostId : Id} {payload : ActionPayload}
    {scope : DockerMutationScope} (h : dockerMutationScope hostId payload = some scope) :
    DirectScope hostId payload scope := by
  unfold dockerMutationScope at h
  split at h
  · cases h
  · split at h
    · cases h
    · rename_i targets htargets
      split at h
      · cases h
      · cases h
        refine ⟨type_mem_of_mutationTargets htargets, wellFormed_mutationTargets htargets,
          fun t ht => mem_sortedUnique.mpr (List.mem_map_of_mem ht), fun h hh => ?_⟩
        obtain ⟨t, ht, rfl⟩ := List.mem_map.mp (mem_sortedUnique.mp hh)
        exact hostId_of_mem_mutationTargets htargets ht

/-! ### What canonicalisation does -/

section Canonicalize

variable (inventory : Inventory) (type : JobType) (hostId : Id)

/-- Without named values there is nothing to add. -/
theorem canonicalizeKind_eq (targets : List DockerMutationTarget) (kind : MutationTargetKind) :
    canonicalizeKind inventory type hostId targets kind = addTargets targets hostId
      (aliasTargets inventory type hostId kind (namedValues targets hostId kind)) := by
  unfold canonicalizeKind
  split
  · rename_i hnone
    simp [hnone, aliasTargets, aliasRows, addTargets]
  · rfl

theorem extendsOn_canonicalizeKind (targets : List DockerMutationTarget)
    (kind : MutationTargetKind) :
    ExtendsOn hostId targets (canonicalizeKind inventory type hostId targets kind) := by
  rw [canonicalizeKind_eq]
  exact extendsOn_addTargets targets hostId _

theorem extendsOn_canonicalizeHost (targets : List DockerMutationTarget) :
    ExtendsOn hostId targets (canonicalizeHost inventory type targets hostId) :=
  (ExtendsOn.foldl (extendsOn_canonicalizeKind inventory type hostId) snapshotKinds).trans
    (ExtendsOn.foldl (fun ts _ => extendsOn_addTargets ts hostId _) _)

/-- Without a target on the host there is nothing to resolve. -/
theorem canonicalizeHost_eq_self {targets : List DockerMutationTarget}
    (h : ∀ t ∈ targets, t.hostId ≠ hostId) :
    canonicalizeHost inventory type targets hostId = targets := by
  have hvalues : ∀ kind, targetValues targets hostId kind = [] := by
    intro kind
    rw [targetValues, List.map_eq_nil_iff, List.filter_eq_nil_iff]
    intro t ht
    simp [h t ht]
  have hkind : ∀ kind, canonicalizeKind inventory type hostId targets kind = targets := by
    intro kind
    rw [canonicalizeKind, namedValues, hvalues, if_pos List.filter_nil]
  have hkinds : snapshotKinds.foldl (canonicalizeKind inventory type hostId) targets = targets := by
    simp only [snapshotKinds, List.foldl_cons, List.foldl_nil, hkind]
  simp only [canonicalizeHost, hkinds, hvalues, List.foldl_nil]

theorem WellFormedTargets.canonicalizeHost {targets : List DockerMutationTarget}
    (h : WellFormedTargets targets) :
    WellFormedTargets (canonicalizeHost inventory type targets hostId) := by
  have hkinds : WellFormedTargets (snapshotKinds.foldl
      (canonicalizeKind inventory type hostId) targets) := by
    refine List.foldlRecOn snapshotKinds _ h fun ts hts kind _ => ?_
    rw [canonicalizeKind_eq]
    exact hts.addTargets hostId _
  exact List.foldlRecOn _ _ hkinds fun ts hts project _ => hts.addTargets hostId _

end Canonicalize

/-- Canonicalisation keeps every target. -/
theorem mem_canonicalize_of_mem (inventory : Inventory) {scope : DockerMutationScope}
    {t : DockerMutationTarget} (ht : t ∈ scope.targets) :
    t ∈ (canonicalizeDockerMutationScope inventory scope).targets := by
  show t ∈ scope.hostIds.foldl (canonicalizeHost inventory scope.type) scope.targets
  refine List.foldlRecOn _ _ ht fun ts hts hostId _ => ?_
  exact (extendsOn_canonicalizeHost inventory scope.type hostId ts).mem t hts

/-- Canonicalisation adds targets on the hosts of the scope only. -/
theorem hostId_mem_of_mem_canonicalize {inventory : Inventory} {scope : DockerMutationScope}
    (hlisted : ∀ t ∈ scope.targets, t.hostId ∈ scope.hostIds) :
    ∀ t ∈ (canonicalizeDockerMutationScope inventory scope).targets,
      t.hostId ∈ scope.hostIds := by
  show ∀ t ∈ scope.hostIds.foldl (canonicalizeHost inventory scope.type) scope.targets,
    t.hostId ∈ scope.hostIds
  refine List.foldlRecOn (motive := fun ts : List DockerMutationTarget => ∀ t ∈ ts, t.hostId ∈ scope.hostIds) _ _ hlisted
    fun ts hts hostId hmem t ht => ?_
  rcases (extendsOn_canonicalizeHost inventory scope.type hostId ts).new t ht with hold | rfl
  · exact hts t hold
  · exact hmem

/-- Canonicalisation adds targets only on hosts the scope has a target on. -/
theorem exists_target_of_mem_canonicalize {inventory : Inventory} {scope : DockerMutationScope} :
    ∀ t ∈ (canonicalizeDockerMutationScope inventory scope).targets,
      ∃ t₀ ∈ scope.targets, t₀.hostId = t.hostId := by
  show ∀ t ∈ scope.hostIds.foldl (canonicalizeHost inventory scope.type) scope.targets, _
  refine List.foldlRecOn (motive := fun ts : List DockerMutationTarget =>
    ∀ t ∈ ts, ∃ t₀ ∈ scope.targets, t₀.hostId = t.hostId) _ _ (fun t ht => ⟨t, ht, rfl⟩)
    fun ts hts hostId _ t ht => ?_
  by_cases hon : ∃ t₁ ∈ ts, t₁.hostId = hostId
  · obtain ⟨t₁, ht₁, rfl⟩ := hon
    rcases (extendsOn_canonicalizeHost inventory scope.type t₁.hostId ts).new t ht with hold | hhost
    · exact hts t hold
    · rw [hhost]; exact hts t₁ ht₁
  · push Not at hon
    rw [canonicalizeHost_eq_self inventory scope.type hostId hon] at ht
    exact hts t ht

theorem WellFormedTargets.canonicalize {inventory : Inventory} {scope : DockerMutationScope}
    (h : WellFormedTargets scope.targets) :
    WellFormedTargets (canonicalizeDockerMutationScope inventory scope).targets :=
  List.foldlRecOn _ _ h fun _ hts hostId _ => hts.canonicalizeHost inventory scope.type hostId

end

/-! ### Conflicts -/

/-- Targets that collide are on one host and of one kind. -/
theorem targetsConflict_same {l r : DockerMutationTarget} (h : targetsConflict l r = true) :
    l.hostId = r.hostId ∧ l.kind = r.kind := by
  unfold targetsConflict at h
  split at h
  · cases h
  · rename_i hsame
    push Not at hsame
    exact hsame

theorem targetsConflict_comm (l r : DockerMutationTarget) :
    targetsConflict l r = targetsConflict r l := by
  have hpaths : pathsOverlap l.value r.value = pathsOverlap r.value l.value := by
    unfold pathsOverlap
    rw [Bool.or_assoc, Bool.or_assoc, Bool.or_comm (Js.startsWith l.value _),
      Bool.beq_comm]
  unfold targetsConflict
  by_cases hsame : l.hostId = r.hostId ∧ l.kind = r.kind
  · obtain ⟨hhost, hkind⟩ := hsame
    simp only [hhost, hkind, ne_eq, not_true_eq_false, or_self, if_false, hpaths,
      or_comm (a := l.value = "*"), Bool.beq_comm (a := l.value)]
  · rw [if_pos (by tauto), if_pos (by tauto)]

theorem dockerMutationScopesConflict_iff {l r : DockerMutationScope} :
    dockerMutationScopesConflict l r = true ↔
      ∃ lt ∈ l.targets, ∃ rt ∈ r.targets, targetsConflict lt rt = true := by
  simp [dockerMutationScopesConflict]

theorem dockerMutationScopesConflict_comm (l r : DockerMutationScope) :
    dockerMutationScopesConflict l r = dockerMutationScopesConflict r l := by
  rw [Bool.eq_iff_iff, dockerMutationScopesConflict_iff, dockerMutationScopesConflict_iff]
  constructor
  · rintro ⟨lt, hlt, rt, hrt, h⟩
    exact ⟨rt, hrt, lt, hlt, by rwa [targetsConflict_comm]⟩
  · rintro ⟨rt, hrt, lt, hlt, h⟩
    exact ⟨lt, hlt, rt, hrt, by rwa [targetsConflict_comm]⟩

end ComposeBastion
