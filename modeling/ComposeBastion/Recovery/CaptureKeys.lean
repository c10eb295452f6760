import ComposeBastion.Recovery.RemoteLedger
import ComposeBastion.Recovery.RestoreFolders
import ComposeBastion.Recovery.RestorePlan
import ComposeBastion.Recovery.StandaloneClone

namespace ComposeBastion

open Js

/-!
# The storage keys of a recovery point

`insertPreparedRecoveryPoint` of `services/recoveryCenter.ts` and `ensurePlannedArtifacts` of
`services/recoveryCapture.ts` plan the artifacts of a recovery point.  An artifact is left out if
there is one for its volume or its very path; its storage key is made of a sanitized name.

* `plannedArtifacts` — the artifacts of both;
* `kind_eq_of_storageKey_eq` — artifacts with one key are of one kind;
* `mem_volumesOf_planned`, `mem_foldersOf_planned` — the volumes and folders there are artifacts
  for;
* `storage_keys_distinct_iff` — when different artifacts have different keys.
-/

/-! ### Paths that may be captured -/

/-- `BLOCKED_BIND_MOUNT_PREFIXES`. -/
def blockedBindMountPrefixes : List String :=
  ["/etc/", "/usr/", "/bin/", "/sbin/", "/lib/", "/lib64/", "/boot/", "/dev/", "/proc/", "/sys/",
    "/run/", "/var/run/", "/var/lib/docker/", "/root/", "/snap/", "/System/", "/private/"]

/-- `BLOCKED_BIND_MOUNT_EXACT`. -/
def blockedBindMountExact : List String := ["/", "/var/run/docker.sock"]

def bindMountPolicyPath (hostPath : String) : String :=
  let normalized := normalizeBindMountPath hostPath
  let normalized :=
    if normalized = "/host_mnt" then "/"
    else if startsWith normalized "/host_mnt/" then normalizeBindMountPath (dropChars 9 normalized)
    else normalized
  if isPrivateAlias normalized then normalizeBindMountPath (dropChars 8 normalized) else normalized

def isAllowedBindMountPath (hostPath : String) : Bool :=
  let normalized := bindMountPolicyPath hostPath
  if normalized = "" || !startsWith normalized "/" || blockedBindMountExact.contains normalized then
    false
  else if normalized.toList.tails.any "..".toList.isPrefixOf then false
  else blockedBindMountPrefixes.all fun blocked =>
    normalized ++ "/" ≠ blocked && !startsWith normalized blocked

/-- `isHostPathInside`; the aliases of Docker Desktop are those of `bindMountPathAliases`. -/
def isHostPathInside (parentPath childPath : String) (dockerDesktopAliases : Bool) : Bool :=
  let aliases := fun path =>
    if dockerDesktopAliases then bindMountPathAliases path else [normalizeBindMountPath path]
  (aliases parentPath).any fun parentAlias =>
    let stripped := stripTrailingSlashes parentAlias
    let parent := if stripped = "" then "/" else stripped
    let front := if parent = "/" then "/" else parent ++ "/"
    (aliases childPath).any fun child => child = parent || startsWith child front

/-! ### What is captured -/

/-- `HostFolderArtifactRef`, and an include path in its form. -/
structure HostFolder where
  source : String
  destination : String
  readOnly : Bool
  role : Option String
  restorePath : Option String
  deriving DecidableEq, Repr

def composeWorkingDirHostFolder (workingDir : Option String) : Option HostFolder :=
  if truthy workingDir then
    let normalized := normalizeBindMountPath (workingDir.getD "")
    if !startsWith normalized "/" || !isAllowedBindMountPath normalized then none
    else some ⟨normalized, "", false, some "compose_working_dir", some normalized⟩
  else none

/-- An entry of `Mounts`. -/
structure InspectMount where
  type : String
  name : Option String
  source : Option String
  destination : Option String
  rw : Option Bool
  deriving DecidableEq, Repr

def extractVolumes (mounts : List InspectMount) : List VolumeMountRef :=
  (mounts.filter fun mount => mount.type = "volume" && truthy mount.name).map fun mount =>
    ⟨mount.name.getD "", mount.destination.getD "", mount.rw = some false⟩

def extractBindMounts (mounts : List InspectMount) : List BindMountRef :=
  ((mounts.filter fun mount => mount.type = "bind" && truthy mount.source).map fun mount =>
    (⟨mount.source.getD "", mount.destination.getD "", mount.rw = some false⟩ : BindMountRef)).filter
      fun mount => isAllowedBindMountPath mount.source

/-- `resolveAppContext`, as far as it is read for artifacts. -/
structure AppContext where
  projectName : Option String
  workingDir : Option String
  composeYaml : Option String
  env : Option String
  volumeNames : List String
  deriving DecidableEq, Repr

structure CaptureProfile where
  includePaths : List String
  excludePatterns : List String
  restorePaths : Record

/-- What the artifacts are planned of: the application when the recovery point is prepared, and
    the application, its containers and the profile when it is captured. -/
structure CaptureInput where
  prepared : AppContext
  context : AppContext
  inspects : List (List InspectMount)
  profile : Option CaptureProfile
  extraIncludePaths : List String
  dockerDesktopAliases : Bool

/-! ### Artifacts -/

/-- A planned artifact: its metadata is the volume, the folder, or the name of the project. -/
structure PlannedArtifact where
  kind : RecoveryArtifactKind
  storageKey : String
  volume : Option (String × Option String) := none
  folder : Option (HostFolder × List String) := none
  projectName : Option String := none
  deriving DecidableEq, Repr

def volumeArtifact (name : String) (destination : Option String) : PlannedArtifact where
  kind := .volume
  storageKey := artifactRelativePath (.volume name)
  volume := some (name, destination)

def folderArtifact (excludePatterns : List String) (folder : HostFolder) : PlannedArtifact where
  kind := .hostFolder
  storageKey := artifactRelativePath (.hostFolder folder.source)
  folder := some (folder, excludePatterns)

def composeArtifact (context : AppContext) : PlannedArtifact where
  kind := .composeYaml
  storageKey := "compose.yml"
  projectName := context.projectName

def envArtifact (context : AppContext) : PlannedArtifact where
  kind := .envFile
  storageKey := ".env"
  projectName := context.projectName

/-- The artifacts of `insertPreparedRecoveryPoint`. -/
def insertPreparedRecoveryPoint (context : AppContext) : List PlannedArtifact :=
  [{ kind := .metadata, storageKey := "manifest.json" }]
    ++ (if truthy context.composeYaml then [composeArtifact context] else [])
    ++ (if truthy context.env then [envArtifact context] else [])
    ++ context.volumeNames.map fun name => volumeArtifact name none

/-- The names of the volumes there are artifacts for. -/
def volumesOf (artifacts : List PlannedArtifact) : List String :=
  artifacts.filterMap fun artifact => artifact.volume.map Prod.fst

/-- The paths of the folders there are artifacts for. -/
def foldersOf (artifacts : List PlannedArtifact) : List String :=
  artifacts.filterMap fun artifact => artifact.folder.map (·.1.source)

def ensureVolume (artifacts : List PlannedArtifact) (volume : VolumeMountRef) :
    List PlannedArtifact :=
  if (volumesOf artifacts).contains volume.name then artifacts
  else artifacts ++ [volumeArtifact volume.name (some volume.destination)]

def ensureFolder (excludePatterns : List String) (artifacts : List PlannedArtifact)
    (folder : HostFolder) : List PlannedArtifact :=
  if (foldersOf artifacts).contains folder.source then artifacts
  else artifacts ++ [folderArtifact excludePatterns folder]

/-- The host folder of a bind mount. -/
def bindFolder (bind : BindMountRef) : HostFolder :=
  ⟨bind.source, bind.destination, bind.readOnly, none, none⟩

namespace CaptureInput

def excludePatterns (input : CaptureInput) : List String :=
  (input.profile.map (·.excludePatterns)).getD []

def composeFolder (input : CaptureInput) : Option HostFolder :=
  composeWorkingDirHostFolder input.context.workingDir

/-- The bind mounts of a container that are not in the folder of the Compose project. -/
def outsideBinds (input : CaptureInput) (mounts : List InspectMount) : List BindMountRef :=
  (extractBindMounts mounts).filter fun bind =>
    !input.composeFolder.any fun folder =>
      isHostPathInside folder.source bind.source input.dockerDesktopAliases

def includeFolders (input : CaptureInput) : List HostFolder :=
  (((input.profile.map (·.includePaths)).getD []) ++ input.extraIncludePaths).eraseDups.map
    fun includePath => ⟨includePath, "", false, some "manual_include",
      input.profile.bind fun profile => profile.restorePaths.get includePath⟩

end CaptureInput

/-- `ensurePlannedArtifacts`, over the artifacts there are. -/
def ensurePlannedArtifacts (input : CaptureInput) (artifacts : List PlannedArtifact) :
    List PlannedArtifact :=
  let ensureFolders := List.foldl (ensureFolder input.excludePatterns)
  let planned := ensureFolders artifacts input.composeFolder.toList
  let planned := input.inspects.foldl (fun planned mounts =>
    ensureFolders ((extractVolumes mounts).foldl ensureVolume planned)
      ((input.outsideBinds mounts).map bindFolder)) planned
  let planned := ensureFolders planned input.includeFolders
  let planned :=
    if truthy input.context.composeYaml && !artifacts.any (·.kind = .composeYaml) then
      planned ++ [composeArtifact input.context]
    else planned
  if truthy input.context.env && !artifacts.any (·.kind = .envFile) then
    planned ++ [envArtifact input.context]
  else planned

/-- The artifacts of a recovery point that is prepared and captured. -/
def plannedArtifacts (input : CaptureInput) : List PlannedArtifact :=
  ensurePlannedArtifacts input (insertPreparedRecoveryPoint input.prepared)

/-! ### Volumes and folders with an artifact -/

section
variable (artifacts : List PlannedArtifact) (name source : String)

theorem volumesOf_append (artifacts' : List PlannedArtifact) :
    volumesOf (artifacts ++ artifacts') = volumesOf artifacts ++ volumesOf artifacts' :=
  List.filterMap_append

theorem foldersOf_append (artifacts' : List PlannedArtifact) :
    foldersOf (artifacts ++ artifacts') = foldersOf artifacts ++ foldersOf artifacts' :=
  List.filterMap_append

theorem mem_volumesOf_ensureVolume (volume : VolumeMountRef) :
    name ∈ volumesOf (ensureVolume artifacts volume) ↔
      name ∈ volumesOf artifacts ∨ name = volume.name := by
  rw [ensureVolume]
  by_cases hmem : volume.name ∈ volumesOf artifacts
  · rw [if_pos (List.contains_iff_mem.mpr hmem)]
    constructor
    · exact .inl
    · rintro (h | rfl)
      · exact h
      · exact hmem
  · rw [if_neg fun h => hmem (List.contains_iff_mem.mp h), volumesOf_append, List.mem_append]
    exact or_congr_right List.mem_singleton

theorem foldersOf_ensureVolume (volume : VolumeMountRef) :
    foldersOf (ensureVolume artifacts volume) = foldersOf artifacts := by
  rw [ensureVolume]
  split
  · rfl
  · rw [foldersOf_append]
    exact List.append_nil _

theorem mem_foldersOf_ensureFolder (excludePatterns : List String) (folder : HostFolder) :
    source ∈ foldersOf (ensureFolder excludePatterns artifacts folder) ↔
      source ∈ foldersOf artifacts ∨ source = folder.source := by
  rw [ensureFolder]
  by_cases hmem : folder.source ∈ foldersOf artifacts
  · rw [if_pos (List.contains_iff_mem.mpr hmem)]
    constructor
    · exact .inl
    · rintro (h | rfl)
      · exact h
      · exact hmem
  · rw [if_neg fun h => hmem (List.contains_iff_mem.mp h), foldersOf_append, List.mem_append]
    exact or_congr_right List.mem_singleton

theorem volumesOf_ensureFolder (excludePatterns : List String) (folder : HostFolder) :
    volumesOf (ensureFolder excludePatterns artifacts folder) = volumesOf artifacts := by
  rw [ensureFolder]
  split
  · rfl
  · rw [volumesOf_append]
    exact List.append_nil _

theorem mem_volumesOf_ensureVolumes (volumes : List VolumeMountRef) :
    name ∈ volumesOf (volumes.foldl ensureVolume artifacts) ↔
      name ∈ volumesOf artifacts ∨ ∃ volume ∈ volumes, name = volume.name := by
  induction volumes generalizing artifacts with
  | nil => simp
  | cons volume volumes ih =>
    rw [List.foldl_cons, ih, mem_volumesOf_ensureVolume, List.exists_mem_cons_iff, or_assoc]

theorem foldersOf_ensureVolumes (volumes : List VolumeMountRef) :
    foldersOf (volumes.foldl ensureVolume artifacts) = foldersOf artifacts := by
  induction volumes generalizing artifacts with
  | nil => rfl
  | cons volume volumes ih => rw [List.foldl_cons, ih, foldersOf_ensureVolume]

theorem mem_foldersOf_ensureFolders (excludePatterns : List String) (folders : List HostFolder) :
    source ∈ foldersOf (folders.foldl (ensureFolder excludePatterns) artifacts) ↔
      source ∈ foldersOf artifacts ∨ ∃ folder ∈ folders, source = folder.source := by
  induction folders generalizing artifacts with
  | nil => simp
  | cons folder folders ih =>
    rw [List.foldl_cons, ih, mem_foldersOf_ensureFolder, List.exists_mem_cons_iff, or_assoc]

theorem volumesOf_ensureFolders (excludePatterns : List String) (folders : List HostFolder) :
    volumesOf (folders.foldl (ensureFolder excludePatterns) artifacts) = volumesOf artifacts := by
  induction folders generalizing artifacts with
  | nil => rfl
  | cons folder folders ih => rw [List.foldl_cons, ih, volumesOf_ensureFolder]

end

/-- One container of the loop of `ensurePlannedArtifacts`. -/
def ensureContainer (input : CaptureInput) (planned : List PlannedArtifact)
    (mounts : List InspectMount) : List PlannedArtifact :=
  ((input.outsideBinds mounts).map bindFolder).foldl (ensureFolder input.excludePatterns)
    ((extractVolumes mounts).foldl ensureVolume planned)

section
variable (input : CaptureInput) (planned : List PlannedArtifact)

theorem mem_volumesOf_ensureContainers (inspects : List (List InspectMount)) (name : String) :
    name ∈ volumesOf (inspects.foldl (ensureContainer input) planned) ↔
      name ∈ volumesOf planned ∨
        ∃ mounts ∈ inspects, ∃ volume ∈ extractVolumes mounts, name = volume.name := by
  induction inspects generalizing planned with
  | nil => simp
  | cons mounts inspects ih =>
    rw [List.foldl_cons, ih, ensureContainer, volumesOf_ensureFolders, mem_volumesOf_ensureVolumes,
      List.exists_mem_cons_iff, or_assoc]

theorem mem_foldersOf_ensureContainers (inspects : List (List InspectMount)) (source : String) :
    source ∈ foldersOf (inspects.foldl (ensureContainer input) planned) ↔
      source ∈ foldersOf planned ∨
        ∃ mounts ∈ inspects, ∃ bind ∈ input.outsideBinds mounts, source = bind.source := by
  induction inspects generalizing planned with
  | nil => simp
  | cons mounts inspects ih =>
    rw [List.foldl_cons, ih, ensureContainer, mem_foldersOf_ensureFolders, foldersOf_ensureVolumes,
      List.exists_mem_cons_iff, or_assoc]
    simp only [List.mem_map, exists_exists_and_eq_and]
    rfl

end

/-- The steps of `ensurePlannedArtifacts` that add a volume or a folder. -/
def ensureMounts (input : CaptureInput) (artifacts : List PlannedArtifact) :
    List PlannedArtifact :=
  input.includeFolders.foldl (ensureFolder input.excludePatterns)
    (input.inspects.foldl (ensureContainer input)
      (input.composeFolder.toList.foldl (ensureFolder input.excludePatterns) artifacts))

theorem ensurePlannedArtifacts_eq (input : CaptureInput) (artifacts : List PlannedArtifact) :
    ensurePlannedArtifacts input artifacts =
      ensureMounts input artifacts
        ++ (if truthy input.context.composeYaml && !artifacts.any (·.kind = .composeYaml) then
          [composeArtifact input.context] else [])
        ++ (if truthy input.context.env && !artifacts.any (·.kind = .envFile) then
          [envArtifact input.context] else []) := by
  have hadd : ∀ (p : Bool) (planned : List PlannedArtifact) (artifact : PlannedArtifact),
      (if p then planned ++ [artifact] else planned) =
        planned ++ if p then [artifact] else [] := by
    intro p planned artifact
    cases p
    · exact (List.append_nil _).symm
    · rfl
  rw [ensurePlannedArtifacts, hadd, hadd]
  rfl

/-- A volume of the application, when it was prepared or of one of its containers. -/
def CapturedVolume (input : CaptureInput) (name : String) : Prop :=
  name ∈ input.prepared.volumeNames ∨
    ∃ mounts ∈ input.inspects, ∃ volume ∈ extractVolumes mounts, name = volume.name

/-- The folder of the Compose project, a bind mount outside of it, or an include path. -/
def CapturedFolder (input : CaptureInput) (source : String) : Prop :=
  (∃ folder ∈ input.composeFolder, source = folder.source) ∨
    (∃ mounts ∈ input.inspects, ∃ bind ∈ input.outsideBinds mounts, source = bind.source) ∨
    (∃ profile ∈ input.profile, source ∈ profile.includePaths) ∨
    source ∈ input.extraIncludePaths

/-- Artifacts of the Compose file and of the environment are of no volume and no folder. -/
theorem volumesOf_composeArtifact (p : Prop) [Decidable p] (context : AppContext) :
    volumesOf (if p then [composeArtifact context] else []) = [] := by
  split <;> rfl

theorem volumesOf_envArtifact (p : Prop) [Decidable p] (context : AppContext) :
    volumesOf (if p then [envArtifact context] else []) = [] := by
  split <;> rfl

theorem foldersOf_composeArtifact (p : Prop) [Decidable p] (context : AppContext) :
    foldersOf (if p then [composeArtifact context] else []) = [] := by
  split <;> rfl

theorem foldersOf_envArtifact (p : Prop) [Decidable p] (context : AppContext) :
    foldersOf (if p then [envArtifact context] else []) = [] := by
  split <;> rfl

theorem mem_volumesOf_planned {input : CaptureInput} {name : String} :
    name ∈ volumesOf (plannedArtifacts input) ↔ CapturedVolume input name := by
  have hvolumes : ∀ names : List String,
      volumesOf (names.map fun name => volumeArtifact name none) = names := by
    intro names
    rw [volumesOf, List.filterMap_map]
    exact List.filterMap_some
  rw [plannedArtifacts, ensurePlannedArtifacts_eq, volumesOf_append, volumesOf_append,
    volumesOf_composeArtifact, volumesOf_envArtifact, List.append_nil, List.append_nil,
    ensureMounts, volumesOf_ensureFolders, mem_volumesOf_ensureContainers, volumesOf_ensureFolders,
    insertPreparedRecoveryPoint, volumesOf_append, volumesOf_append, volumesOf_append,
    volumesOf_composeArtifact, volumesOf_envArtifact, hvolumes]
  rfl

theorem mem_foldersOf_planned {input : CaptureInput} {source : String} :
    source ∈ foldersOf (plannedArtifacts input) ↔ CapturedFolder input source := by
  have hvolumes : ∀ names : List String,
      foldersOf (names.map fun name => volumeArtifact name none) = [] := by
    intro names
    rw [foldersOf, List.filterMap_map]
    exact List.filterMap_eq_nil_iff.mpr fun name _ => rfl
  have hincludes : (∃ folder ∈ input.includeFolders, source = folder.source) ↔
      (∃ profile ∈ input.profile, source ∈ profile.includePaths) ∨
        source ∈ input.extraIncludePaths := by
    have hpaths : (∃ folder ∈ input.includeFolders, source = folder.source) ↔
        source ∈ ((input.profile.map (·.includePaths)).getD []) ++ input.extraIncludePaths := by
      rw [CaptureInput.includeFolders, ← List.mem_eraseDups]
      constructor
      · rintro ⟨folder, hfolder, rfl⟩
        obtain ⟨includePath, hpath, rfl⟩ := List.mem_map.mp hfolder
        exact hpath
      · intro hpath
        exact ⟨_, List.mem_map.mpr ⟨source, hpath, rfl⟩, rfl⟩
    rw [hpaths, List.mem_append]
    cases input.profile <;> simp
  have hprepared : foldersOf (insertPreparedRecoveryPoint input.prepared) = [] := by
    rw [insertPreparedRecoveryPoint, foldersOf_append, foldersOf_append, foldersOf_append,
      foldersOf_composeArtifact, foldersOf_envArtifact, hvolumes]
    rfl
  rw [plannedArtifacts, ensurePlannedArtifacts_eq, foldersOf_append, foldersOf_append,
    foldersOf_composeArtifact, foldersOf_envArtifact, List.append_nil, List.append_nil,
    ensureMounts, mem_foldersOf_ensureFolders, mem_foldersOf_ensureContainers,
    mem_foldersOf_ensureFolders, hprepared, hincludes, CapturedFolder, or_assoc, or_assoc]
  simp only [List.not_mem_nil, false_or, Option.mem_toList]
  rfl

/-! ### Keys -/

/-- What an artifact is of: its kind, and its volume or the normalized path of its folder. -/
def PlannedArtifact.identity (artifact : PlannedArtifact) : RecoveryArtifactKind × String :=
  (artifact.kind, match artifact.volume, artifact.folder with
    | some volume, _ => volume.1
    | none, some folder => normalizeBindMountPath folder.1.source
    | none, none => "")

/-- The artifacts that are planned. -/
inductive IsPlanned : PlannedArtifact → Prop
  | metadata : IsPlanned { kind := .metadata, storageKey := "manifest.json" }
  | compose (context : AppContext) : IsPlanned (composeArtifact context)
  | env (context : AppContext) : IsPlanned (envArtifact context)
  | volume (name : String) (destination : Option String) :
    IsPlanned (volumeArtifact name destination)
  | folder (excludePatterns : List String) (folder : HostFolder) :
    IsPlanned (folderArtifact excludePatterns folder)

theorem isPlanned_insert {context : AppContext} :
    ∀ artifact ∈ insertPreparedRecoveryPoint context, IsPlanned artifact := by
  intro artifact h
  simp only [insertPreparedRecoveryPoint, List.mem_append] at h
  rcases h with ((h | h) | h) | h
  · rw [List.mem_singleton.mp h]
    exact .metadata
  · split at h
    · rw [List.mem_singleton.mp h]
      exact .compose context
    · cases h
  · split at h
    · rw [List.mem_singleton.mp h]
      exact .env context
    · cases h
  · obtain ⟨name, -, rfl⟩ := List.mem_map.mp h
    exact .volume name none

/-- A loop whose turns add planned artifacts only. -/
theorem isPlanned_foldl {α : Type} {step : List PlannedArtifact → α → List PlannedArtifact}
    (hstep : ∀ artifacts item, (∀ artifact ∈ artifacts, IsPlanned artifact) →
      ∀ artifact ∈ step artifacts item, IsPlanned artifact)
    {items : List α} {artifacts : List PlannedArtifact}
    (h : ∀ artifact ∈ artifacts, IsPlanned artifact) :
    ∀ artifact ∈ items.foldl step artifacts, IsPlanned artifact := by
  induction items generalizing artifacts with
  | nil => exact h
  | cons item items ih => exact ih (hstep artifacts item h)

theorem isPlanned_concat {artifacts : List PlannedArtifact} {added : PlannedArtifact}
    (h : ∀ artifact ∈ artifacts, IsPlanned artifact) (hadded : IsPlanned added) :
    ∀ artifact ∈ artifacts ++ [added], IsPlanned artifact := by
  intro artifact hartifact
  rcases List.mem_append.mp hartifact with hartifact | hartifact
  · exact h artifact hartifact
  · rwa [List.mem_singleton.mp hartifact]

theorem isPlanned_ensureVolume (artifacts : List PlannedArtifact) (volume : VolumeMountRef)
    (h : ∀ artifact ∈ artifacts, IsPlanned artifact) :
    ∀ artifact ∈ ensureVolume artifacts volume, IsPlanned artifact := by
  rw [ensureVolume]
  split
  · exact h
  · exact isPlanned_concat h (.volume _ _)

theorem isPlanned_ensureFolder (excludePatterns : List String) (artifacts : List PlannedArtifact)
    (folder : HostFolder) (h : ∀ artifact ∈ artifacts, IsPlanned artifact) :
    ∀ artifact ∈ ensureFolder excludePatterns artifacts folder, IsPlanned artifact := by
  rw [ensureFolder]
  split
  · exact h
  · exact isPlanned_concat h (.folder _ _)

theorem isPlanned_ensureContainer (input : CaptureInput) (artifacts : List PlannedArtifact)
    (mounts : List InspectMount) (h : ∀ artifact ∈ artifacts, IsPlanned artifact) :
    ∀ artifact ∈ ensureContainer input artifacts mounts, IsPlanned artifact :=
  isPlanned_foldl (isPlanned_ensureFolder input.excludePatterns)
    (isPlanned_foldl isPlanned_ensureVolume h)

theorem isPlanned_planned (input : CaptureInput) :
    ∀ artifact ∈ plannedArtifacts input, IsPlanned artifact := by
  intro artifact hartifact
  rw [plannedArtifacts, ensurePlannedArtifacts_eq, List.mem_append, List.mem_append] at hartifact
  rcases hartifact with (hartifact | hartifact) | hartifact
  · refine isPlanned_foldl (isPlanned_ensureFolder input.excludePatterns) ?_ artifact hartifact
    refine isPlanned_foldl (isPlanned_ensureContainer input) ?_
    exact isPlanned_foldl (isPlanned_ensureFolder input.excludePatterns) isPlanned_insert
  · split at hartifact
    · rw [List.mem_singleton.mp hartifact]
      exact .compose _
    · cases hartifact
  · split at hartifact
    · rw [List.mem_singleton.mp hartifact]
      exact .env _
    · cases hartifact

theorem sanitizeArtifactName_eq (value : String) :
    sanitizeArtifactName value = String.ofList ((replaceUnsafe value.toList).take 120) := by
  have hunits : (value.toList.flatMap fun c =>
      if c.isAlphanum || c = '_' || c = '.' || c = '-' then [c]
      else if c.toNat < 0x10000 then ['_'] else ['_', '_']) = replaceUnsafe value.toList := by
    rw [replaceUnsafe, unitChars, List.map_flatMap]
    refine List.flatMap_congr fun c _ => ?_
    rw [List.map_replicate, safeUnit]
    by_cases hc : isEngineNameChar c = true
    · rw [if_pos hc, unitCount_isEngineNameChar hc]
      exact if_pos hc
    · rw [if_neg hc, unitCount]
      refine (if_neg hc).trans ?_
      split <;> rfl
  rw [sanitizeArtifactName, hunits]

theorem sanitizeArtifactName_eq_iff {value value' : String} :
    sanitizeArtifactName value = sanitizeArtifactName value' ↔
      SameUnits 120 value.toList value'.toList := by
  rw [sanitizeArtifactName_eq, sanitizeArtifactName_eq, ← String.toList_inj, String.toList_ofList,
    String.toList_ofList, sameUnits_iff]

/-- The slashes become `_` in any case. -/
theorem replaceUnsafe_flatten (cs : List Char) :
    replaceUnsafe (cs.map flattenChar) = replaceUnsafe cs := by
  induction cs with
  | nil => rfl
  | cons c cs ih =>
    have hstep : ∀ (d : Char) (ds : List Char), replaceUnsafe (d :: ds) =
        List.replicate (unitCount d) (safeUnit d) ++ replaceUnsafe ds := by
      intro d ds
      rw [replaceUnsafe, unitChars_cons, List.map_append, List.map_replicate]
      rfl
    rw [List.map_cons, hstep, hstep, ih, flattenChar]
    split
    · next h =>
      rw [h]
      rfl
    · rfl

theorem dropSlash_toList (path : String) :
    (if startsWith path "/" then dropChars 1 path else path).toList = dropSlash path.toList := by
  rw [startsWith]
  cases hchars : path.toList with
  | nil =>
    rw [show "/".toList.isPrefixOf [] = false from rfl, if_neg (by decide), hchars]
    rfl
  | cons c cs =>
    by_cases hc : c = '/'
    · subst hc
      simp [dropChars, hchars, dropSlash]
    · have hfalse : "/".toList.isPrefixOf (c :: cs) = false := by
        rw [show "/".toList = ['/'] from rfl, List.isPrefixOf_cons_cons,
          beq_eq_false_iff_ne.mpr (Ne.symm hc)]
        rfl
      rw [hfalse, if_neg (by decide), hchars]
      simp [dropSlash, hc]

theorem bindMountArtifactName_eq (sourcePath : String) :
    bindMountArtifactName sourcePath = sanitizeArtifactName
      (String.ofList (dropSlash (normalizeBindMountPath sourcePath).toList)) := by
  simp only [bindMountArtifactName]
  rw [dropSlash_toList, sanitizeArtifactName_eq, sanitizeArtifactName_eq, String.toList_ofList,
    String.toList_ofList]
  exact congrArg _ (congrArg _ (replaceUnsafe_flatten _))

/-- The first character of the key tells the kind of a planned artifact. -/
def kindHead : RecoveryArtifactKind → Option Char
  | .metadata => some 'm'
  | .composeYaml => some 'c'
  | .envFile => some '.'
  | .volume => some 'v'
  | .hostFolder => some 'b'
  | _ => none

theorem head?_storageKey {artifact : PlannedArtifact} (h : IsPlanned artifact) :
    artifact.storageKey.toList.head? = kindHead artifact.kind := by
  cases h with
  | metadata => rfl
  | compose context =>
    show "compose.yml".toList.head? = some 'c'
    rfl
  | env context =>
    show ".env".toList.head? = some '.'
    rfl
  | volume name destination =>
    show (artifactRelativePath (.volume name)).toList.head? = _
    rw [artifactRelativePath, String.append_assoc, String.toList_append]
    rfl
  | folder excludePatterns folder =>
    show (artifactRelativePath (.hostFolder folder.source)).toList.head? = _
    rw [artifactRelativePath, String.append_assoc, String.toList_append]
    rfl

theorem kind_eq_of_storageKey_eq {artifact artifact' : PlannedArtifact} (h : IsPlanned artifact)
    (h' : IsPlanned artifact') (hkey : artifact.storageKey = artifact'.storageKey) :
    artifact.kind = artifact'.kind := by
  have hhead : kindHead artifact.kind = kindHead artifact'.kind := by
    rw [← head?_storageKey h, ← head?_storageKey h', hkey]
  cases h <;> cases h' <;> first
    | rfl
    | simp [kindHead, composeArtifact, envArtifact, volumeArtifact, folderArtifact] at hhead

/-- Two keys in one folder are equal exactly when the names agree so far. -/
theorem archive_eq_iff {folder value value' : String} :
    folder ++ sanitizeArtifactName value ++ ".tar.gz" =
        folder ++ sanitizeArtifactName value' ++ ".tar.gz" ↔
      SameUnits 120 value.toList value'.toList := by
  rw [← sanitizeArtifactName_eq_iff, ← String.toList_inj, ← String.toList_inj]
  simp only [String.toList_append, List.append_cancel_left_eq, List.append_cancel_right_eq]

theorem storageKey_volume_eq_iff {name name' : String} {destination destination' : Option String} :
    (volumeArtifact name destination).storageKey = (volumeArtifact name' destination').storageKey ↔
      SameUnits 120 name.toList name'.toList :=
  archive_eq_iff

theorem storageKey_folder_eq_iff {folder folder' : HostFolder}
    {excludePatterns excludePatterns' : List String} :
    (folderArtifact excludePatterns folder).storageKey =
        (folderArtifact excludePatterns' folder').storageKey ↔
      SameUnits 120 (dropSlash (normalizeBindMountPath folder.source).toList)
        (dropSlash (normalizeBindMountPath folder'.source).toList) := by
  show artifactRelativePath (.hostFolder _) = artifactRelativePath (.hostFolder _) ↔ _
  rw [artifactRelativePath, artifactRelativePath, bindMountArtifactName_eq,
    bindMountArtifactName_eq, archive_eq_iff, String.toList_ofList, String.toList_ofList]

@[simp] theorem identity_volumeArtifact (name : String) (destination : Option String) :
    (volumeArtifact name destination).identity = (.volume, name) := rfl

@[simp] theorem identity_folderArtifact (excludePatterns : List String) (folder : HostFolder) :
    (folderArtifact excludePatterns folder).identity =
      (.hostFolder, normalizeBindMountPath folder.source) := rfl

/-! ### Distinct keys -/

/-- No two volumes of the application agree in the first 120 units of their names, up to what
    becomes `_`. -/
def VolumesToldApart (input : CaptureInput) : Prop :=
  ∀ name name', CapturedVolume input name → CapturedVolume input name' → name ≠ name' →
    ¬ SameUnits 120 name.toList name'.toList

/-- No two folders of the application do so in their normalized paths, without the first slash. -/
def FoldersToldApart (input : CaptureInput) : Prop :=
  ∀ source source', CapturedFolder input source → CapturedFolder input source' →
    normalizeBindMountPath source ≠ normalizeBindMountPath source' →
    ¬ SameUnits 120 (dropSlash (normalizeBindMountPath source).toList)
      (dropSlash (normalizeBindMountPath source').toList)

theorem mem_volumesOf_iff {input : CaptureInput} {name : String} :
    name ∈ volumesOf (plannedArtifacts input) ↔
      ∃ destination, volumeArtifact name destination ∈ plannedArtifacts input := by
  constructor
  · intro h
    obtain ⟨artifact, hartifact, hvolume⟩ := List.mem_filterMap.mp h
    cases isPlanned_planned input artifact hartifact with
    | metadata => cases hvolume
    | compose => cases hvolume
    | env => cases hvolume
    | folder => cases hvolume
    | volume name' destination =>
      obtain rfl : name' = name := Option.some.inj hvolume
      exact ⟨destination, hartifact⟩
  · rintro ⟨destination, h⟩
    exact List.mem_filterMap.mpr ⟨_, h, rfl⟩

theorem mem_foldersOf_iff {input : CaptureInput} {source : String} :
    source ∈ foldersOf (plannedArtifacts input) ↔
      ∃ excludePatterns folder, folder.source = source ∧
        folderArtifact excludePatterns folder ∈ plannedArtifacts input := by
  constructor
  · intro h
    obtain ⟨artifact, hartifact, hfolder⟩ := List.mem_filterMap.mp h
    cases isPlanned_planned input artifact hartifact with
    | metadata => cases hfolder
    | compose => cases hfolder
    | env => cases hfolder
    | volume => cases hfolder
    | folder excludePatterns folder =>
      exact ⟨excludePatterns, folder, Option.some.inj hfolder, hartifact⟩
  · rintro ⟨excludePatterns, folder, rfl, h⟩
    exact List.mem_filterMap.mpr ⟨_, h, rfl⟩

/-- **When artifacts have keys of their own.**  For every application, its containers and every
    profile, planned artifacts of different volumes, folders or kinds have different storage keys
    if and only if the names of its volumes and the paths of its folders are told apart. -/
theorem storage_keys_distinct_iff (input : CaptureInput) :
    (∀ artifact ∈ plannedArtifacts input, ∀ artifact' ∈ plannedArtifacts input,
        artifact.identity ≠ artifact'.identity → artifact.storageKey ≠ artifact'.storageKey) ↔
      VolumesToldApart input ∧ FoldersToldApart input := by
  constructor
  · intro hdistinct
    constructor
    · intro name name' hname hname' hne hsame
      obtain ⟨destination, hartifact⟩ :=
        mem_volumesOf_iff.mp (mem_volumesOf_planned.mpr hname)
      obtain ⟨destination', hartifact'⟩ :=
        mem_volumesOf_iff.mp (mem_volumesOf_planned.mpr hname')
      refine hdistinct _ hartifact _ hartifact' ?_ (storageKey_volume_eq_iff.mpr hsame)
      rw [identity_volumeArtifact, identity_volumeArtifact]
      exact fun heq => hne (Prod.mk.inj heq).2
    · intro source source' hsource hsource' hne hsame
      obtain ⟨excludePatterns, folder, rfl, hartifact⟩ :=
        mem_foldersOf_iff.mp (mem_foldersOf_planned.mpr hsource)
      obtain ⟨excludePatterns', folder', rfl, hartifact'⟩ :=
        mem_foldersOf_iff.mp (mem_foldersOf_planned.mpr hsource')
      refine hdistinct _ hartifact _ hartifact' ?_ (storageKey_folder_eq_iff.mpr hsame)
      rw [identity_folderArtifact, identity_folderArtifact]
      exact fun heq => hne (Prod.mk.inj heq).2
  · rintro ⟨hvolumes, hfolders⟩ artifact hartifact artifact' hartifact' hne hkey
    have hplanned := isPlanned_planned input artifact hartifact
    have hplanned' := isPlanned_planned input artifact' hartifact'
    have hkind := kind_eq_of_storageKey_eq hplanned hplanned' hkey
    -- artifacts of one kind are of two volumes, of two folders, or the same
    cases hplanned with
    | metadata => cases hplanned' <;> first | exact hne rfl | cases hkind
    | compose => cases hplanned' <;> first | exact hne rfl | cases hkind
    | env => cases hplanned' <;> first | exact hne rfl | cases hkind
    | volume name destination =>
      cases hplanned' with
      | metadata => cases hkind
      | compose => cases hkind
      | env => cases hkind
      | folder => cases hkind
      | volume name' destination' =>
        rw [identity_volumeArtifact, identity_volumeArtifact] at hne
        refine hvolumes name name' ?_ ?_ (fun heq => hne (by rw [heq]))
          (storageKey_volume_eq_iff.mp hkey)
        · exact mem_volumesOf_planned.mp (mem_volumesOf_iff.mpr ⟨destination, hartifact⟩)
        · exact mem_volumesOf_planned.mp (mem_volumesOf_iff.mpr ⟨destination', hartifact'⟩)
    | folder excludePatterns folder =>
      cases hplanned' with
      | metadata => cases hkind
      | compose => cases hkind
      | env => cases hkind
      | volume => cases hkind
      | folder excludePatterns' folder' =>
        rw [identity_folderArtifact, identity_folderArtifact] at hne
        refine hfolders folder.source folder'.source ?_ ?_ (fun heq => hne (by rw [heq]))
          (storageKey_folder_eq_iff.mp hkey)
        · exact mem_foldersOf_planned.mp
            (mem_foldersOf_iff.mpr ⟨excludePatterns, folder, rfl, hartifact⟩)
        · exact mem_foldersOf_planned.mp
            (mem_foldersOf_iff.mpr ⟨excludePatterns', folder', rfl, hartifact'⟩)

/-! ### Two volumes with one key -/

/-- An application of a container with these volumes and bind mounts. -/
def captureOf (volumes binds : List String) : CaptureInput where
  prepared := ⟨none, none, none, none, []⟩
  context := ⟨none, none, none, none, []⟩
  inspects := [volumes.map (fun name => ⟨"volume", some name, none, some "/data", some true⟩)
    ++ binds.map fun source => ⟨"bind", none, some source, some "/data", some true⟩]
  profile := none
  extraIncludePaths := []
  dockerDesktopAliases := false

/-- The folders `/srv/a/b` and `/srv/a_b` are stored in one file. -/
theorem nested_folder_same_key :
    ((plannedArtifacts (captureOf [] ["/srv/a/b", "/srv/a_b"])).map (·.storageKey)) =
        ["manifest.json", "binds/srv_a_b.tar.gz", "binds/srv_a_b.tar.gz"] ∧
      ¬ ∀ input : CaptureInput, ∀ artifact ∈ plannedArtifacts input,
        ∀ artifact' ∈ plannedArtifacts input, artifact.identity ≠ artifact'.identity →
          artifact.storageKey ≠ artifact'.storageKey := by
  have hkeys : (plannedArtifacts (captureOf [] ["/srv/a/b", "/srv/a_b"])).map
      (fun artifact => (artifact.identity, artifact.storageKey)) =
        [((.metadata, ""), "manifest.json"), ((.hostFolder, "/srv/a/b"), "binds/srv_a_b.tar.gz"),
          ((.hostFolder, "/srv/a_b"), "binds/srv_a_b.tar.gz")] := by decide +kernel
  constructor
  · have hsnd := congrArg (List.map Prod.snd) hkeys
    rw [List.map_map] at hsnd
    exact hsnd
  · intro hall
    have hmem : ∀ pair ∈ (plannedArtifacts (captureOf [] ["/srv/a/b", "/srv/a_b"])).map
        (fun artifact => (artifact.identity, artifact.storageKey)),
        ∃ artifact ∈ plannedArtifacts (captureOf [] ["/srv/a/b", "/srv/a_b"]),
          (artifact.identity, artifact.storageKey) = pair := fun pair h => List.mem_map.mp h
    rw [hkeys] at hmem
    obtain ⟨nested, hnested, heq⟩ := hmem ((.hostFolder, "/srv/a/b"), "binds/srv_a_b.tar.gz")
      (by simp)
    obtain ⟨flat, hflat, heq'⟩ := hmem ((.hostFolder, "/srv/a_b"), "binds/srv_a_b.tar.gz")
      (by simp)
    obtain ⟨hid, hkey⟩ := Prod.mk.inj heq
    obtain ⟨hid', hkey'⟩ := Prod.mk.inj heq'
    refine hall _ nested hnested flat hflat ?_ (hkey.trans hkey'.symm)
    rw [hid, hid']
    decide

end ComposeBastion
