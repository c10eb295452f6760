import ComposeBastion.Js.Paths
import ComposeBastion.Recovery.BindMounts
import ComposeBastion.Lib.ShellWords

namespace ComposeBastion

open Js

/-!
# Standalone clones

`services/recoveryRestore.ts` and `services/recoveryRestoreUtils.ts`: the containers of a captured
application are created again, beside the application, with storage that was restored for them.

* `ContainerManifest` — what a recovery point tells of a container;
* `assertManifestDataMappingsComplete` — the check that every volume and every host folder has a
  restored counterpart;
* `buildStandaloneContainerCreateCommand` — the command, whose mounts are `standaloneMounts`;
* `CloneIsolated` — the mounts are restored storage only;
* `clone_isolated_iff` — they are exactly when every volume and every host folder has an entry of
  its own, the folder under the very path that was captured, and no target shows captured storage.
-/

/-! ### Manifests -/

/-- `VolumeMountRef`. -/
structure VolumeMountRef where
  name : String
  destination : String
  readOnly : Bool
  deriving DecidableEq, Repr

/-- `BindMountRef`. -/
structure BindMountRef where
  source : String
  destination : String
  readOnly : Bool
  deriving DecidableEq, Repr

structure PortManifest where
  host : Option String
  container : String
  protocol : String
  deriving DecidableEq, Repr

structure NetworkAttachment where
  name : String
  ipAddress : Option String
  aliases : List String
  deriving DecidableEq, Repr

/-- `ContainerManifest`, as far as the create command reads it; the labels are `Object.entries`
    of the record. -/
structure ContainerManifest where
  name : String
  image : String
  ports : List PortManifest
  networks : List String
  networkAttachments : List NetworkAttachment
  labels : List (String × String)
  restartPolicy : String
  env : List String
  volumes : List VolumeMountRef
  bindMounts : List BindMountRef
  entrypoint : List String
  command : List String
  user : Option String
  workingDir : Option String
  deriving DecidableEq, Repr

/-! ### The check -/

/-- The volumes of the manifest without a counterpart. -/
def missingVolumes (containers : List ContainerManifest) (volumeMap : Record) : List String :=
  ((containers.flatMap (·.volumes)).filter fun volume =>
    !truthy (volumeMap.lookup volume.name)).map (·.name)

/-- The host folders of the manifest without a counterpart; the resolution may throw. -/
def missingBinds (cwd : String) (containers : List ContainerManifest) (bindMap : Record) :
    Except String (List String) :=
  (containers.flatMap (·.bindMounts)).foldlM (fun missing bind => do
    let resolved ← resolveRestoredBindMountPath cwd bind.source bindMap
    return if truthy resolved then missing else missing ++ [bind.source]) []

/-- The names in an error, without repetitions. -/
def namesOrNone (names : List String) : String :=
  if names = [] then "none" else ", ".intercalate names.eraseDups

def assertManifestDataMappingsComplete (cwd : String) (containers : Option (List ContainerManifest))
    (volumeMap bindMap : Record) : Except String Unit := do
  match containers with
  | none => return ()
  | some containers =>
    let volumes := missingVolumes containers volumeMap
    let binds ← missingBinds cwd containers bindMap
    if volumes ≠ [] ∨ binds ≠ [] then
      throw ("Recovery clone data mappings are incomplete; refusing to fall through to "
        ++ "source/external storage. Unmapped volumes: " ++ namesOrNone volumes
        ++ "; unmapped host folders: " ++ namesOrNone binds ++ ".")

/-! ### The command -/

/-- One `-v` option. -/
structure CloneMount where
  source : String
  destination : String
  readOnly : Bool
  deriving DecidableEq, Repr

/-- `shQuote`: every single quote is closed, escaped and opened again. -/
def shQuote (value : String) : String :=
  "'" ++ String.ofList (value.toList.flatMap fun c =>
    if c = '\'' then ['\'', '\\', '\'', '\''] else [c]) ++ "'"

theorem toList_shQuote (value : String) :
    (shQuote value).toList = ShellWords.quote value.toList := by
  simp [shQuote, ShellWords.quote, ShellWords.quoteContent]

/-- `volumeMap[volume.name] ?? volume.name`. -/
def volumeMount (volumeMap : Record) (volume : VolumeMountRef) : CloneMount :=
  ⟨(volumeMap.lookup volume.name).getD volume.name, volume.destination, volume.readOnly⟩

/-- `bindMap[bind.source] ?? bind.source`: the map is read at the exact path only. -/
def bindMount (bindMap : Record) (bind : BindMountRef) : CloneMount :=
  ⟨(bindMap.lookup bind.source).getD bind.source, bind.destination, bind.readOnly⟩

/-- The mounts of the command. -/
def standaloneMounts (volumeMap bindMap : Record) (container : ContainerManifest) :
    List CloneMount :=
  container.volumes.map (volumeMount volumeMap) ++ container.bindMounts.map (bindMount bindMap)

def CloneMount.args (mount : CloneMount) : List String :=
  ["-v", shQuote (mount.source ++ ":" ++ mount.destination ++ if mount.readOnly then ":ro" else "")]

/-- The characters `.` does not match. -/
def isLineTerminator (c : Char) : Bool :=
  c = '\n' || c = '\r' || c.toNat = 0x2028 || c.toNat = 0x2029

/-- Everything behind the last `c` of the first line, or all of it. -/
def dropThroughLast (c : Char) (cs : List Char) : List Char :=
  let line := cs.takeWhile fun d => !isLineTerminator d
  if line.contains c then (line.reverse.takeWhile (· ≠ c)).reverse ++ cs.drop line.length
  else cs

/-- `hostPort.replace(/^\[.*\]/, "").replace(/^.*:/, "")`. -/
def numericPort (hostPort : String) : List Char :=
  let cs := hostPort.toList
  dropThroughLast ':' (if cs.head? = some '[' then dropThroughLast ']' cs else cs)

def remapHostPortValue (hostPort : String) (portRemap : Record) : Option String :=
  if hostPort = "" then none
  else
    let numeric := numericPort hostPort
    let remapped := (portRemap.get (String.ofList numeric)).getD (String.ofList numeric)
    if hostPort.toList.contains ':' then
      some (String.ofList (replaceFirstChars numeric remapped.toList hostPort.toList))
    else some remapped

/-- The `-p` options. -/
def portArgs (portRemap : Record) (port : PortManifest) : List String :=
  match port.host.bind fun host => remapHostPortValue host portRemap with
  | none => []
  | some host =>
    if host = "" then []
    else ["-p", shQuote (host ++ ":" ++ port.container ++ "/" ++ port.protocol)]

/-- The first network is none of the map, and `Object.prototype` has something under its name:
    `shQuote` is given an object or a function, throws, and there is no command. -/
def inheritsNetwork (networkMap : Record) (container : ContainerManifest) : Bool :=
  container.networks.head?.any fun firstNetwork =>
    firstNetwork ≠ "" && (networkMap.get firstNetwork).isNone &&
      (Record.inherited firstNetwork).isSome

/-- The `--network` option with its address and aliases, for a network that is not inherited. -/
def networkArgs (networkMap : Record) (container : ContainerManifest) : List String :=
  match container.networks.head? with
  | none => []
  | some firstNetwork =>
    if firstNetwork = "" then []
    else
      let targetNetwork := (networkMap.lookup firstNetwork).getD firstNetwork
      let attachment := container.networkAttachments.find? (·.name = firstNetwork)
      let address := attachment.bind (·.ipAddress)
      let aliases := ((attachment.map (·.aliases)).getD []).filter fun name =>
        name ≠ "" && name ≠ container.name
      ["--network", shQuote targetNetwork]
        ++ (if truthy address && targetNetwork ≠ "bridge" then
            ["--ip", shQuote (address.getD "")] else [])
        ++ aliases.flatMap fun name => ["--network-alias", shQuote name]

/-- `--flag value` for a value that is there and not empty. -/
def optionalArg (flag : String) (value : Option String) : List String :=
  if truthy value then [flag, shQuote (value.getD "")] else []

/-- The arguments of the command. -/
def standaloneCreateArgs (container : ContainerManifest) (name : String)
    (volumeMap bindMap portRemap networkMap : Record) : List String :=
  ["docker create"]
    ++ (if container.restartPolicy ≠ "" ∧ container.restartPolicy ≠ "no" then
        ["--restart", shQuote container.restartPolicy] else [])
    ++ optionalArg "--user" container.user
    ++ optionalArg "--workdir" container.workingDir
    ++ container.env.flatMap (fun env => ["--env", shQuote env])
    ++ container.labels.flatMap (fun (key, value) => ["--label", shQuote (key ++ "=" ++ value)])
    ++ container.ports.flatMap (portArgs portRemap)
    ++ (standaloneMounts volumeMap bindMap container).flatMap CloneMount.args
    ++ networkArgs networkMap container
    ++ ["--name", shQuote name]
    ++ (if container.entrypoint ≠ [] then
        ["--entrypoint", shQuote (" ".intercalate container.entrypoint)] else [])
    ++ [shQuote container.image]
    ++ container.command.map shQuote

def buildStandaloneContainerCreateCommand (container : ContainerManifest) (name : String)
    (volumeMap bindMap portRemap networkMap : Record) : String :=
  " ".intercalate (standaloneCreateArgs container name volumeMap bindMap portRemap networkMap)

/-! ### Isolation -/

/-- The volumes and host folders of the application. -/
def capturedStorage (containers : List ContainerManifest) : List String :=
  containers.flatMap fun container =>
    container.volumes.map (·.name) ++ container.bindMounts.map (·.source)

/-- A mount of `source` shows `captured`: it is the same volume, or the same folder or one above it,
    however the two are spelled. -/
def Shows (source captured : String) : Prop :=
  source = captured ∨ isAbsolute source = true ∧ isAbsolute captured = true ∧
    resolved source.toList <+: resolved captured.toList

instance (source captured : String) : Decidable (Shows source captured) :=
  inferInstanceAs (Decidable (_ ∨ _))

/-- The storage is none of the application. -/
def Foreign (containers : List ContainerManifest) (source : String) : Prop :=
  ∀ captured ∈ capturedStorage containers, ¬ Shows source captured

instance (containers : List ContainerManifest) (source : String) :
    Decidable (Foreign containers source) :=
  inferInstanceAs (Decidable (∀ captured ∈ _, _))

/-- The containers that there is a command for. -/
def commanded (containers : List ContainerManifest) (networkMap : Record) :
    List ContainerManifest :=
  containers.filter fun container => !inheritsNetwork networkMap container

/-- Every mount of every command is restored storage: a volume of the volume map, or the path that
    the resolution gives, in a folder of the bind map; and none is storage of the application. -/
def CloneIsolated (cwd : String) (containers : List ContainerManifest)
    (volumeMap bindMap networkMap : Record) : Prop :=
  ∀ container ∈ commanded containers networkMap,
    (∀ volume ∈ container.volumes, (volumeMount volumeMap volume).source ∈ volumeMap.values) ∧
    (∀ bind ∈ container.bindMounts,
      resolveRestoredBindMountPath cwd bind.source bindMap
        = .ok (some (bindMount bindMap bind).source) ∧
      ∃ folder ∈ bindMap.values, Inside cwd folder (bindMount bindMap bind).source) ∧
    ∀ mount ∈ standaloneMounts volumeMap bindMap container, Foreign containers mount.source

/-- Every captured volume has a target among those of the volume map, every captured path leads by
    itself to a target in a folder of the bind map, and no target shows storage that the
    application has. -/
def ExactlyMapped (cwd : String) (containers : List ContainerManifest)
    (volumeMap bindMap networkMap : Record) : Prop :=
  ∀ container ∈ commanded containers networkMap,
    (∀ volume ∈ container.volumes, ∃ target ∈ volumeMap.values,
      volumeMap.lookup volume.name = some target ∧ Foreign containers target) ∧
    ∀ bind ∈ container.bindMounts, ∃ target, bindMap.lookup bind.source = some target ∧
      target ≠ "" ∧ (∃ folder ∈ bindMap.values, Inside cwd folder target) ∧
        Foreign containers target

/-- What a clean pass of the loop over the host folders has seen. -/
theorem missingBinds_eq_nil {cwd : String} {binds : List BindMountRef} {bindMap : Record}
    {missing : List String}
    (h : binds.foldlM (fun missing bind => do
      let resolved ← resolveRestoredBindMountPath cwd bind.source bindMap
      return if truthy resolved then missing else missing ++ [bind.source]) missing = .ok []) :
    missing = [] ∧ ∀ bind ∈ binds, ∃ path,
      resolveRestoredBindMountPath cwd bind.source bindMap = .ok (some path) ∧ path ≠ "" := by
  induction binds generalizing missing with
  | nil => exact ⟨Except.ok.inj h, fun bind hbind => by cases hbind⟩
  | cons bind binds ih =>
    rw [List.foldlM_cons] at h
    cases hresolved : resolveRestoredBindMountPath cwd bind.source bindMap with
    | error error =>
      rw [hresolved] at h
      cases h
    | ok resolved =>
      rw [hresolved] at h
      obtain ⟨hmissing, hrest⟩ := ih h
      by_cases htruthy : truthy resolved = true
      · rw [if_pos htruthy] at hmissing
        obtain ⟨path, rfl, hne⟩ := truthy_iff.mp htruthy
        refine ⟨hmissing, fun bind' hbind' => ?_⟩
        rcases List.mem_cons.mp hbind' with rfl | hbind'
        · exact ⟨path, hresolved, hne⟩
        · exact hrest bind' hbind'
      · rw [if_neg htruthy] at hmissing
        simp at hmissing

/-- **What the check promises**: every volume has a target, and every host folder resolves. -/
theorem assertManifestDataMappingsComplete_ok {cwd : String} {containers : List ContainerManifest}
    {volumeMap bindMap : Record}
    (h : assertManifestDataMappingsComplete cwd (some containers) volumeMap bindMap = .ok ())
    {container : ContainerManifest} (hcontainer : container ∈ containers) :
    (∀ volume ∈ container.volumes, ∃ target, volumeMap.lookup volume.name = some target) ∧
      ∀ bind ∈ container.bindMounts, ∃ path,
        resolveRestoredBindMountPath cwd bind.source bindMap = .ok (some path) ∧ path ≠ "" := by
  unfold assertManifestDataMappingsComplete at h
  cases hbinds : missingBinds cwd containers bindMap with
  | error error =>
    simp only [hbinds] at h
    cases h
  | ok binds =>
    by_cases hcomplete : missingVolumes containers volumeMap ≠ [] ∨ binds ≠ []
    · simp only [hbinds, bind, Except.bind, if_pos hcomplete] at h
      cases h
    · obtain ⟨hvolumes, rfl⟩ : missingVolumes containers volumeMap = [] ∧ binds = [] := by
        simpa only [not_or, not_not] using hcomplete
      constructor
      · intro volume hvolume
        have hnone := List.filter_eq_nil_iff.mp (List.map_eq_nil_iff.mp hvolumes) volume
          (List.mem_flatMap.mpr ⟨container, hcontainer, hvolume⟩)
        obtain ⟨target, htarget, -⟩ := truthy_iff.mp (by simpa using hnone)
        exact ⟨target, htarget⟩
      · intro bind hbind
        exact (missingBinds_eq_nil hbinds).2 bind
          (List.mem_flatMap.mpr ⟨container, hcontainer, hbind⟩)

theorem source_mem_capturedStorage {containers : List ContainerManifest}
    {container : ContainerManifest} (hcontainer : container ∈ containers) {bind : BindMountRef}
    (hbind : bind ∈ container.bindMounts) : bind.source ∈ capturedStorage containers :=
  List.mem_flatMap.mpr ⟨container, hcontainer,
    List.mem_append_right _ (List.mem_map.mpr ⟨bind, hbind, rfl⟩)⟩

theorem mem_of_commanded {containers : List ContainerManifest} {networkMap : Record}
    {container : ContainerManifest} (h : container ∈ commanded containers networkMap) :
    container ∈ containers := List.mem_of_mem_filter h

/-- **When a clone is isolated.**  For every manifest and all maps that pass the check, the mounts
    of the clone are restored storage only if and only if every captured volume and every captured
    path has a target of its own and no target shows storage of the application. -/
theorem clone_isolated_iff (cwd : String) (containers : List ContainerManifest)
    (volumeMap bindMap networkMap : Record)
    (h : assertManifestDataMappingsComplete cwd (some containers) volumeMap bindMap = .ok ()) :
    CloneIsolated cwd containers volumeMap bindMap networkMap ↔
      ExactlyMapped cwd containers volumeMap bindMap networkMap := by
  constructor
  · intro hisolated container hcontainer
    obtain ⟨hvolumes, hbinds, hforeign⟩ := hisolated container hcontainer
    have hchecked := assertManifestDataMappingsComplete_ok h (mem_of_commanded hcontainer)
    constructor
    · intro volume hvolume
      obtain ⟨target, htarget⟩ := hchecked.1 volume hvolume
      have hsource : (volumeMount volumeMap volume).source = target := by
        rw [volumeMount, htarget, Option.getD_some]
      refine ⟨target, hsource ▸ hvolumes volume hvolume, htarget, ?_⟩
      rw [← hsource]
      exact hforeign _ (List.mem_append_left _ (List.mem_map.mpr ⟨volume, hvolume, rfl⟩))
    · intro bind hbind
      have hmount := hforeign (bindMount bindMap bind)
        (List.mem_append_right _ (List.mem_map.mpr ⟨bind, hbind, rfl⟩))
      obtain ⟨hresolved, hinside⟩ := hbinds bind hbind
      cases hget : bindMap.lookup bind.source with
      | none =>
        -- The command falls back to the captured path.
        rw [bindMount, hget] at hmount
        exact absurd (.inl rfl) (hmount bind.source
          (source_mem_capturedStorage (mem_of_commanded hcontainer) hbind))
      | some target =>
        rw [bindMount, hget] at hmount hresolved hinside
        refine ⟨target, rfl, ?_, hinside, hmount⟩
        rintro rfl
        -- An empty entry is mounted as it is, but the resolution passes over it.
        obtain ⟨path, hpath, hne⟩ := hchecked.2 bind hbind
        rw [hpath] at hresolved
        exact hne (Option.some.inj (Except.ok.inj hresolved))
  · intro hmapped container hcontainer
    obtain ⟨hvolumes, hbinds⟩ := hmapped container hcontainer
    refine ⟨fun volume hvolume => ?_, fun bind hbind => ?_, fun mount hmount => ?_⟩
    · obtain ⟨target, hmem, htarget, -⟩ := hvolumes volume hvolume
      rw [volumeMount, htarget]
      exact hmem
    · obtain ⟨target, hget, hne, hinside, -⟩ := hbinds bind hbind
      rw [bindMount, hget]
      exact ⟨resolveRestoredBindMountPath_exact hget hne, hinside⟩
    · rcases List.mem_append.mp hmount with hmount | hmount
      · obtain ⟨volume, hvolume, rfl⟩ := List.mem_map.mp hmount
        obtain ⟨target, -, htarget, hforeign⟩ := hvolumes volume hvolume
        rw [volumeMount, htarget]
        exact hforeign
      · obtain ⟨bind, hbind, rfl⟩ := List.mem_map.mp hmount
        obtain ⟨target, hget, -, -, hforeign⟩ := hbinds bind hbind
        rw [bindMount, hget]
        exact hforeign

/-! ### A folder that was captured with its parent -/

/-- A container with one volume and one host folder. -/
def webContainer : ContainerManifest where
  name := "web"
  image := "nginx:1.27"
  ports := []
  networks := []
  networkAttachments := []
  labels := []
  restartPolicy := "no"
  env := []
  volumes := [⟨"web_data", "/data", false⟩]
  bindMounts := [⟨"/srv/web/html", "/usr/share/nginx/html", true⟩]
  entrypoint := []
  command := []
  user := none
  workingDir := none

def webVolumeMap : Record := ⟨[("web_data", "web-restore-1f_web_data")], by decide⟩

/-- The folder of the mount is in the map. -/
def exactBindMap : Record :=
  ⟨[("/srv/web/html", "/var/lib/composebastion/restores/1f/srv_web_html")], by decide⟩

/-- Its parent is in the map. -/
def parentBindMap : Record :=
  ⟨[("/srv/web", "/var/lib/composebastion/restores/1f/srv_web")], by decide⟩

theorem clone_isolated_exact :
    assertManifestDataMappingsComplete "/app" (some [webContainer]) webVolumeMap exactBindMap
        = .ok () ∧
      CloneIsolated "/app" [webContainer] webVolumeMap exactBindMap .empty := by
  have hcheck : assertManifestDataMappingsComplete "/app" (some [webContainer]) webVolumeMap
      exactBindMap = .ok () := by decide +kernel
  refine ⟨hcheck, (clone_isolated_iff _ _ _ _ _ hcheck).mpr ?_⟩
  intro container hcontainer
  obtain rfl := List.mem_singleton.mp (mem_of_commanded hcontainer)
  constructor
  · intro volume hvolume
    obtain rfl := List.mem_singleton.mp hvolume
    exact ⟨"web-restore-1f_web_data", by decide, rfl, by decide⟩
  · intro bind hbind
    obtain rfl := List.mem_singleton.mp hbind
    exact ⟨"/var/lib/composebastion/restores/1f/srv_web_html", rfl, by decide,
      ⟨_, List.mem_singleton_self _, .refl _ _⟩, by decide⟩

/-- The check finds the folder in its restored parent; the command mounts the captured one. -/
theorem parent_folder_not_isolated :
    assertManifestDataMappingsComplete "/app" (some [webContainer]) webVolumeMap parentBindMap
        = .ok () ∧
      ¬ CloneIsolated "/app" [webContainer] webVolumeMap parentBindMap .empty := by
  refine ⟨by decide +kernel, fun hisolated => ?_⟩
  obtain ⟨-, -, hforeign⟩ := hisolated webContainer (by decide)
  exact hforeign ⟨"/srv/web/html", "/usr/share/nginx/html", true⟩ (by decide) "/srv/web/html"
    (by decide) (.inl rfl)

end ComposeBastion
