import ComposeBastion.Recovery.RestoreNames
import Mathlib.Data.Finset.Max

namespace ComposeBastion

open Js

/-!
# The volumes of a restore plan

The loop of `buildRecoveryRestorePlan` over the volume artifacts: every captured volume gets the
name of a volume that is made for it.  In a Compose project the map also has the name of the
volume in the Compose file, which may be the name of another captured volume.

* `volumeMap` — the map of the plan;
* `get_volumeMap` — the target of a name is that of the last artifact that sets it;
* `volume_targets_injective_iff` — when no two captured volumes have one target.
-/

/-! ### The plan -/

inductive RecoveryArtifactKind
  | volume | composeYaml | envFile | imageManifest | hostFolder | metadata | configExport
  deriving DecidableEq, Repr

/-- A `RecoveryArtifact`, as far as it is read for the volumes. -/
structure VolumeArtifact where
  kind : RecoveryArtifactKind
  completed : Bool
  volumeName : Option String
  deriving DecidableEq, Repr

/-- What the plan of the volumes is made of: the recovery point, `manifest?.compose.projectName`
    and the options of the request.  Its mode is not read. -/
structure VolumePlanInput where
  pointId : String
  pointProjectName : Option String
  artifacts : List VolumeArtifact
  manifestProjectName : Option String
  projectNameOverride : Option String
  volumePrefix : Option String
  deriving DecidableEq, Repr

/-- The engine name of a completed volume artifact, if it has one. -/
def VolumeArtifact.name? (artifact : VolumeArtifact) : Option String :=
  if artifact.kind ≠ .volume ∨ artifact.completed = false then none
  else if artifact.volumeName.getD "" = "" then none
  else some (artifact.volumeName.getD "")

namespace VolumePlanInput

def originalProjectName (input : VolumePlanInput) : String :=
  ((input.projectNameOverride.or input.manifestProjectName).or input.pointProjectName).getD
    input.pointId

def projectName (input : VolumePlanInput) : String :=
  buildCloneRestoreProjectName input.originalProjectName input.pointId

def volumeNamespace (input : VolumePlanInput) : String :=
  if truthy input.volumePrefix then sanitizeDockerName (input.volumePrefix.getD "") 80
  else input.projectName

def composeVolumeName (input : VolumePlanInput) (volumeName : String) : String :=
  composeVolumeNameFromEngineName volumeName input.manifestProjectName

def targetVolumeName (input : VolumePlanInput) (volumeName : String) : String :=
  if truthy input.manifestProjectName then
    buildComposeProjectVolumeName input.volumeNamespace (input.composeVolumeName volumeName)
  else buildCloneVolumeName volumeName input.volumeNamespace

/-- The body of the loop for an artifact with a name. -/
def assignVolume (input : VolumePlanInput) (volumeMap : OrderedMap String String)
    (volumeName : String) : OrderedMap String String :=
  let target := input.targetVolumeName volumeName
  if truthy input.manifestProjectName then
    (volumeMap.set volumeName target).set (input.composeVolumeName volumeName) target
  else volumeMap.set volumeName target

/-- `volumeMap`: the other artifacts are passed over. -/
def volumeMap (input : VolumePlanInput) : OrderedMap String String :=
  input.artifacts.foldl (fun volumeMap artifact =>
    match artifact.name? with
    | none => volumeMap
    | some volumeName => input.assignVolume volumeMap volumeName) ∅

/-- The engine names of the captured volumes, in order. -/
def volumeNames (input : VolumePlanInput) : List String := input.artifacts.filterMap (·.name?)

end VolumePlanInput

/-! ### What the map has -/

section
variable (input : VolumePlanInput)

theorem volumeMap_eq : input.volumeMap = input.volumeNames.foldl input.assignVolume ∅ := by
  rw [VolumePlanInput.volumeMap, VolumePlanInput.volumeNames, List.foldl_filterMap]
  congr
  funext volumeMap artifact
  cases artifact.name? <;> rfl

/-- Without a Compose project a volume has its engine name only. -/
theorem composeVolumeName_of_falsy (h : ¬ truthy input.manifestProjectName = true)
    (volumeName : String) : input.composeVolumeName volumeName = volumeName :=
  if_neg h

theorem get_assignVolume (volumeMap : OrderedMap String String) (volumeName name : String) :
    (input.assignVolume volumeMap volumeName).get name =
      if volumeName = name ∨ input.composeVolumeName volumeName = name then
        some (input.targetVolumeName volumeName)
      else volumeMap.get name := by
  rw [VolumePlanInput.assignVolume]
  by_cases hproject : truthy input.manifestProjectName = true
  · simp only [if_pos hproject]
    by_cases hcompose : input.composeVolumeName volumeName = name
    · rw [if_pos (.inr hcompose), hcompose, OrderedMap.get_set_self]
    · rw [OrderedMap.get_set_of_ne (Ne.symm hcompose)]
      by_cases hname : volumeName = name
      · rw [if_pos (.inl hname), hname, OrderedMap.get_set_self]
      · rw [if_neg (not_or.mpr ⟨hname, hcompose⟩), OrderedMap.get_set_of_ne (Ne.symm hname)]
  · simp only [if_neg hproject, composeVolumeName_of_falsy input hproject, or_self]
    by_cases hname : volumeName = name
    · rw [if_pos hname, hname, OrderedMap.get_set_self]
    · rw [if_neg hname, OrderedMap.get_set_of_ne (Ne.symm hname)]

/-- The target of a name is that of the last volume that sets it. -/
theorem get_volumeMap (name : String) :
    input.volumeMap.get name =
      (input.volumeNames.reverse.find? fun volumeName =>
        volumeName = name ∨ input.composeVolumeName volumeName = name).map
          input.targetVolumeName := by
  have hfold : ∀ (names : List String) (volumeMap : OrderedMap String String),
      (names.foldl input.assignVolume volumeMap).get name =
        ((names.reverse.find? fun volumeName =>
          volumeName = name ∨ input.composeVolumeName volumeName = name).map
            input.targetVolumeName).or (volumeMap.get name) := by
    intro names
    induction names with
    | nil => intro volumeMap; rfl
    | cons first names ih =>
      intro volumeMap
      rw [List.foldl_cons, ih, List.reverse_cons, List.find?_append, get_assignVolume]
      cases names.reverse.find? fun volumeName =>
          volumeName = name ∨ input.composeVolumeName volumeName = name with
      | some found => rfl
      | none =>
        by_cases hsets : first = name ∨ input.composeVolumeName first = name
        · rw [if_pos hsets, List.find?_singleton, if_pos (decide_eq_true hsets)]
          rfl
        · rw [if_neg hsets, List.find?_singleton, if_neg (by simpa using hsets)]
          rfl
  rw [volumeMap_eq, hfold]
  exact Option.or_none

/-! ### Compose names -/

/-- The engine name of a volume of the project. -/
def projectVolume (input : VolumePlanInput) (name : String) : String :=
  input.manifestProjectName.getD "" ++ "_" ++ name

theorem toList_projectVolume (name : String) :
    (projectVolume input name).toList =
      (input.manifestProjectName.getD "" ++ "_").toList ++ name.toList := by
  rw [projectVolume, String.toList_append]

theorem length_projectVolume (name : String) :
    name.toList.length < (projectVolume input name).toList.length := by
  simp only [projectVolume, String.toList_append, List.length_append]
  have : "_".toList.length = 1 := rfl
  omega

theorem projectVolume_ne (name : String) : projectVolume input name ≠ name := by
  intro heq
  have := length_projectVolume input name
  rw [heq] at this
  exact Nat.lt_irrefl _ this

theorem startsWith_projectVolume {name : String} (hname : name ≠ "") :
    startsWith (projectVolume input name) (input.manifestProjectName.getD "" ++ "_") = true ∧
      projectVolume input name ≠ input.manifestProjectName.getD "" ++ "_" := by
  constructor
  · rw [startsWith, toList_projectVolume, List.isPrefixOf_iff_prefix]
    exact List.prefix_append _ _
  · intro heq
    have hlist := congrArg String.toList heq
    rw [toList_projectVolume, List.append_right_eq_self] at hlist
    exact hname (by simpa using hlist)

/-- A volume of the project has the rest of its name as its Compose name, any other its own. -/
theorem composeVolumeName_projectVolume (hproject : truthy input.manifestProjectName = true)
    {name : String} (hname : name ≠ "") :
    input.composeVolumeName (projectVolume input name) = name := by
  rw [VolumePlanInput.composeVolumeName, composeVolumeNameFromEngineName, if_pos hproject]
  simp only [if_pos (startsWith_projectVolume input hname)]
  rw [dropChars, toList_projectVolume, List.drop_left, String.ofList_toList]

theorem composeVolumeName_cases (hproject : truthy input.manifestProjectName = true)
    (volumeName : String) :
    input.composeVolumeName volumeName = volumeName ∨
      ∃ name, name ≠ "" ∧ volumeName = projectVolume input name := by
  rw [VolumePlanInput.composeVolumeName, composeVolumeNameFromEngineName, if_pos hproject]
  by_cases hfront : startsWith volumeName (input.manifestProjectName.getD "" ++ "_") = true ∧
      volumeName ≠ input.manifestProjectName.getD "" ++ "_"
  · right
    obtain ⟨rest, hrest⟩ := List.isPrefixOf_iff_prefix.mp hfront.1
    refine ⟨String.ofList rest, ?_, ?_⟩
    · intro hempty
      have hnil : rest = [] := by simpa using hempty
      rw [hnil, List.append_nil] at hrest
      exact hfront.2 (String.toList_inj.mp hrest.symm)
    · rw [← String.toList_inj, toList_projectVolume, String.toList_ofList, hrest]
  · left
    simp only [if_neg hfront]

theorem composeVolumeName_ne_empty {volumeName : String} (h : volumeName ≠ "") :
    input.composeVolumeName volumeName ≠ "" := by
  by_cases hproject : truthy input.manifestProjectName = true
  · rcases composeVolumeName_cases input hproject volumeName with heq | ⟨name, hname, rfl⟩
    · rwa [heq]
    · rwa [composeVolumeName_projectVolume input hproject hname]
  · rwa [composeVolumeName_of_falsy input hproject]

/-! ### Which artifact sets a name -/

theorem volumeName_ne_empty {name : String} (h : name ∈ input.volumeNames) : name ≠ "" := by
  obtain ⟨artifact, -, hname⟩ := List.mem_filterMap.mp h
  rw [VolumeArtifact.name?] at hname
  split at hname
  · cases hname
  · split at hname
    · cases hname
    · next hne => rwa [← Option.some.inj hname]

/-- The volume of the project with this name is captured behind it. -/
def Overwritten (name : String) : Prop :=
  [name, projectVolume input name].Sublist input.volumeNames

/-- The volumes that set a name: the one of this name and that of the project. -/
theorem sets_iff {name volumeName : String} (hname : name ≠ "") :
    (volumeName = name ∨ input.composeVolumeName volumeName = name) ↔
      volumeName = name ∨
        (truthy input.manifestProjectName = true ∧ volumeName = projectVolume input name) := by
  constructor
  · rintro (h | h)
    · exact .inl h
    · by_cases hproject : truthy input.manifestProjectName = true
      · rcases composeVolumeName_cases input hproject volumeName with heq | ⟨rest, hrest, rfl⟩
        · exact .inl (heq.symm.trans h)
        · rw [composeVolumeName_projectVolume input hproject hrest] at h
          exact .inr ⟨hproject, by rw [h]⟩
      · rw [composeVolumeName_of_falsy input hproject] at h
        exact .inl h
  · rintro (h | ⟨hproject, rfl⟩)
    · exact .inl h
    · exact .inr (composeVolumeName_projectVolume input hproject hname)

theorem get_volumeMap_last {name volumeName : String} (hname : name ≠ "")
    {front back : List String} (hsplit : input.volumeNames = front ++ volumeName :: back)
    (hsets : volumeName = name ∨
      (truthy input.manifestProjectName = true ∧ volumeName = projectVolume input name))
    (hback : ∀ later ∈ back, later ≠ name ∧
      ¬ (truthy input.manifestProjectName = true ∧ later = projectVolume input name)) :
    input.volumeMap.get name = some (input.targetVolumeName volumeName) := by
  have hnone : back.reverse.find? (fun volumeName =>
      volumeName = name ∨ input.composeVolumeName volumeName = name) = none := by
    rw [List.find?_eq_none]
    intro later hlater hsome
    rcases (sets_iff input hname).mp (of_decide_eq_true hsome) with h | h
    · exact (hback later (List.mem_reverse.mp hlater)).1 h
    · exact (hback later (List.mem_reverse.mp hlater)).2 h
  rw [get_volumeMap, hsplit, List.reverse_append, List.reverse_cons, List.append_assoc,
    List.find?_append, hnone, List.singleton_append,
    List.find?_cons_of_pos (by simpa using (sets_iff input hname).mpr hsets)]
  rfl

/-- A captured volume has its own target, unless the artifact of another overwrites it. -/
theorem get_volumeMap_own (hnodup : input.volumeNames.Nodup) {name : String}
    (h : name ∈ input.volumeNames)
    (hfree : truthy input.manifestProjectName = true → ¬ Overwritten input name) :
    input.volumeMap.get name = some (input.targetVolumeName name) := by
  obtain ⟨front, back, hsplit⟩ := List.append_of_mem h
  refine get_volumeMap_last input (volumeName_ne_empty input h) hsplit (.inl rfl) ?_
  intro later hlater
  constructor
  · rintro rfl
    rw [hsplit, List.nodup_append, List.nodup_cons] at hnodup
    exact hnodup.2.1.1 hlater
  · rintro ⟨hproject, rfl⟩
    refine hfree hproject ?_
    rw [Overwritten, hsplit]
    exact (((List.singleton_sublist.mpr hlater).cons_cons name)).trans
      (List.sublist_append_right _ _)

/-- An overwritten name has the target of the volume of the project. -/
theorem get_volumeMap_overwritten (hnodup : input.volumeNames.Nodup)
    (hproject : truthy input.manifestProjectName = true) {name : String}
    (h : Overwritten input name) :
    input.volumeMap.get name = some (input.targetVolumeName (projectVolume input name)) := by
  have hmem : name ∈ input.volumeNames := h.subset List.mem_cons_self
  obtain ⟨front, back, hsplit, hfront, hback⟩ := List.cons_sublist_iff.mp h
  obtain ⟨middle, rest, rfl⟩ := List.append_of_mem (List.singleton_sublist.mp hback)
  rw [← List.append_assoc] at hsplit
  refine get_volumeMap_last input (volumeName_ne_empty input hmem) hsplit (.inr ⟨hproject, rfl⟩) ?_
  intro later hlater
  rw [hsplit, List.nodup_append, List.nodup_cons] at hnodup
  constructor
  · rintro rfl
    exact hnodup.2.2 later (List.mem_append_left _ hfront) later
      (List.mem_cons_of_mem _ hlater) rfl
  · rintro ⟨-, rfl⟩
    exact hnodup.2.1.1 hlater

/-! ### Distinct targets -/

theorem length_volumeNamespace : (unitChars input.volumeNamespace.toList).length ≤ 80 := by
  rw [VolumePlanInput.volumeNamespace]
  split
  · rw [sanitizeDockerName, String.toList_ofList]
    exact length_unitChars_sanitize _ (by decide)
  · exact length_cloneRestoreProjectName _ _

/-- Two volumes are told apart: by the first 120 units of their Compose names, or by their
    sanitized engine names without a project. -/
def ToldApart (name name' : String) : Prop :=
  if truthy input.manifestProjectName then
    ¬ SameUnits 120 (input.composeVolumeName name).toList (input.composeVolumeName name').toList
  else sanitizeDockerName name 120 ≠ sanitizeDockerName name' 120

theorem targetVolumeName_ne_iff {name name' : String} (h : name ≠ "") (h' : name' ≠ "") :
    input.targetVolumeName name ≠ input.targetVolumeName name' ↔ ToldApart input name name' := by
  rw [VolumePlanInput.targetVolumeName, VolumePlanInput.targetVolumeName, ToldApart]
  by_cases hproject : truthy input.manifestProjectName = true
  · rw [if_pos hproject, if_pos hproject, if_pos hproject, Ne,
      buildComposeProjectVolumeName_inj (length_volumeNamespace input)
        (composeVolumeName_ne_empty input h) (composeVolumeName_ne_empty input h')]
  · rw [if_neg hproject, if_neg hproject, if_neg hproject, Ne,
      buildCloneVolumeName_inj (length_volumeNamespace input)]

/-- Of the overwritten volumes one has a volume of the project that is not overwritten. -/
theorem exists_last_overwritten (h : ∃ name, Overwritten input name) :
    ∃ name, Overwritten input name ∧ ¬ Overwritten input (projectVolume input name) := by
  classical
  let overwritten := input.volumeNames.toFinset.filter (Overwritten input)
  have hmem : ∀ name, name ∈ overwritten ↔ Overwritten input name := by
    intro name
    rw [Finset.mem_filter, List.mem_toFinset]
    exact ⟨And.right, fun h => ⟨h.subset List.mem_cons_self, h⟩⟩
  obtain ⟨name, hname⟩ := h
  obtain ⟨last, hlast, hmax⟩ := Finset.exists_max_image overwritten
    (fun name => name.toList.length) ⟨name, (hmem name).mpr hname⟩
  refine ⟨last, (hmem last).mp hlast, fun hnext => ?_⟩
  have hle := hmax _ ((hmem _).mpr hnext)
  exact absurd (length_projectVolume input last) (Nat.not_lt.mpr hle)

end

/-- **When no two volumes are restored into one.**  For every plan input whose captured volumes
    have distinct engine names, they have distinct targets if and only if they are told apart and,
    in a Compose project, no volume has the volume of the project with its name behind it. -/
theorem volume_targets_injective_iff (input : VolumePlanInput)
    (hnodup : input.volumeNames.Nodup) :
    (∀ name ∈ input.volumeNames, ∀ name' ∈ input.volumeNames, name ≠ name' →
        input.volumeMap.get name ≠ input.volumeMap.get name') ↔
      (truthy input.manifestProjectName = true → ∀ name, ¬ Overwritten input name) ∧
        ∀ name ∈ input.volumeNames, ∀ name' ∈ input.volumeNames, name ≠ name' →
          ToldApart input name name' := by
  have hown : (truthy input.manifestProjectName = true → ∀ name, ¬ Overwritten input name) →
      ∀ name ∈ input.volumeNames,
        input.volumeMap.get name = some (input.targetVolumeName name) :=
    fun hfree name hname =>
      get_volumeMap_own input hnodup hname fun hproject => hfree hproject name
  constructor
  · intro hdistinct
    have hfree : truthy input.manifestProjectName = true → ∀ name, ¬ Overwritten input name := by
      intro hproject name hname
      -- the last volume of a chain has the target of the one it overwrites
      obtain ⟨last, hlast, hnext⟩ := exists_last_overwritten input ⟨name, hname⟩
      have hmem : projectVolume input last ∈ input.volumeNames :=
        hlast.subset (List.mem_cons_of_mem _ List.mem_cons_self)
      refine hdistinct last (hlast.subset List.mem_cons_self) _ hmem
        (projectVolume_ne input last).symm ?_
      rw [get_volumeMap_overwritten input hnodup hproject hlast,
        get_volumeMap_own input hnodup hmem fun _ => hnext]
    refine ⟨hfree, fun name hname name' hname' hne => ?_⟩
    have htargets := hdistinct name hname name' hname' hne
    rw [hown hfree name hname, hown hfree name' hname', Ne, Option.some.injEq] at htargets
    exact (targetVolumeName_ne_iff input (volumeName_ne_empty input hname)
      (volumeName_ne_empty input hname')).mp htargets
  · rintro ⟨hfree, hapart⟩ name hname name' hname' hne
    rw [hown hfree name hname, hown hfree name' hname', Ne, Option.some.injEq]
    exact (targetVolumeName_ne_iff input (volumeName_ne_empty input hname)
      (volumeName_ne_empty input hname')).mpr (hapart name hname name' hname' hne)

/-! ### Two volumes with one target -/

/-- A clone of the project `app` with these volumes. -/
def appPlan (volumes : List String) : VolumePlanInput where
  pointId := "3f0c9a52-7d7e-4a15-9a58-0f6f6f1d2b11"
  pointProjectName := some "app"
  artifacts := volumes.map fun name => ⟨.volume, true, some name⟩
  manifestProjectName := some "app"
  projectNameOverride := none
  volumePrefix := none

theorem distinct_volume_targets :
    (appPlan ["app_data", "app_cache"]).volumeMap.get "app_data" ≠
      (appPlan ["app_data", "app_cache"]).volumeMap.get "app_cache" := by
  refine (volume_targets_injective_iff (appPlan ["app_data", "app_cache"]) (by decide)).mpr
    ⟨?_, ?_⟩ "app_data" (by decide) "app_cache" (by decide) (by decide)
  · intro _ name hname
    have hfirst : name ∈ (appPlan ["app_data", "app_cache"]).volumeNames :=
      hname.subset List.mem_cons_self
    have hsecond : projectVolume (appPlan ["app_data", "app_cache"]) name ∈
        (appPlan ["app_data", "app_cache"]).volumeNames :=
      hname.subset (List.mem_cons_of_mem _ List.mem_cons_self)
    have hnames : (appPlan ["app_data", "app_cache"]).volumeNames = ["app_data", "app_cache"] :=
      rfl
    rw [hnames] at hfirst hsecond
    rcases List.mem_cons.mp hfirst with rfl | hfirst
    · exact absurd hsecond (by decide)
    · obtain rfl := List.mem_singleton.mp hfirst
      exact absurd hsecond (by decide)
  · have hapart : ∀ name ∈ ["app_data", "app_cache"], ∀ name' ∈ ["app_data", "app_cache"],
        name ≠ name' → name ≠ "" ∧ name' ≠ "" ∧
          (appPlan ["app_data", "app_cache"]).targetVolumeName name ≠
            (appPlan ["app_data", "app_cache"]).targetVolumeName name' := by decide +kernel
    intro name hname name' hname' hne
    obtain ⟨h, h', htarget⟩ := hapart name hname name' hname' hne
    exact (targetVolumeName_ne_iff _ h h').mp htarget

/-- The volume `data` beside the project has the target of the volume `app_data` of the project. -/
theorem project_and_external_volume_merged :
    (appPlan ["app_data", "data"]).volumeNames = ["app_data", "data"] ∧
      (appPlan ["app_data", "data"]).volumeMap.get "app_data" =
        some "app-restore-3f0c9a52_data" ∧
      (appPlan ["app_data", "data"]).volumeMap.get "data" =
        some "app-restore-3f0c9a52_data" ∧
      ¬ ∀ input : VolumePlanInput, input.volumeNames.Nodup →
        ∀ name ∈ input.volumeNames, ∀ name' ∈ input.volumeNames, name ≠ name' →
          input.volumeMap.get name ≠ input.volumeMap.get name' := by
  have hdata : (appPlan ["app_data", "data"]).volumeMap.get "app_data" =
      some "app-restore-3f0c9a52_data" := by decide +kernel
  have hexternal : (appPlan ["app_data", "data"]).volumeMap.get "data" =
      some "app-restore-3f0c9a52_data" := by decide +kernel
  refine ⟨by decide, hdata, hexternal, fun hall => ?_⟩
  exact hall (appPlan ["app_data", "data"]) (by decide) "app_data" (by decide) "data" (by decide)
    (by decide) (hdata.trans hexternal.symm)

end ComposeBastion
