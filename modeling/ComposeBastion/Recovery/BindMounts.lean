import ComposeBastion.Js.Record

namespace ComposeBastion

open Js

/-!
# Restored bind mounts

`services/recoveryRestoreUtils.ts`: where a captured host folder is found after a restore.  The
bind map of a restore plan names the folders that were captured; a mount of the application is
resolved through it by its exact path, by an alias of it, or by the folder it lies in.

* `normalizeBindMountPath`, `bindMountPathAliases`, `containedRelativePath` — the comparisons;
* `resolveRestoredBindMountPath` — the resolution, which fails on an ambiguous map;
* `Inside` — a path that is a folder of the host or lies in it.
-/

/-! ### Comparing paths -/

def normalizeBindMountPath (hostPath : String) : String :=
  let normalized := posixNormalize (forwardSlashes hostPath)
  if !startsWith normalized "/" then normalized
  else
    let stripped := stripTrailingSlashes normalized
    if stripped = "" then "/" else stripped

/-- `/^\/private\/(?:etc|tmp|var)(?:\/|$)/`. -/
def isPrivateAlias (path : String) : Bool :=
  ["/private/etc", "/private/tmp", "/private/var"].any fun folder =>
    path = folder || startsWith path (folder ++ "/")

def bindMountPathAliases (source : String) : List String :=
  let normalized := normalizeBindMountPath source
  let aliases :=
    if startsWith normalized "/host_mnt/" then [normalized, dropChars 9 normalized]
    else [normalized]
  (aliases ++ (aliases.filter isPrivateAlias).map (dropChars 8)).eraseDups

/-- The path of `child` below `parent`: empty when they are equal, nothing when `child` is not
    in `parent`.  `cwd` is the working directory of the process. -/
def containedRelativePath (cwd parent child : String) : Option String :=
  let normalizedParent := posixNormalize parent
  let normalizedChild := posixNormalize child
  if normalizedChild = normalizedParent then some ""
  else if !startsWith normalizedChild (stripTrailingSlashes normalizedParent ++ "/") then none
  else
    let relative := posixRelative cwd normalizedParent normalizedChild
    if relative = "" || relative = ".." || startsWith relative "../" || isAbsolute relative then
      none
    else some relative

theorem containedRelativePath_self (cwd path : String) :
    containedRelativePath cwd path path = some "" := by
  simp [containedRelativePath]

/-! ### Matches -/

/-- A folder of the map that a mount may be found in. -/
structure BindMountMatch where
  artifactSource : String
  replacement : String
  specificity : ℕ
  deriving DecidableEq, Repr

def uniqueBestBindMountMatch (candidates : List BindMountMatch) (source : String) :
    Except String (Option String) :=
  let bestSpecificity := (candidates.map (·.specificity)).foldl max 0
  let best := candidates.filter (·.specificity = bestSpecificity)
  if 1 < (best.map (·.replacement)).eraseDups.length then
    .error ("Cannot safely resolve restored bind mount " ++ source
      ++ ": matching recovery artifacts " ++ ", ".intercalate (best.map (·.artifactSource))
      ++ " are ambiguous.")
  else .ok (best.head?.map (·.replacement))

/-- `Math.min(...bindMountPathAliases(source).map((alias) => alias.length))`. -/
def bindMountSpecificity (source : String) : ℕ :=
  match (bindMountPathAliases source).map codeUnits with
  | [] => 0
  | length :: lengths => lengths.foldl min length

/-! ### Resolution -/

/-- The folders of the map that are the mount under another name. -/
def aliasMatches (source : String) (bindMounts : Record) : List BindMountMatch :=
  bindMounts.entries.filterMap fun (inspectedSource, replacement) =>
    if (bindMountPathAliases inspectedSource).any (bindMountPathAliases source).contains then
      some ⟨inspectedSource, replacement, bindMountSpecificity inspectedSource⟩
    else none

/-- The folders of the map that the mount lies in, under any of its names. -/
def parentMatches (cwd source : String) (bindMounts : Record) : List BindMountMatch :=
  bindMounts.entries.flatMap fun (artifactSource, artifactTarget) =>
    (bindMountPathAliases artifactSource).flatMap fun artifactAlias =>
      (bindMountPathAliases source).filterMap fun sourceAlias =>
        match containedRelativePath cwd artifactAlias sourceAlias with
        | none => none
        | some relative =>
          if relative = "" then none
          else
            let replacement := posixJoin artifactTarget relative
            if containedRelativePath cwd artifactTarget replacement ≠ some relative then none
            else some ⟨artifactSource, replacement, bindMountSpecificity artifactSource⟩

def resolveRestoredBindMountPath (cwd source : String) (bindMounts : Record) :
    Except String (Option String) :=
  if truthy (bindMounts.lookup source) then .ok (bindMounts.lookup source)
  else
    match uniqueBestBindMountMatch (aliasMatches source bindMounts) source with
    | .error error => .error error
    | .ok aliasMatch =>
      if truthy aliasMatch then .ok aliasMatch
      else uniqueBestBindMountMatch (parentMatches cwd source bindMounts) source

/-- `path` is the folder `parent` or lies in it. -/
def Inside (cwd parent path : String) : Prop := containedRelativePath cwd parent path ≠ none

instance (cwd parent path : String) : Decidable (Inside cwd parent path) :=
  inferInstanceAs (Decidable (_ ≠ _))

theorem Inside.refl (cwd path : String) : Inside cwd path path := by
  unfold Inside
  rw [containedRelativePath_self]
  simp

/-- A mount whose very path leads to a target is found there. -/
theorem resolveRestoredBindMountPath_exact {cwd source target : String} {bindMounts : Record}
    (h : bindMounts.lookup source = some target) (hne : target ≠ "") :
    resolveRestoredBindMountPath cwd source bindMounts = .ok (some target) := by
  have htruthy : truthy (some target) = true := truthy_iff.mpr ⟨target, rfl, hne⟩
  unfold resolveRestoredBindMountPath
  rw [h, if_pos htruthy]

theorem mem_values_of_aliasMatches {source : String} {bindMounts : Record} {m : BindMountMatch}
    (h : m ∈ aliasMatches source bindMounts) : m.replacement ∈ bindMounts.values := by
  obtain ⟨entry, hentry, hm⟩ := List.mem_filterMap.mp h
  simp only at hm
  split at hm
  · cases hm
    exact List.mem_map.mpr ⟨entry, hentry, rfl⟩
  · cases hm

end ComposeBastion
