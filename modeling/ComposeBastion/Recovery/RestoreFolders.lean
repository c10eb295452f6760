import ComposeBastion.Js.Paths
import ComposeBastion.Recovery.RestoreNames
import Mathlib.Data.List.TakeWhile

namespace ComposeBastion

open Js

/-!
# The folders of a restore

`buildManagedRestoreBindPath` of `services/recoveryRestoreUtils.ts` gives a captured host folder a
directory of the restore root.  The directory has one name, which is the whole path with its
slashes replaced.

* `assertAllowedRestoreRoot` — the roots that are accepted;
* `segments_managedPath` — where the directory is, segment by segment;
* `managed_folders_iff` — when two directories are apart and in the folder of the recovery point.
-/

def managedRestoreRoot : String := "/var/lib/composebastion/restores"

def assertAllowedRestoreRoot (restoreRoot : Option String) : Except String String :=
  let normalized := posixNormalize (forwardSlashes (restoreRoot.getD managedRestoreRoot))
  if normalized = managedRestoreRoot ∨ startsWith normalized (managedRestoreRoot ++ "/") then
    .ok normalized
  else .error ("Restore root " ++ normalized ++ " is not allowed. Use " ++ managedRestoreRoot ++ ".")

/-- `s.replace(/^\//, "")`. -/
def dropSlash : List Char → List Char
  | '/' :: cs => cs
  | cs => cs

/-- `s.replace(/\//g, "_")`, of one character. -/
def flattenChar (c : Char) : Char := if c = '/' then '_' else c

/-- The name of the directory of a source path. -/
def restoreFolderName (sourcePath : String) : String :=
  let relative := (dropSlash (normalizeBindMountPath sourcePath).toList).map flattenChar
  if relative = [] then "root" else String.ofList relative

def buildManagedRestoreBindPath (restoreRoot recoveryPointId sourcePath : String) : String :=
  posixJoinAll [stripTrailingSlashes restoreRoot, recoveryPointId, restoreFolderName sourcePath]

/-- The folder `restoreRoot/recoveryPointId`. -/
def recoveryPointFolder (restoreRoot recoveryPointId : String) : String :=
  posixJoinAll [restoreRoot, recoveryPointId]

/-! ### Names -/

/-- The normalized path without its first slash, where the root counts as `root`. -/
def storedPath (sourcePath : String) : List Char :=
  let path := dropSlash (normalizeBindMountPath sourcePath).toList
  if path = [] then "root".toList else path

/-- Two characters that are one in a name. -/
def SameInName (c d : Char) : Prop := c = d ∨ (c ∈ ['/', '_'] ∧ d ∈ ['/', '_'])

/-- The paths of two folders differ by slashes for underscores only. -/
def SameFolder (sourcePath sourcePath' : String) : Prop :=
  List.Forall₂ SameInName (storedPath sourcePath) (storedPath sourcePath')

theorem flattenChar_eq_iff {c d : Char} : flattenChar c = flattenChar d ↔ SameInName c d := by
  simp only [flattenChar, SameInName, List.mem_cons, List.not_mem_nil, or_false]
  by_cases hc : c = '/'
  · by_cases hd : d = '/'
    · simp [hc, hd]
    · simp only [hc, hd, if_true, if_false, true_or, false_or, true_and]
      constructor
      · exact fun h => .inr h.symm
      · rintro (h | h)
        · exact absurd h.symm hd
        · exact h.symm
  · by_cases hd : d = '/'
    · simp only [hc, hd, if_true, if_false, true_or, false_or, and_true]
    · simp only [hc, hd, if_false, false_or]
      constructor
      · exact .inl
      · rintro (h | ⟨rfl, rfl⟩)
        · exact h
        · rfl

theorem toList_restoreFolderName (sourcePath : String) :
    (restoreFolderName sourcePath).toList = (storedPath sourcePath).map flattenChar := by
  rw [restoreFolderName, storedPath]
  by_cases hpath : dropSlash (normalizeBindMountPath sourcePath).toList = []
  · simp only [hpath, List.map_nil, if_true]
    decide
  · simp only [hpath, List.map_eq_nil_iff, if_false, String.toList_ofList]

theorem storedPath_ne_nil (sourcePath : String) : storedPath sourcePath ≠ [] := by
  rw [storedPath]
  by_cases hpath : dropSlash (normalizeBindMountPath sourcePath).toList = []
  · simp only [hpath, if_true]
    decide
  · rw [if_neg hpath]
    exact hpath

theorem isSegment_restoreFolderName (sourcePath : String) :
    IsSegment (restoreFolderName sourcePath).toList := by
  rw [toList_restoreFolderName]
  refine ⟨by simpa using storedPath_ne_nil sourcePath, fun hslash => ?_⟩
  obtain ⟨c, -, hc⟩ := List.mem_map.mp hslash
  rw [flattenChar] at hc
  split at hc
  · exact absurd hc (by decide)
  · next hne => exact hne hc

theorem restoreFolderName_eq_iff {sourcePath sourcePath' : String} :
    restoreFolderName sourcePath = restoreFolderName sourcePath' ↔
      SameFolder sourcePath sourcePath' := by
  rw [← String.toList_inj, toList_restoreFolderName, toList_restoreFolderName, map_eq_map_iff,
    SameFolder]
  simp only [flattenChar_eq_iff]

/-- The name is `.` or `..` for the path `.` or `..` only. -/
theorem restoreFolderName_dots (sourcePath : String) {dots : List Char}
    (hdots : ∀ c ∈ dots, c = '.') :
    (restoreFolderName sourcePath).toList = dots ↔ storedPath sourcePath = dots := by
  have hself : dots.map flattenChar = dots := by
    conv_rhs => rw [← List.map_id dots]
    refine List.map_congr_left fun c hc => ?_
    rw [hdots c hc]
    decide
  rw [toList_restoreFolderName]
  constructor
  · intro h
    rw [← hself, map_eq_map_iff] at h
    -- a dot is no slash and no underscore
    have hdot : ∀ {c d : Char}, flattenChar c = flattenChar d → d = '.' → c = '.' := by
      intro c d heq hd
      rcases flattenChar_eq_iff.mp heq with rfl | ⟨-, hd'⟩
      · exact hd
      · rw [hd] at hd'
        exact absurd hd' (by decide)
    clear hself
    generalize storedPath sourcePath = path at h
    induction h with
    | nil => rfl
    | @cons c d cs ds hhead _ ih =>
      rw [hdot hhead (hdots d List.mem_cons_self), hdots d List.mem_cons_self,
        ih fun e he => hdots e (List.mem_cons_of_mem d he)]
  · intro h
    rw [h, hself]

/-! ### Places -/

theorem head?_restoreRoot {restoreRoot : Option String} {root : String}
    (h : assertAllowedRestoreRoot restoreRoot = .ok root) :
    root.toList.head? = some '/' ∧ (stripTrailingSlashes root).toList.head? = some '/' := by
  have hprefix : managedRestoreRoot.toList <+: root.toList := by
    dsimp only [assertAllowedRestoreRoot] at h
    split at h
    · next hroot =>
      rw [← Except.ok.inj h]
      rcases hroot with hroot | hroot
      · rw [hroot]
      · have hfront := List.isPrefixOf_iff_prefix.mp hroot
        rw [String.toList_append] at hfront
        exact (List.prefix_append _ _).trans hfront
    · cases h
  obtain ⟨rest, hrest⟩ := hprefix
  have hhead : root.toList.head? = some '/' := by
    rw [← hrest]
    rfl
  refine ⟨hhead, ?_⟩
  have hstrip : (stripTrailingSlashes root).toList <+: root.toList := by
    rw [stripTrailingSlashes, String.toList_ofList, ← List.reverse_suffix, List.reverse_reverse]
    exact List.dropWhile_suffix _
  obtain ⟨slashes, hslashes⟩ := hstrip
  cases hchars : (stripTrailingSlashes root).toList with
  | nil =>
    -- the root has other characters than slashes
    have hnil : root.toList.reverse.dropWhile (· = '/') = [] := by
      rw [stripTrailingSlashes, String.toList_ofList, List.reverse_eq_nil_iff] at hchars
      exact hchars
    have hv := List.dropWhile_eq_nil_iff.mp hnil 'v' (List.mem_reverse.mpr (by
      rw [← hrest]
      exact List.mem_append_left _ (by decide)))
    exact absurd hv (by decide)
  | cons c cs =>
    rw [hchars] at hslashes
    rw [← hslashes] at hhead
    exact hhead

/-- The path that is normalized, in front of the name. -/
def folderText (root recoveryPointId : String) : String :=
  if recoveryPointId = "" then root else root ++ "/" ++ recoveryPointId

theorem folderText_join {root : String} (hroot : root ≠ "") (recoveryPointId : String)
    {rest : List String} (hrest : ∀ part ∈ rest, part ≠ "") :
    "/".intercalate (([root, recoveryPointId] ++ rest).filter (· ≠ "")) =
      "/".intercalate (folderText root recoveryPointId :: rest) := by
  have hfilter : rest.filter (· ≠ "") = rest :=
    List.filter_eq_self.mpr fun part hpart => by simpa using hrest part hpart
  rw [List.filter_append, hfilter, folderText]
  by_cases hid : recoveryPointId = ""
  · simp [hid, hroot]
  · rw [← String.toList_inj]
    cases rest with
    | nil => simp [hid, hroot]
    | cons part rest => simp [hid, hroot, String.toList_intercalate]

theorem segments_posixNormalize {path : String} (h : path.toList.head? = some '/') :
    segments (posixNormalize path).toList = resolved path.toList := by
  rw [posixNormalize, String.toList_ofList, segments_normalizeChars, if_neg (by simp [h])]

theorem head?_folderText {root : String} (h : root.toList.head? = some '/')
    (recoveryPointId : String) : (folderText root recoveryPointId).toList.head? = some '/' := by
  rw [folderText]
  split
  · exact h
  · rw [String.toList_append, String.toList_append, List.append_assoc, List.head?_append, h]
    rfl

theorem segments_folderText (root recoveryPointId : String) :
    segments (folderText root recoveryPointId).toList =
      segments root.toList ++ segments recoveryPointId.toList := by
  rw [folderText]
  split
  · next hid => rw [hid, show "".toList = [] from rfl, segments_nil, List.append_nil]
  · rw [String.toList_append, String.toList_append, List.append_assoc]
    exact segments_append _ _

theorem resolved_congr {path path' : List Char} (hhead : path.head? = path'.head?)
    (h : segments path = segments path') : resolved path = resolved path' := by
  rw [resolved_eq, resolved_eq, hhead, h]

theorem ne_empty_of_head? {text : String} (h : text.toList.head? = some '/') : text ≠ "" := by
  rintro rfl
  cases h

theorem segments_recoveryPointFolder {root : String} (h : root.toList.head? = some '/')
    (recoveryPointId : String) :
    segments (recoveryPointFolder root recoveryPointId).toList =
      resolved (folderText root recoveryPointId).toList := by
  rw [recoveryPointFolder, posixJoinAll, ← List.append_nil [root, recoveryPointId],
    folderText_join (ne_empty_of_head? h) recoveryPointId (by simp), String.intercalate_singleton,
    segments_posixNormalize (head?_folderText h recoveryPointId)]

/-- The segments of a directory with this name in the folder of the recovery point. -/
theorem segments_managedPath {restoreRoot : Option String} {root : String}
    (h : assertAllowedRestoreRoot restoreRoot = .ok root) (recoveryPointId sourcePath : String) :
    segments (buildManagedRestoreBindPath root recoveryPointId sourcePath).toList =
      (normalizeSegment false (segments (recoveryPointFolder root recoveryPointId).toList).reverse
        (restoreFolderName sourcePath).toList).reverse := by
  obtain ⟨hroot, hstrip⟩ := head?_restoreRoot h
  have hname : restoreFolderName sourcePath ≠ "" := by
    have := (isSegment_restoreFolderName sourcePath).1
    simpa using this
  have htarget : buildManagedRestoreBindPath root recoveryPointId sourcePath =
      posixNormalize (folderText (stripTrailingSlashes root) recoveryPointId ++ "/"
        ++ restoreFolderName sourcePath) := by
    have hparts : [stripTrailingSlashes root, recoveryPointId, restoreFolderName sourcePath] =
        [stripTrailingSlashes root, recoveryPointId] ++ [restoreFolderName sourcePath] := rfl
    rw [buildManagedRestoreBindPath, posixJoinAll, hparts,
      folderText_join (ne_empty_of_head? hstrip) recoveryPointId (by simpa using hname), intercalate_pair]
  have hhead := head?_folderText hstrip recoveryPointId
  have hsame : resolved (folderText (stripTrailingSlashes root) recoveryPointId).toList =
      resolved (folderText root recoveryPointId).toList := by
    refine resolved_congr (hhead.trans (head?_folderText hroot recoveryPointId).symm) ?_
    rw [segments_folderText, segments_folderText, segments_stripTrailingSlashes]
  have htext : (folderText (stripTrailingSlashes root) recoveryPointId ++ "/"
      ++ restoreFolderName sourcePath).toList =
        (folderText (stripTrailingSlashes root) recoveryPointId).toList ++
          '/' :: (restoreFolderName sourcePath).toList := by
    rw [String.toList_append, String.toList_append, List.append_assoc]
    rfl
  rw [htarget, segments_posixNormalize (by rw [htext, List.head?_append, hhead]; rfl), htext,
    resolved_append (by intro hnil; rw [hnil] at hhead; cases hhead)
      (isSegment_restoreFolderName sourcePath),
    hhead, hsame, segments_recoveryPointFolder hroot]
  rfl

/-! ### Directories that are apart -/

/-- Two directories, neither in the other, in a folder. -/
def FoldersApart (folder first second : String) : Prop :=
  first ≠ second ∧ ¬ Within first second ∧ ¬ Within second first ∧
    StrictlyWithin folder first ∧ StrictlyWithin folder second

/-- The name of the directory is neither `.` nor `..`. -/
def ProperFolder (sourcePath : String) : Prop :=
  storedPath sourcePath ≠ ['.'] ∧ storedPath sourcePath ≠ ['.', '.']

theorem isName_restoreFolderName {sourcePath : String} :
    IsName (restoreFolderName sourcePath).toList ↔ ProperFolder sourcePath := by
  have hne := (isSegment_restoreFolderName sourcePath).1
  have hdot := @restoreFolderName_dots sourcePath ['.'] (by simp)
  have hup := @restoreFolderName_dots sourcePath ['.', '.'] (by simp)
  constructor
  · rintro ⟨-, hd, hu⟩
    exact ⟨fun h => hd (hdot.mpr h), fun h => hu (hup.mpr h)⟩
  · rintro ⟨hd, hu⟩
    exact ⟨hne, fun h => hd (hdot.mp h), fun h => hu (hup.mp h)⟩

section
variable {restoreRoot : Option String} {root : String}

/-- With a proper name the directory is one level below. -/
theorem segments_properFolder (h : assertAllowedRestoreRoot restoreRoot = .ok root)
    (recoveryPointId : String) {sourcePath : String} (hproper : ProperFolder sourcePath) :
    segments (buildManagedRestoreBindPath root recoveryPointId sourcePath).toList =
      segments (recoveryPointFolder root recoveryPointId).toList ++
        [(restoreFolderName sourcePath).toList] := by
  rw [segments_managedPath h, normalizeSegment_isName (isName_restoreFolderName.mpr hproper),
    List.reverse_cons, List.reverse_reverse]

/-- Otherwise it is the folder itself, or the one above it. -/
theorem not_strictlyWithin (h : assertAllowedRestoreRoot restoreRoot = .ok root)
    (recoveryPointId : String) {sourcePath : String} (himproper : ¬ ProperFolder sourcePath) :
    ¬ StrictlyWithin (recoveryPointFolder root recoveryPointId)
      (buildManagedRestoreBindPath root recoveryPointId sourcePath) := by
  rintro ⟨rest, hrest, hsegments⟩
  have hpos : 0 < rest.length := List.length_pos_iff.mpr hrest
  have hlength := congrArg List.length hsegments
  rw [segments_managedPath h, List.length_append, List.length_reverse] at hlength
  -- no segment of the folder is `..`
  have hnames : ∀ segment ∈ (segments (recoveryPointFolder root recoveryPointId).toList).reverse,
      segment ≠ ['.', '.'] := by
    intro segment hsegment
    have hroot := (head?_restoreRoot h).1
    obtain ⟨k, names, hshape, hnames, hk⟩ :=
      resolved_shape (folderText root recoveryPointId).toList
    rw [List.mem_reverse, segments_recoveryPointFolder hroot, hshape,
      hk (head?_folderText hroot recoveryPointId), List.replicate_zero, List.nil_append] at hsegment
    exact (hnames segment hsegment).2.2
  have hle : ∀ (stack : List (List Char)), (∀ segment ∈ stack, segment ≠ ['.', '.']) →
      (normalizeSegment false stack (restoreFolderName sourcePath).toList).length ≤
        stack.length := by
    intro stack hstack
    rw [normalizeSegment.eq_def]
    by_cases hskip : (restoreFolderName sourcePath).toList = [] ∨
        (restoreFolderName sourcePath).toList = ['.']
    · rw [if_pos hskip]
    · have hup : (restoreFolderName sourcePath).toList = ['.', '.'] := by
        by_contra hup
        exact himproper (isName_restoreFolderName.mp
          ⟨(not_or.mp hskip).1, (not_or.mp hskip).2, hup⟩)
      rw [if_neg hskip, if_pos hup]
      cases stack with
      | nil => exact Nat.le_refl _
      | cons top rest =>
        simp only [if_neg (hstack top List.mem_cons_self)]
        exact Nat.le_succ _
  have := hle _ hnames
  rw [List.length_reverse] at this
  omega

end

/-- **When the directories of a restore are apart.**  For every accepted root, every recovery point
    id and any two source paths, the directories differ, are not in one another and lie in the
    folder of the recovery point, if and only if the normalized paths do not differ by slashes for
    underscores only and neither of them is `.` or `..`. -/
theorem managed_folders_iff {restoreRoot : Option String} {root : String}
    (h : assertAllowedRestoreRoot restoreRoot = .ok root)
    (recoveryPointId sourcePath sourcePath' : String) :
    FoldersApart (recoveryPointFolder root recoveryPointId)
        (buildManagedRestoreBindPath root recoveryPointId sourcePath)
        (buildManagedRestoreBindPath root recoveryPointId sourcePath') ↔
      ¬ SameFolder sourcePath sourcePath' ∧ ProperFolder sourcePath ∧ ProperFolder sourcePath' := by
  constructor
  · rintro ⟨hne, -, -, hfirst, hsecond⟩
    refine ⟨fun hsame => hne ?_, ?_, ?_⟩
    · rw [buildManagedRestoreBindPath, restoreFolderName_eq_iff.mpr hsame]
      rfl
    · by_contra himproper
      exact not_strictlyWithin h recoveryPointId himproper hfirst
    · by_contra himproper
      exact not_strictlyWithin h recoveryPointId himproper hsecond
  · rintro ⟨hsame, hproper, hproper'⟩
    have hfirst := segments_properFolder h recoveryPointId hproper
    have hsecond := segments_properFolder h recoveryPointId hproper'
    have hname : (restoreFolderName sourcePath).toList ≠ (restoreFolderName sourcePath').toList :=
      fun heq => hsame (restoreFolderName_eq_iff.mp (String.toList_inj.mp heq))
    -- of two lists of one length none is a prefix of the other
    have hapart : ∀ front : List (List Char), ∀ name name' : List Char, name ≠ name' →
        ¬ front ++ [name] <+: front ++ [name'] := by
      intro front name name' hne hprefix
      rw [List.prefix_append_right_inj, List.cons_prefix_cons] at hprefix
      exact hne hprefix.1
    refine ⟨?_, ?_, ?_, ⟨_, List.cons_ne_nil _ _, hfirst⟩, ⟨_, List.cons_ne_nil _ _, hsecond⟩⟩
    · intro heq
      rw [heq, hsecond] at hfirst
      exact hname (List.cons.inj (List.append_cancel_left hfirst)).1.symm
    · rw [Within, hfirst, hsecond]
      exact hapart _ _ _ hname
    · rw [Within, hfirst, hsecond]
      exact hapart _ _ _ hname.symm

/-! ### Folders with one directory -/

/-- The directory of a path for the recovery point `rp-1`. -/
def rp1Path (sourcePath : String) : String :=
  buildManagedRestoreBindPath managedRestoreRoot "rp-1" sourcePath

theorem app_folders_apart :
    FoldersApart (recoveryPointFolder managedRestoreRoot "rp-1") (rp1Path "/srv/app/data")
      (rp1Path "/srv/app/cache") := by
  have hroot : assertAllowedRestoreRoot none = .ok managedRestoreRoot := by decide +kernel
  refine (managed_folders_iff hroot "rp-1" "/srv/app/data" "/srv/app/cache").mpr
    ⟨fun hsame => ?_, ?_, ?_⟩
  · have hname := restoreFolderName_eq_iff.mpr hsame
    exact absurd hname (by decide +kernel)
  · exact ⟨by decide +kernel, by decide +kernel⟩
  · exact ⟨by decide +kernel, by decide +kernel⟩

/-- `/srv/a/b` and `/srv/a_b` are restored into one directory, and so are `/` and `/root`. -/
theorem nested_folder_merged :
    normalizeBindMountPath "/srv/a/b" ≠ normalizeBindMountPath "/srv/a_b" ∧
      rp1Path "/srv/a/b" = "/var/lib/composebastion/restores/rp-1/srv_a_b" ∧
      rp1Path "/srv/a_b" = "/var/lib/composebastion/restores/rp-1/srv_a_b" ∧
      rp1Path "/" = rp1Path "/root" ∧
      ¬ ∀ sourcePath sourcePath' : String,
        normalizeBindMountPath sourcePath ≠ normalizeBindMountPath sourcePath' →
        FoldersApart (recoveryPointFolder managedRestoreRoot "rp-1") (rp1Path sourcePath)
          (rp1Path sourcePath') := by
  have hne : normalizeBindMountPath "/srv/a/b" ≠ normalizeBindMountPath "/srv/a_b" := by
    decide +kernel
  have hnested : rp1Path "/srv/a/b" = "/var/lib/composebastion/restores/rp-1/srv_a_b" := by
    decide +kernel
  have hflat : rp1Path "/srv/a_b" = "/var/lib/composebastion/restores/rp-1/srv_a_b" := by
    decide +kernel
  refine ⟨hne, hnested, hflat, by decide +kernel, fun hall => ?_⟩
  exact (hall "/srv/a/b" "/srv/a_b" hne).1 (hnested.trans hflat.symm)

end ComposeBastion
