import ComposeBastion.Js.Paths
import ComposeBastion.Recovery.RestoreReconciler

namespace ComposeBastion

open Js

/-!
# Directories of a restore attempt

`services/recoveryRestoreAttempts.ts` and `services/remoteOwnedDirectory.ts`: the ledger of a
restore attempt names the directories it created on the host, and a cleanup removes them with
`find … -delete`.  The check before it compares paths as texts.

* `isSafeAbsoluteNonRootPath_iff`, `pathIsWithin_iff` — what the text tests say about segments;
* `assertAttemptDirectoryIsSafe_ok` — what the check accepts;
* `attemptOwnedDirectoryPaths`, `cleanupOperations` — what the cleanup command may move or remove:
  the directory, and the paths beside it that carry the attempt's ownership;
* `Cleanup.Issues` — the commands a cleanup program may run, whatever the host answers;
* `OwnedPath` — the directory or a sibling of it with a suffix of the attempt;
* `attempt_directories_safe` — everything a cleanup moves or removes is such a path, for a directory
  that the check has accepted.
-/

/-! ### Texts -/

open String in
/-- One state of the scan of `splitOn`: `l` is behind the last slash, `m` since then. -/
theorem splitOnAux_slash (l m r : List Char) (acc : List String) :
    String.splitOnAux (ofList (l ++ m ++ r)) "/" ⟨utf8Len l⟩ ⟨utf8Len l + utf8Len m⟩ 0 acc =
      acc.reverse ++ (List.splitOnPPrepend (· == '/') r m.reverse).map ofList := by
  induction r generalizing l m acc with
  | nil =>
    have hend : Pos.Raw.atEnd (ofList (l ++ m ++ [])) ⟨utf8Len l + utf8Len m⟩ = true := by
      rw [← utf8Len_append]
      exact (atEnd_of_valid (l ++ m) []).mpr rfl
    rw [String.splitOnAux, if_pos hend, extract_of_valid]
    simp
  | cons c r ih =>
    have hend : ¬Pos.Raw.atEnd (ofList (l ++ m ++ c :: r)) ⟨utf8Len l + utf8Len m⟩ = true := by
      rw [← utf8Len_append]
      exact fun h => List.cons_ne_nil _ _ ((atEnd_of_valid (l ++ m) (c :: r)).mp h)
    have hget : Pos.Raw.get (ofList (l ++ m ++ c :: r)) ⟨utf8Len l + utf8Len m⟩ = c := by
      rw [← utf8Len_append]
      exact get_of_valid (l ++ m) (c :: r)
    have hnext : Pos.Raw.next (ofList (l ++ m ++ c :: r)) ⟨utf8Len l + utf8Len m⟩ =
        ⟨utf8Len l + utf8Len m + c.utf8Size⟩ := by
      have h := next_of_valid (l ++ m) c r
      rwa [utf8Len_append] at h
    have hsep : Pos.Raw.get "/" 0 = '/' := by decide
    have hsepNext : Pos.Raw.next "/" 0 = ⟨1⟩ := by decide
    have hsepEnd : Pos.Raw.atEnd "/" ⟨1⟩ = true := by decide
    rw [String.splitOnAux, if_neg hend, hget, hsep]
    by_cases hc : (c == '/') = true
    · have hc' : c = '/' := by simpa using hc
      subst hc'
      simp only [hc, if_true, hnext, hsepNext, hsepEnd]
      have hun : Pos.Raw.unoffsetBy ⟨utf8Len l + utf8Len m + Char.utf8Size '/'⟩ ⟨1⟩ = ⟨utf8Len l + utf8Len m⟩ := by
        rfl
      rw [hun, extract_of_valid]
      have htext : l ++ m ++ '/' :: r = l ++ m ++ ['/'] ++ [] ++ r := by simp
      have hlen : utf8Len l + utf8Len m + Char.utf8Size '/' = utf8Len (l ++ m ++ ['/']) := by
        simp [Nat.add_assoc]
      have h := ih (l ++ m ++ ['/']) [] (ofList m :: acc)
      rw [utf8Len_nil, Nat.add_zero] at h
      rw [htext, hlen, h, @List.splitOnPPrepend_cons_pos _ (· == '/') '/' r m.reverse rfl, List.reverse_cons,
        List.append_assoc, List.reverse_reverse]
      rfl
    · rw [if_neg hc]
      have hun : Pos.Raw.unoffsetBy ⟨utf8Len l + utf8Len m⟩ 0 = ⟨utf8Len l + utf8Len m⟩ := rfl
      rw [hun, hnext]
      have htext : l ++ m ++ c :: r = l ++ (m ++ [c]) ++ r := by simp
      have hlen : utf8Len l + utf8Len m + c.utf8Size = utf8Len l + utf8Len (m ++ [c]) := by
        simp [Nat.add_assoc]
      rw [htext, hlen, ih l (m ++ [c]) acc, List.splitOnPPrepend_cons_neg (by simpa using hc),
        List.reverse_append]
      rfl

open String in
theorem splitOn_slash (s : String) :
    s.splitOn "/" = (s.toList.splitOn '/').map ofList := by
  have h := splitOnAux_slash [] [] s.toList []
  rw [List.nil_append, List.nil_append, String.ofList_toList] at h
  rw [String.splitOn, if_neg (by decide), List.splitOn_eq_splitOnP]
  exact h

/-- `value.trim().replace(/\/+$/, "")`. -/
def trimmedPath (value : String) : String := stripTrailingSlashes (Js.trim value)

theorem stripSlashes_eq (value : String) : stripSlashes value = stripTrailingSlashes value := rfl

/-! ### What the check accepts -/

/-- The text tests of the check together say that a path is absolute, not the root, and made of
    names only. -/
theorem isSafeAbsoluteNonRootPath_iff {value : String} :
    isSafeAbsoluteNonRootPath value = true ↔ IsProperPath value := by
  rw [isProperPath_iff, isSafeAbsoluteNonRootPath, stripSlashes_eq]
  simp only [Bool.and_eq_true, decide_eq_true_eq]
  constructor
  · rintro ⟨⟨⟨⟨hstart, -⟩, -⟩, hnormal⟩, hroot⟩
    have habsolute := isAbsolute_iff.mp hstart
    have hsegments : ∀ name ∈ resolved value.toList, IsSegment name := fun name hname =>
      isSegment_of_mem_resolved hname
    have hresolved : resolved value.toList ≠ [] := by
      intro heq
      apply hroot
      rw [posixNormalize, normalizeChars_absolute habsolute, heq]
      rfl
    refine ⟨resolved value.toList, hresolved, fun name hname =>
      ⟨isName_of_mem_resolved habsolute hname, (hsegments name hname).2⟩, ?_⟩
    -- a stripped text has no slash at its end, so the value has none
    rw [posixNormalize, normalizeChars_absolute habsolute] at hnormal
    have hlast : value.toList.getLast? ≠ some '/' := by
      intro hlast
      rw [if_pos ⟨hresolved, hlast⟩] at hnormal
      apply getLast?_stripTrailingSlashes value
      rw [← hnormal, String.toList_ofList, List.getLast?_concat]
    rw [if_neg fun h => hlast h.2, List.append_nil, stripTrailingSlashes_eq_self hlast] at hnormal
    exact (congrArg String.toList hnormal).symm.trans String.toList_ofList
  · rintro ⟨names, hne, hnames, htext⟩
    have hsegments : ∀ name ∈ names, IsSegment name := fun name hname =>
      ⟨(hnames name hname).1.1, (hnames name hname).2⟩
    have hlast : value.toList.getLast? ≠ some '/' := by
      rw [htext]
      exact getLast?_absoluteText hne hsegments
    have hnormal : posixNormalize value = value := by
      rw [posixNormalize, htext, normalizeChars_absolute rfl, resolved_absoluteText hnames,
        if_neg fun h => getLast?_absoluteText hne hsegments h.2, List.append_nil, ← htext,
        String.ofList_toList]
    have hroot : value ≠ "/" := by
      rintro rfl
      have h := segments_absoluteText hsegments
      rw [← htext] at h
      exact hne h.symm
    have hdots : (value.splitOn "/").contains ".." = false := by
      rw [splitOn_slash, ← Bool.not_eq_true, List.contains_iff_mem]
      intro hmem
      obtain ⟨part, hpart, hup⟩ := List.mem_map.mp hmem
      have hsegment : ['.', '.'] ∈ segments value.toList := by
        refine List.mem_filter.mpr ⟨?_, by decide⟩
        have hchars : part = ['.', '.'] := by
          rw [← String.toList_ofList (l := part), hup]
          rfl
        exact hchars ▸ hpart
      rw [htext, segments_absoluteText hsegments] at hsegment
      exact (hnames _ hsegment).1.2.2 rfl
    have hstart : startsWith value "/" = true := isAbsolute_iff.mpr (by rw [htext]; rfl)
    rw [hnormal, stripTrailingSlashes_eq_self hlast, hdots]
    exact ⟨⟨⟨⟨hstart, hroot⟩, rfl⟩, rfl⟩, hroot⟩

/-- **The text comparison is the one of segments** on proper paths. -/
theorem pathIsWithin_iff {parent child : String} (hparent : IsProperPath parent)
    (hchild : IsProperPath child) : pathIsWithin parent child = true ↔ Within parent child := by
  obtain ⟨hne, hparentText, -⟩ := hparent.segments_text
  obtain ⟨-, hchildText, -⟩ := hchild.segments_text
  have hslash : (parent ++ "/").toList = parent.toList ++ ['/'] := String.toList_append
  rw [pathIsWithin, stripSlashes_eq, hparent.stripTrailingSlashes_eq, Bool.or_eq_true,
    decide_eq_true_eq, startsWith, List.isPrefixOf_iff_prefix, hslash]
  constructor
  · rintro (rfl | ⟨rest, hrest⟩)
    · exact List.prefix_refl _
    · refine ⟨segments rest, ?_⟩
      rw [← hrest, List.append_assoc, List.singleton_append, segments_append]
  · rintro ⟨back, hback⟩
    by_cases hempty : back = []
    · left
      rw [hempty, List.append_nil] at hback
      rw [← String.toList_inj, hchildText, ← hback, ← hparentText]
    · right
      refine ⟨['/'].intercalate back, ?_⟩
      rw [hchildText, ← hback, absoluteText_append hne hempty, ← hparentText, List.append_assoc]
      rfl


/-- The allowed roots are the proper ones among the trimmed elements of the column. -/
theorem mem_allowedPathRoots {attempt : AttemptRow} {root : String} :
    root ∈ allowedPathRoots attempt ↔ IsProperPath root
      ∧ ∃ value ∈ attempt.allowedPathRoots, trimmedPath value = root := by
  rw [allowedPathRoots, List.mem_eraseDups, List.mem_filter, isSafeAbsoluteNonRootPath_iff,
    List.mem_map, and_comm]
  rfl

/-- **The check.**  A path is accepted exactly when what is left of it after trimming is a proper
    path in an allowed root, which is then what the check returns. -/
theorem assertAttemptDirectoryIsSafe_ok {attempt : AttemptRow} {targetPath raw : String} :
    assertAttemptDirectoryIsSafe attempt targetPath = .ok raw ↔ raw = trimmedPath targetPath
      ∧ IsProperPath raw ∧ ∃ root ∈ allowedPathRoots attempt, Within root raw := by
  unfold assertAttemptDirectoryIsSafe
  rw [stripSlashes_eq]
  change (if (!isSafeAbsoluteNonRootPath (trimmedPath targetPath)) = true then _
    else if (!(allowedPathRoots attempt).any (pathIsWithin · (trimmedPath targetPath))) = true
      then _ else Except.ok (trimmedPath targetPath)) = _ ↔ _
  by_cases hsafe : isSafeAbsoluteNonRootPath (trimmedPath targetPath) = true
  · have hproper := isSafeAbsoluteNonRootPath_iff.mp hsafe
    have hwithin : (allowedPathRoots attempt).any (pathIsWithin · (trimmedPath targetPath)) = true
        ↔ ∃ root ∈ allowedPathRoots attempt, Within root (trimmedPath targetPath) := by
      rw [List.any_eq_true]
      exact exists_congr fun root => and_congr_right fun hroot =>
        pathIsWithin_iff (mem_allowedPathRoots.mp hroot).1 hproper
    rw [hsafe, Bool.not_true, if_neg Bool.false_ne_true]
    by_cases hroots : ∃ root ∈ allowedPathRoots attempt, Within root (trimmedPath targetPath)
    · rw [hwithin.mpr hroots, Bool.not_true, if_neg Bool.false_ne_true]
      constructor
      · intro h
        obtain rfl := Except.ok.inj h
        exact ⟨rfl, hproper, hroots⟩
      · rintro ⟨rfl, -, -⟩
        rfl
    · rw [Bool.eq_false_iff.mpr (mt hwithin.mp hroots), Bool.not_false, if_pos rfl]
      refine ⟨fun h => (nomatch h), ?_⟩
      rintro ⟨rfl, -, hroots'⟩
      exact absurd hroots' hroots
  · rw [Bool.eq_false_iff.mpr hsafe, Bool.not_false, if_pos rfl]
    refine ⟨fun h => (nomatch h), ?_⟩
    rintro ⟨rfl, hproper, -⟩
    exact absurd (isSafeAbsoluteNonRootPath_iff.mpr hproper) hsafe

/-! ### The command -/

/-- `ownedRemoteDirectoryMarkerPaths` and `attemptOwnedDirectoryPaths`, as far as their paths are
    moved or removed. -/
structure OwnedDirectoryPaths where
  target : String
  markerPath : String
  acquisitionMarker : String
  acquisitionBuild : String
  stagingTarget : String
  targetQuarantine : String
  markerQuarantine : String
  acquisitionQuarantine : String
  acquisitionBuildQuarantine : String
  stagingQuarantine : String
  deriving DecidableEq, Repr

/-- `assertSafeOwnedRemoteDirectoryPath`. -/
def assertSafeOwnedRemoteDirectoryPath (value : String) : Except String String :=
  let raw := trimmedPath value
  let normalized := posixNormalize raw
  if !startsWith raw "/" || raw = "/" || (raw.toList.splitOn '/').any (· = ['.', '.'])
      || normalized ≠ raw then
    .error "Attempt-owned remote directory must be a canonical absolute non-root path"
  else .ok normalized

/-- `/^[A-Za-z0-9._-]{8,128}$/`. -/
def isSafeAttemptToken (value : String) : Bool :=
  value.toList.all (fun c => c.isAlphanum || c = '.' || c = '_' || c = '-')
    && 8 ≤ value.toList.length && value.toList.length ≤ 128

/-- `attemptOwnedDirectoryPaths`. -/
def attemptOwnedDirectoryPaths (targetPath attemptToken : String) :
    Except String OwnedDirectoryPaths := do
  let target ← assertSafeOwnedRemoteDirectoryPath targetPath
  if !isSafeAttemptToken attemptToken then
    throw "Restore attempt token is unsafe for a quarantine path"
  let markerPath := target ++ ".composebastion-restore-owner"
  let acquisitionMarker := markerPath ++ ".acquire-" ++ attemptToken
  return {
    target
    markerPath
    acquisitionMarker
    acquisitionBuild := acquisitionMarker ++ ".building"
    stagingTarget := target ++ ".acquire-" ++ attemptToken
    targetQuarantine := target ++ ".composebastion-delete-" ++ attemptToken
    markerQuarantine := markerPath ++ ".composebastion-delete-" ++ attemptToken
    acquisitionQuarantine := acquisitionMarker ++ ".composebastion-delete"
    acquisitionBuildQuarantine := acquisitionMarker ++ ".building.composebastion-delete"
    stagingQuarantine := target ++ ".acquire-" ++ attemptToken ++ ".composebastion-delete" }

/-- What the command does to the file system of the host. -/
inductive HostFileOperation
  /-- `mv -T -n -- source target` -/
  | move (source target : String)
  /-- `find path -xdev -depth -delete` -/
  | removeTree (path : String)
  /-- `rmdir -- path` -/
  | removeEmpty (path : String)
  deriving DecidableEq, Repr

/-- The paths an operation moves or removes. -/
def HostFileOperation.paths : HostFileOperation → List String
  | move source target => [source, target]
  | removeTree path => [path]
  | removeEmpty path => [path]

/-- `removeBoundDirectory`. -/
def removeBoundDirectory (originalPath quarantinePath : String) : List HostFileOperation :=
  [.move originalPath quarantinePath, .removeTree quarantinePath]

/-- The operations `buildCleanupOwnedRemoteDirectoryCommand` may run, in its order.  The tests
    before each of them only leave operations out. -/
def cleanupOperations (paths : OwnedDirectoryPaths) : List HostFileOperation :=
  removeBoundDirectory paths.target paths.targetQuarantine
    ++ [.move paths.markerPath paths.markerQuarantine, .removeTree paths.markerQuarantine]
    ++ removeBoundDirectory paths.stagingTarget paths.stagingQuarantine
    ++ removeBoundDirectory paths.target paths.targetQuarantine
    ++ [.removeEmpty paths.stagingTarget,
      .move paths.acquisitionMarker paths.acquisitionQuarantine,
      .removeTree paths.acquisitionQuarantine,
      .move paths.acquisitionBuild paths.acquisitionBuildQuarantine,
      .removeTree paths.acquisitionBuildQuarantine]

/-- The operations of `CleanupCommand.cleanupOwnedDirectory` on the files of the host. -/
def directoryOperations (targetPath attemptToken : String) : List HostFileOperation :=
  match attemptOwnedDirectoryPaths targetPath attemptToken with
  | .error _ => []
  | .ok paths => cleanupOperations paths

/-! ### What a cleanup touches -/

/-- What the paths of an attempt append to the name of its directory. -/
def ownershipSuffixes (attemptToken : String) : List String :=
  let owner := ".composebastion-restore-owner"
  let acquire := ".acquire-" ++ attemptToken
  ["", owner, owner ++ acquire, owner ++ acquire ++ ".building", acquire,
    ".composebastion-delete-" ++ attemptToken, owner ++ ".composebastion-delete-" ++ attemptToken,
    owner ++ acquire ++ ".composebastion-delete",
    owner ++ acquire ++ ".building.composebastion-delete", acquire ++ ".composebastion-delete"]

/-- The paths of an attempt. -/
def OwnedDirectoryPaths.all (paths : OwnedDirectoryPaths) : List String :=
  [paths.target, paths.markerPath, paths.acquisitionMarker, paths.acquisitionBuild,
    paths.stagingTarget, paths.targetQuarantine, paths.markerQuarantine,
    paths.acquisitionQuarantine, paths.acquisitionBuildQuarantine, paths.stagingQuarantine]

/-- The command moves and removes paths of the attempt only. -/
theorem mem_all_of_mem_cleanupOperations {paths : OwnedDirectoryPaths}
    {operation : HostFileOperation} (h : operation ∈ cleanupOperations paths) {path : String}
    (hpath : path ∈ operation.paths) : path ∈ paths.all := by
  have hall : ∀ operation ∈ cleanupOperations paths, operation.paths ⊆ paths.all := by
    simp [cleanupOperations, removeBoundDirectory, HostFileOperation.paths, OwnedDirectoryPaths.all]
  exact hall operation h hpath

/-- The paths of an attempt append an ownership suffix to its directory, when that is proper and
    has no white space around it. -/
theorem all_attemptOwnedDirectoryPaths {raw attemptToken : String} {paths : OwnedDirectoryPaths}
    (h : attemptOwnedDirectoryPaths raw attemptToken = .ok paths) (hproper : IsProperPath raw)
    (htrim : trim raw = raw) : isSafeAttemptToken attemptToken = true
      ∧ paths.all = (ownershipSuffixes attemptToken).map (raw ++ ·) := by
  obtain ⟨target, htarget, hpaths⟩ := bind_eq_ok.mp h
  have hraw : target = raw := by
    unfold assertSafeOwnedRemoteDirectoryPath at htarget
    rw [trimmedPath, htrim, hproper.stripTrailingSlashes_eq] at htarget
    simp only at htarget
    split at htarget
    · exact nomatch htarget
    · rename_i hchecks
      have hfacts : ((startsWith raw "/" = true ∧ ¬raw = "/")
          ∧ ['.', '.'] ∉ List.splitOn '/' raw.toList) ∧ posixNormalize raw = raw := by
        simpa using hchecks
      rw [← Except.ok.inj htarget, hfacts.2]
  subst hraw
  by_cases htoken : isSafeAttemptToken attemptToken = true
  · rw [if_neg (by rw [htoken]; exact Bool.false_ne_true)] at hpaths
    refine ⟨htoken, ?_⟩
    rw [← Except.ok.inj hpaths]
    simp only [OwnedDirectoryPaths.all, ownershipSuffixes, List.map_cons, List.map_nil,
      String.append_assoc, String.append_empty]
  · rw [if_pos (by rw [Bool.eq_false_iff.mpr htoken]; rfl)] at hpaths
    exact nomatch hpaths

/-- No ownership suffix leads into another folder. -/
theorem notMem_of_mem_ownershipSuffixes {attemptToken : String}
    (htoken : isSafeAttemptToken attemptToken = true) {suffix : String}
    (h : suffix ∈ ownershipSuffixes attemptToken) : '/' ∉ suffix.toList := by
  have hslash : '/' ∉ attemptToken.toList := by
    intro hmem
    rw [isSafeAttemptToken, Bool.and_eq_true, Bool.and_eq_true, List.all_eq_true] at htoken
    exact absurd (htoken.1.1 '/' hmem) (by decide)
  have hall : ∀ suffix ∈ ownershipSuffixes attemptToken, '/' ∉ suffix.toList := by
    simp [ownershipSuffixes, hslash]
  exact hall suffix h

/-- An ownership suffix is empty or long. -/
theorem length_of_mem_ownershipSuffixes {attemptToken suffix : String}
    (h : suffix ∈ ownershipSuffixes attemptToken) : suffix = "" ∨ 2 ≤ suffix.toList.length := by
  have howner : (".composebastion-restore-owner" : String).toList.length = 29 := by decide
  have hacquire : (".acquire-" : String).toList.length = 9 := by decide
  have hdelete : (".composebastion-delete-" : String).toList.length = 23 := by decide
  simp only [ownershipSuffixes, List.mem_cons, List.not_mem_nil, or_false] at h
  rcases h with rfl | rfl | rfl | rfl | rfl | rfl | rfl | rfl | rfl | rfl
  · exact Or.inl rfl
  all_goals
    right
    simp only [String.toList_append, List.length_append, howner, hacquire, hdelete]
    omega

/-- Appending to a proper path is appending to its last name. -/
theorem append_names {target : String} (htarget : IsProperPath target) (suffix : String) :
    ∃ init last, segments target.toList = init ++ [last]
      ∧ (∀ name ∈ init ++ [last], IsName name ∧ '/' ∉ name)
      ∧ (target ++ suffix).toList = absoluteText (init ++ [last ++ suffix.toList]) := by
  obtain ⟨names, hne, hnames, htext⟩ := isProperPath_iff.mp htarget
  have hsegments : segments target.toList = names := by
    rw [htext]
    exact segments_absoluteText fun name hname => ⟨(hnames name hname).1.1, (hnames name hname).2⟩
  obtain ⟨init, last, rfl⟩ := (List.eq_nil_or_concat' _).resolve_left hne
  refine ⟨init, last, hsegments, hnames, ?_⟩
  rw [String.toList_append, htext]
  by_cases hinit : init = []
  · rw [hinit]
    simp [absoluteText]
  · rw [absoluteText_append hinit (List.cons_ne_nil _ _),
      absoluteText_append hinit (List.cons_ne_nil _ _)]
    simp [absoluteText]

/-- A path beside a proper one is proper, when its name is longer by two characters or more. -/
theorem isProperPath_append {target suffix : String} (htarget : IsProperPath target)
    (hsuffix : '/' ∉ suffix.toList) (hlong : suffix = "" ∨ 2 ≤ suffix.toList.length) :
    IsProperPath (target ++ suffix) := by
  rcases hlong with rfl | hlong
  · rwa [String.append_empty]
  · obtain ⟨init, last, -, hnames, htext⟩ := append_names htarget suffix
    refine isProperPath_iff.mpr ⟨_, List.concat_ne_nil _ _, fun name hname => ?_, htext⟩
    rcases List.mem_append.mp hname with hname | hname
    · exact hnames name (List.mem_append_left _ hname)
    · obtain rfl := List.mem_singleton.mp hname
      obtain ⟨⟨hempty, -, -⟩, hslash⟩ := hnames last (List.mem_append_right _ List.mem_cons_self)
      have hlength : 3 ≤ (last ++ suffix.toList).length := by
        have hpos := List.length_pos_iff.mpr hempty
        rw [List.length_append]
        omega
      refine ⟨⟨?_, ?_, ?_⟩, fun hmem => (List.mem_append.mp hmem).elim hslash hsuffix⟩
      · intro heq
        rw [heq] at hlength
        exact absurd hlength (by decide)
      · intro heq
        rw [heq] at hlength
        exact absurd hlength (by decide)
      · intro heq
        rw [heq] at hlength
        exact absurd hlength (by decide)

/-- A path beside a directory lies in every folder the directory lies in, unless the directory
    is that folder. -/
theorem within_append {root target suffix : String} (hroot : IsProperPath root)
    (htarget : IsProperPath target) (hwithin : Within root target) (hne : root ≠ target)
    (hsuffix : '/' ∉ suffix.toList) : Within root (target ++ suffix) := by
  obtain ⟨-, htext, -⟩ := htarget.segments_text
  obtain ⟨-, hrootText, -⟩ := hroot.segments_text
  obtain ⟨init, last, hlast, hnames, hsame⟩ := append_names htarget suffix
  have hbefore : segments root.toList <+: init := by
    unfold Within at hwithin
    rw [hlast] at hwithin
    rcases List.prefix_concat_iff.mp hwithin with heq | hbefore
    · refine absurd ?_ hne
      rw [← String.toList_inj, hrootText, htext, heq, hlast]
    · exact hbefore
  have hparts : segments (target ++ suffix).toList = init ++ [last ++ suffix.toList] := by
    rw [hsame]
    refine segments_absoluteText fun name hname => ?_
    rcases List.mem_append.mp hname with hname | hname
    · have h := hnames name (List.mem_append_left _ hname)
      exact ⟨h.1.1, h.2⟩
    · obtain rfl := List.mem_singleton.mp hname
      have h := hnames last (List.mem_append_right _ List.mem_cons_self)
      exact ⟨fun heq => h.1.1 (List.append_eq_nil_iff.mp heq).1, fun hmem =>
        (List.mem_append.mp hmem).elim h.2 hsuffix⟩
  unfold Within
  rw [hparts]
  exact hbefore.trans (List.prefix_append _ _)

/-- A path that the cleanup of a directory may touch: the directory or a sibling of it with a suffix
    of the attempt, and in every allowed root the directory lies in, but for a root that is the
    directory itself. -/
structure OwnedPath (attempt : AttemptRow) (directory path : String) : Prop where
  suffix : ∃ suffix ∈ ownershipSuffixes attempt.id, '/' ∉ suffix.toList ∧ path = directory ++ suffix
  proper : IsProperPath path
  inside : ∀ root ∈ allowedPathRoots attempt, Within root directory → root ≠ directory →
    Within root path

/-! ### The commands of a cleanup -/

/-- The program runs the command, for some answers of the host. -/
def Cleanup.Issues (command : CleanupCommand) : Cleanup → Prop
  | .done => False
  | .fail _ => False
  | .renew next => next.Issues command
  | .claimed first next => command = first ∨ ∃ result, (next result).Issues command
  | .disposition _ _ next => next.Issues command

section Programs

variable {attempt : AttemptRow} {targetPath ownerValue attemptToken : String}

/-- A cleanup of a Docker resource removes no directory itself. -/
theorem issues_cleanupDockerResource {kind : RestoreDockerKind} {resourceName : String}
    {next : ResourceStatus → Cleanup}
    (h : (cleanupDockerResource attempt kind resourceName next).Issues
      (.cleanupOwnedDirectory targetPath ownerValue attemptToken)) :
    ∃ status, (next status).Issues
      (.cleanupOwnedDirectory targetPath ownerValue attemptToken) := by
  obtain h | ⟨inspect, h⟩ := h
  · exact nomatch h
  · beta_reduce at h
    split at h
    · split at h
      · exact ⟨_, h⟩
      · exact h.elim
    · split at h
      · exact ⟨_, h⟩
      · split at h
        · exact ⟨_, h⟩
        · obtain h | ⟨boundary, h⟩ := h
          · exact nomatch h
          · beta_reduce at h
            split at h
            · exact ⟨_, h⟩
            · split at h
              · exact ⟨_, h⟩
              · obtain h | ⟨removed, h⟩ := h
                · exact nomatch h
                · beta_reduce at h
                  split at h
                  · exact h.elim
                  · exact ⟨_, h⟩

theorem issues_listComposeProjectResources {projectName : String}
    {next : List (RestoreDockerKind × String) → Cleanup} {kinds : List RestoreDockerKind}
    {resources : List (RestoreDockerKind × String)}
    (h : (listComposeProjectResources projectName next kinds resources).Issues
      (.cleanupOwnedDirectory targetPath ownerValue attemptToken)) :
    ∃ resources, (next resources).Issues
      (.cleanupOwnedDirectory targetPath ownerValue attemptToken) := by
  induction kinds generalizing resources with
  | nil => exact ⟨resources, h⟩
  | cons kind kinds ih =>
    obtain h | ⟨result, h⟩ := h
    · exact nomatch h
    · beta_reduce at h
      split at h
      · exact h.elim
      · exact ih h

theorem issues_discoverComposeResources {next : List ResourceRow → Cleanup}
    {projects discovered : List ResourceRow}
    (h : (discoverComposeResources next projects discovered).Issues
      (.cleanupOwnedDirectory targetPath ownerValue attemptToken)) :
    ∃ discovered, (next discovered).Issues
      (.cleanupOwnedDirectory targetPath ownerValue attemptToken) := by
  induction projects generalizing discovered with
  | nil => exact ⟨discovered, h⟩
  | cons project projects ih =>
    obtain ⟨items, h⟩ := issues_listComposeProjectResources h
    exact ih h

theorem issues_cleanupDockerResources {stored : List ResourceRow} {next : Cleanup}
    {resources : List ResourceRow} {seen : List (RestoreResourceKind × String)}
    (h : (cleanupDockerResources attempt stored next resources seen).Issues
      (.cleanupOwnedDirectory targetPath ownerValue attemptToken)) :
    next.Issues (.cleanupOwnedDirectory targetPath ownerValue attemptToken) := by
  induction resources generalizing seen with
  | nil => exact h
  | cons resource rest ih =>
    rw [cleanupDockerResources] at h
    split at h
    · exact ih h
    · split at h
      · exact ih h
      · obtain ⟨status, h⟩ := issues_cleanupDockerResource h
        split at h
        · split at h <;> exact ih h
        · exact ih h

theorem issues_markAllCleaned {renew : Bool} {next : Cleanup} {resources : List ResourceRow}
    (h : (markAllCleaned renew next resources).Issues
      (.cleanupOwnedDirectory targetPath ownerValue attemptToken)) :
    next.Issues (.cleanupOwnedDirectory targetPath ownerValue attemptToken) := by
  induction resources with
  | nil => exact h
  | cons resource rest ih =>
    rw [markAllCleaned] at h
    cases renew with
    | false => exact ih h
    | true => exact ih h

/-- **Run.**  The loop over the directories runs the command on accepted directories only. -/
theorem issues_cleanupDirectories {host : CleanupHost} {next : Cleanup}
    {resources : List ResourceRow}
    (h : (cleanupDirectories host attempt next resources).Issues
      (.cleanupOwnedDirectory targetPath ownerValue attemptToken)) :
    (∃ resource ∈ resources,
        assertAttemptDirectoryIsSafe attempt resource.resourceName = .ok targetPath
          ∧ attemptToken = attempt.id)
      ∨ next.Issues (.cleanupOwnedDirectory targetPath ownerValue attemptToken) := by
  induction resources with
  | nil => exact .inr h
  | cons resource rest ih =>
    have hrest : (cleanupDirectories host attempt next rest).Issues
          (.cleanupOwnedDirectory targetPath ownerValue attemptToken) →
        (∃ other ∈ resource :: rest,
            assertAttemptDirectoryIsSafe attempt other.resourceName = .ok targetPath
              ∧ attemptToken = attempt.id)
          ∨ next.Issues (.cleanupOwnedDirectory targetPath ownerValue attemptToken) := by
      intro h
      rcases ih h with ⟨other, hother, hfacts⟩ | h
      · exact .inl ⟨other, List.mem_cons_of_mem _ hother, hfacts⟩
      · exact .inr h
    rw [cleanupDirectories, cleanupOwnedDirectory] at h
    split at h
    · exact h.elim
    · split at h
      · exact h.elim
      · rename_i normalizedTargetPath haccepted
        obtain heq | ⟨result, h⟩ := h
        · obtain ⟨rfl, -, rfl⟩ := CleanupCommand.cleanupOwnedDirectory.inj heq
          exact .inl ⟨resource, List.mem_cons_self, haccepted, rfl⟩
        · beta_reduce at h
          split at h
          · exact hrest h
          · split at h
            · exact h.elim
            · exact hrest h

/-- A cleanup runs the command on accepted directories of the ledger only. -/
theorem issues_cleanupAttemptResources {host : CleanupHost} {resources : List ResourceRow}
    (h : (cleanupAttemptResources host attempt resources).Issues
      (.cleanupOwnedDirectory targetPath ownerValue attemptToken)) :
    ∃ resource ∈ resources, resource.kind = .directory
      ∧ assertAttemptDirectoryIsSafe attempt resource.resourceName = .ok targetPath
      ∧ attemptToken = attempt.id := by
  rw [cleanupAttemptResources] at h
  split at h
  · exact (issues_markAllCleaned h).elim
  · obtain ⟨discovered, hdocker⟩ := issues_discoverComposeResources h
    beta_reduce at hdocker
    have hproject := issues_cleanupDockerResources hdocker
    have hdirectories := issues_markAllCleaned hproject
    rcases issues_cleanupDirectories hdirectories with
      ⟨resource, hresource, haccepted, htoken⟩ | h
    · obtain ⟨hresource, hkind⟩ := List.mem_filter.mp (List.mem_mergeSort.mp hresource)
      exact ⟨resource, hresource, by simpa using hkind, haccepted, htoken⟩
    · exact (issues_markAllCleaned h).elim

end Programs

/-- What the command touches on an accepted directory. -/
theorem ownedPath_of_accepted {attempt : AttemptRow} {name directory : String}
    (haccepted : assertAttemptDirectoryIsSafe attempt name = .ok directory)
    (htrim : Js.trim directory = directory) {operation : HostFileOperation}
    (hoperation : operation ∈ directoryOperations directory attempt.id)
    {path : String} (hpath : path ∈ operation.paths) : OwnedPath attempt directory path := by
  obtain ⟨-, hproper, -⟩ := assertAttemptDirectoryIsSafe_ok.mp haccepted
  unfold directoryOperations at hoperation
  cases hpaths : attemptOwnedDirectoryPaths directory attempt.id with
  | error error =>
    rw [hpaths] at hoperation
    cases hoperation
  | ok paths =>
    rw [hpaths] at hoperation
    obtain ⟨htoken, hall⟩ := all_attemptOwnedDirectoryPaths hpaths hproper htrim
    have hmem := mem_all_of_mem_cleanupOperations hoperation hpath
    rw [hall] at hmem
    obtain ⟨suffix, hsuffix, rfl⟩ := List.mem_map.mp hmem
    have hslash := notMem_of_mem_ownershipSuffixes htoken hsuffix
    exact {
      suffix := ⟨suffix, hsuffix, hslash, rfl⟩
      proper := isProperPath_append hproper hslash (length_of_mem_ownershipSuffixes hsuffix)
      inside := fun root hroot hwithin hne =>
        within_append (mem_allowedPathRoots.mp hroot).1 hproper hwithin hne hslash
    }

/-- **Attempt directories.**  The check accepts the proper paths in an allowed root, up to white
    space and slashes around them.  A cleanup runs its command on what the check has returned for a
    directory of the ledger, under the attempt's own id; what it moves or removes there, when the
    directory does not end in white space, is that directory or a sibling of it with a suffix of the
    attempt, a proper path too, and it lies in every allowed root that the directory lies in, but for
    a root that is the directory. -/
theorem attempt_directories_safe (attempt : AttemptRow) :
    (∀ targetPath raw, assertAttemptDirectoryIsSafe attempt targetPath = .ok raw
        ↔ raw = trimmedPath targetPath ∧ IsProperPath raw
          ∧ ∃ root ∈ allowedPathRoots attempt, IsProperPath root ∧ Within root raw)
      ∧ ∀ host resources targetPath ownerValue attemptToken,
        (cleanupAttemptResources host attempt resources).Issues
            (.cleanupOwnedDirectory targetPath ownerValue attemptToken) →
          (∃ resource ∈ resources, resource.kind = .directory
              ∧ assertAttemptDirectoryIsSafe attempt resource.resourceName = .ok targetPath)
            ∧ attemptToken = attempt.id
            ∧ (Js.trim targetPath = targetPath →
              ∀ operation ∈ directoryOperations targetPath attemptToken,
                ∀ path ∈ operation.paths, OwnedPath attempt targetPath path) := by
  refine ⟨fun targetPath raw => ?_, fun host resources targetPath ownerValue attemptToken h => ?_⟩
  · rw [assertAttemptDirectoryIsSafe_ok]
    refine and_congr_right fun _ => and_congr_right fun _ => exists_congr fun root =>
      and_congr_right fun hroot => ?_
    exact ⟨fun h => ⟨(mem_allowedPathRoots.mp hroot).1, h⟩, And.right⟩
  · obtain ⟨resource, hresource, hkind, haccepted, rfl⟩ := issues_cleanupAttemptResources h
    exact ⟨⟨resource, hresource, hkind, haccepted⟩, rfl, fun htrim operation hoperation path hpath =>
      ownedPath_of_accepted haccepted htrim hoperation hpath⟩

/-- An attempt that restored one folder of a host. -/
def folderAttempt : AttemptRow where
  id := "5f0c1d52-8f1e-4b5e-9a58-0d1c5a9b7e11"
  recoveryPointId := some "p1"
  backupId := none
  targetHostId := "h1"
  operationJobId := none
  migrationRunId := none
  restoreScope := "recovery-point"
  allowedPathRoots := ["/srv/restore/app"]
  retainOnSuccess := true
  status := .reconciling
  heartbeatAt := 0
  cleanupNotBefore := none
  reconciliationToken := some "t1"
  reconciliationStartedAt := some 0
  lastError := none
  completedAt := none
  createdAt := 0

/-- The folder in the ledger of the attempt, as a caller may spell it. -/
def folderResource : ResourceRow :=
  ⟨folderAttempt.id, .directory, " /srv/restore/app/", .observed, 0⟩

/-- A spelling with a space and a slash around the folder is accepted, and the cleanup removes a
    path beside the allowed root. -/
theorem cleanup_beside_root :
    assertAttemptDirectoryIsSafe folderAttempt folderResource.resourceName = .ok "/srv/restore/app"
      ∧ (cleanupAttemptResources ⟨false, true⟩ folderAttempt [folderResource]).Issues
        (.cleanupOwnedDirectory "/srv/restore/app" (restoreOwnershipValue folderAttempt)
          folderAttempt.id)
      ∧ ¬∀ operation ∈ directoryOperations "/srv/restore/app" folderAttempt.id,
        ∀ path ∈ operation.paths, ∃ root ∈ allowedPathRoots folderAttempt, Within root path := by
  have hproper : IsProperPath "/srv/restore/app" :=
    ⟨"srv/restore/app".toList, rfl, by decide⟩
  have hroots : ∀ root, root ∈ allowedPathRoots folderAttempt ↔ root = "/srv/restore/app" := by
    intro root
    rw [mem_allowedPathRoots]
    constructor
    · rintro ⟨-, value, hvalue, rfl⟩
      rw [List.mem_singleton.mp hvalue]
      decide
    · rintro rfl
      exact ⟨hproper, "/srv/restore/app", List.mem_singleton.mpr rfl, by decide⟩
  have haccepted : assertAttemptDirectoryIsSafe folderAttempt folderResource.resourceName =
      .ok "/srv/restore/app" :=
    assertAttemptDirectoryIsSafe_ok.mpr ⟨by decide, hproper, "/srv/restore/app",
      (hroots _).mpr rfl, List.prefix_refl _⟩
  refine ⟨haccepted, ?_, fun h => ?_⟩
  · have hdirectories : ([folderResource].filter fun row => decide (row.kind = .directory)) =
        [folderResource] := rfl
    have hprojects : ([folderResource].filter fun row => decide (row.kind = .composeProject)) =
        [] := rfl
    have hdocker : ([folderResource].filter fun row => row.kind.docker.isSome) = [] := rfl
    rw [cleanupAttemptResources, if_neg Bool.false_ne_true]
    simp only [hdirectories, hprojects, hdocker, List.append_nil, List.mergeSort_nil,
      List.mergeSort_singleton, discoverComposeResources, cleanupDockerResources, markAllCleaned,
      cleanupDirectories, cleanupOwnedDirectory, haccepted, Bool.not_true, Bool.false_eq_true,
      if_false]
    exact .inl rfl
  · have hremoved : HostFileOperation.removeTree
          "/srv/restore/app.composebastion-delete-5f0c1d52-8f1e-4b5e-9a58-0d1c5a9b7e11"
        ∈ directoryOperations "/srv/restore/app" folderAttempt.id := by
      decide +kernel
    obtain ⟨root, hroot, hwithin⟩ := h _ hremoved _ (List.mem_singleton.mpr rfl)
    rw [(hroots root).mp hroot] at hwithin
    exact absurd hwithin (by decide +kernel)

end ComposeBastion
