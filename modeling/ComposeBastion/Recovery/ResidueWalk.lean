import ComposeBastion.Recovery.TemporaryResidue

namespace ComposeBastion.Residue

open Runs Js

/-!
# The walk for abandoned downloads

What `scanDownloads` does to the tree that a cleanup finds, entry by entry.

* `Scanned` — the directories that the walk opens;
* `Abandoned`, `Keeps` — the downloads that the walk removes, and what it keeps its ancestors for;
* `Sound`, `Extends`, `Done` — what every state of a cleanup satisfies, and what is achieved;
* `scanDownloads_spec` — the walk is through with all that is in a directory.
-/

/-! ### Trees -/

namespace RecoveryTree

variable {tree : RecoveryTree} {path directory : EntryPath} {name : String}

theorem lstat_eq_some_iff {stats : Stats} :
    tree.lstat path = some stats ↔ (path, stats) ∈ tree.entries := by
  constructor
  · intro h
    obtain ⟨entry, hfind, rfl⟩ := Option.map_eq_some_iff.mp h
    have hpath := List.find?_some hfind
    rw [decide_eq_true_eq] at hpath
    rw [← hpath]
    exact List.mem_of_find?_eq_some hfind
  · intro h
    have hsome : (tree.entries.find? fun entry => entry.1 = path).isSome = true :=
      List.find?_isSome.mpr ⟨_, h, decide_eq_true rfl⟩
    obtain ⟨entry, hfind⟩ := Option.isSome_iff_exists.mp hsome
    have hpath := List.find?_some hfind
    rw [decide_eq_true_eq] at hpath
    have heq := List.inj_on_of_nodup_map tree.nodup (List.mem_of_find?_eq_some hfind) h hpath
    rw [lstat, hfind, heq]
    rfl

/-- What an entry lies in is a directory. -/
theorem lstat_parent (h : tree.lstat (directory ++ [name]) ≠ none) :
    ∃ stats, tree.lstat directory = some stats ∧ stats.kind = .directory := by
  obtain ⟨stats, hstats⟩ := Option.ne_none_iff_exists'.mp h
  rcases tree.parents _ (lstat_eq_some_iff.mp hstats) with hnil | ⟨parent, hparent, hpath, hkind⟩
  · simp at hnil
  · rw [List.dropLast_concat] at hpath
    exact ⟨parent.2, lstat_eq_some_iff.mpr (hpath ▸ hparent), hkind⟩

/-- So is every path above an entry. -/
theorem lstat_above {below : EntryPath} (habove : path <+: below) (hne : path ≠ below)
    (h : tree.lstat below ≠ none) :
    ∃ stats, tree.lstat path = some stats ∧ stats.kind = .directory := by
  obtain ⟨rest, rfl⟩ := habove
  induction rest using List.reverseRecOn with
  | nil => exact absurd (List.append_nil path).symm hne
  | append_singleton rest name ih =>
    rw [← List.append_assoc] at h
    obtain ⟨stats, hstats, hkind⟩ := lstat_parent h
    cases rest with
    | nil => exact ⟨stats, (List.append_nil path) ▸ hstats, hkind⟩
    | cons first rest =>
      exact ih (fun heq => by simpa using congrArg List.length heq)
        (by rw [hstats]; exact Option.some_ne_none stats)

theorem lstat_prefix {below : EntryPath} (habove : path <+: below) (h : tree.lstat below ≠ none) :
    tree.lstat path ≠ none := by
  by_cases heq : path = below
  · exact heq ▸ h
  · obtain ⟨stats, hstats, -⟩ := lstat_above habove heq h
    rw [hstats]
    exact Option.some_ne_none stats

theorem childName_eq_some_iff :
    childName directory path = some name ↔ path = directory ++ [name] := by
  unfold childName
  constructor
  · intro h
    split at h
    · rename_i hpath
      obtain ⟨hne, rfl⟩ := hpath
      exact (List.dropLast_append_getLast? name h).symm
    · cases h
  · rintro rfl
    rw [if_pos ⟨by simp, List.dropLast_concat⟩, List.getLast?_concat]

theorem mem_readdir : name ∈ tree.readdir directory ↔ tree.lstat (directory ++ [name]) ≠ none := by
  rw [readdir, List.mem_filterMap, Option.ne_none_iff_exists']
  constructor
  · rintro ⟨entry, hentry, hname⟩
    exact ⟨entry.2, lstat_eq_some_iff.mpr (childName_eq_some_iff.mp hname ▸ hentry)⟩
  · rintro ⟨stats, hstats⟩
    exact ⟨_, lstat_eq_some_iff.mp hstats, childName_eq_some_iff.mpr rfl⟩

theorem nodup_readdir (directory : EntryPath) : (tree.readdir directory).Nodup := by
  have heq : tree.readdir directory =
      (tree.entries.map Prod.fst).filterMap (childName directory) := by
    rw [List.filterMap_map]
    rfl
  rw [heq]
  refine tree.nodup.filterMap fun path path' name hpath hpath' => ?_
  rw [childName_eq_some_iff.mp hpath, childName_eq_some_iff.mp hpath']

end RecoveryTree

/-! ### Names -/

theorem isDownloadLeaseName_of_download {name : String} (h : isDownloadCandidateName name = true) :
    isDownloadLeaseName name = false := by
  simp only [isDownloadCandidateName, Bool.and_eq_true] at h
  obtain ⟨front, hfront⟩ := List.isSuffixOf_iff_suffix.mp h.1.2
  rw [isDownloadLeaseName, Bool.and_eq_false_iff]
  left
  rw [← Bool.not_eq_true]
  intro hlease
  obtain ⟨front', hfront'⟩ := List.isSuffixOf_iff_suffix.mp hlease
  have hlast := congrArg List.getLast? (hfront.trans hfront'.symm)
  rw [List.getLast?_append_of_ne_nil _ (by decide), List.getLast?_append_of_ne_nil _ (by decide)]
    at hlast
  exact absurd hlast (by decide)

theorem candidateName_append (name : String) :
    candidateName (name ++ downloadLeaseSuffix) = name := by
  have hlength : (name ++ downloadLeaseSuffix).toList.length - downloadLeaseSuffix.length =
      name.toList.length := by
    rw [String.toList_append, List.length_append, String.length_toList]
    exact Nat.add_sub_cancel _ _
  rw [candidateName, hlength, String.toList_append, List.take_left, String.ofList_toList]

/-- A lease is named by its download. -/
theorem eq_append_of_isDownloadLeaseName {name : String} (h : isDownloadLeaseName name = true) :
    name = candidateName name ++ downloadLeaseSuffix := by
  rw [isDownloadLeaseName, Bool.and_eq_true] at h
  obtain ⟨front, hfront⟩ := List.isSuffixOf_iff_suffix.mp h.1
  have hname : name = String.ofList front ++ downloadLeaseSuffix := by
    rw [← String.toList_inj, ← hfront, String.toList_append, String.toList_ofList]
  rw [hname, candidateName_append]

theorem isDownloadLeaseName_append {name : String} (h : isDownloadCandidateName name = true) :
    isDownloadLeaseName (name ++ downloadLeaseSuffix) = true := by
  rw [isDownloadLeaseName, candidateName_append, h, Bool.and_true, endsWith,
    List.isSuffixOf_iff_suffix, String.toList_append]
  exact List.suffix_append _ _

/-- Neither the name of a download nor that of a lease. -/
structure PlainName (name : String) : Prop where
  noDownload : isDownloadCandidateName name = false
  noLease : isDownloadLeaseName name = false

/-- A download or its lease starts with a dot. -/
theorem head_of_not_plainName {name : String} (h : ¬ PlainName name) :
    name.toList.head? = some '.' := by
  have hdownload : ∀ {name : String}, isDownloadCandidateName name = true →
      name.toList.head? = some '.' := by
    intro name hname
    simp only [isDownloadCandidateName, Bool.and_eq_true] at hname
    obtain ⟨back, hback⟩ := List.isPrefixOf_iff_prefix.mp hname.1.1
    rw [← hback]
    rfl
  by_cases hname : isDownloadCandidateName name = true
  · exact hdownload hname
  · have hlease : isDownloadLeaseName name = true := by
      by_contra hlease
      exact h ⟨Bool.not_eq_true _ ▸ hname, Bool.not_eq_true _ ▸ hlease⟩
    have hcandidate := hdownload (Bool.and_eq_true_iff.mp hlease).2
    rw [eq_append_of_isDownloadLeaseName hlease, String.toList_append, List.head?_append,
      hcandidate]
    rfl

theorem plainName_of_isUuid {name : String} (h : isUuid name = true) : PlainName name := by
  by_contra hnot
  have hhead := head_of_not_plainName hnot
  simp only [isUuid, Bool.and_eq_true, List.all_eq_true] at h
  obtain ⟨c, cs, hcs⟩ := List.exists_cons_of_ne_nil (l := name.toList) (by
    rintro hnil
    rw [hnil] at hhead
    cases hhead)
  rw [hcs, List.head?_cons, Option.some.injEq] at hhead
  have hfirst := h.2 (c, 0) (by rw [hcs]; simp [List.zipIdx_cons])
  rw [hhead] at hfirst
  exact absurd hfirst (by decide)

theorem plainName_of_mem_namespaces {name : String} (h : name ∈ namespaces) : PlainName name := by
  have hall : ∀ name ∈ namespaces,
      isDownloadCandidateName name = false ∧ isDownloadLeaseName name = false := by decide
  exact ⟨(hall name h).1, (hall name h).2⟩

/-! ### What the walk meets -/

variable (world : CleanupWorld)

/-- The entry is younger than the maximum age. -/
def Young (stats : Stats) : Prop := world.nowMs - stats.mtimeMs < world.maxAgeMs

/-- A file of the own user. -/
def SafeFile (stats : Stats) : Prop := stats.kind = .file ∧ world.isOwned stats = true

/-- A file of the own user that is not young. -/
def StaleFile (stats : Stats) : Prop := SafeFile world stats ∧ ¬ Young world stats

/-- A directory of the own user. -/
def OwnedDirectory (path : EntryPath) : Prop :=
  ∃ stats, world.tree.lstat path = some stats ∧ stats.kind = .directory
    ∧ world.isOwned stats = true

/-- The directories that `scanDownloads` is called on, with their depth. -/
inductive Scanned : ℕ → EntryPath → Prop
  | point {name : String} (huuid : isUuid name = true) (howned : OwnedDirectory world [name]) :
      Scanned 0 [name]
  | child {depth : ℕ} {directory : EntryPath} {name : String} (hparent : Scanned depth directory)
      (hdepth : depth ≤ 8) (hplain : PlainName name)
      (howned : OwnedDirectory world (directory ++ [name])) :
      Scanned (depth + 1) (directory ++ [name])

/-- The walk comes to the entry `name` of `directory`. -/
def Met (directory : EntryPath) (name : String) : Prop :=
  (∃ depth ≤ 8, Scanned world depth directory) ∧ world.tree.lstat (directory ++ [name]) ≠ none

/-- The path of the lease of a download. -/
def leaseOf (directory : EntryPath) (name : String) : EntryPath :=
  directory ++ [name ++ downloadLeaseSuffix]

/-- A download that nobody needs: it is not leased in the process, and it and its lease, when it
    has one, are stale files. -/
structure StaleDownload (directory : EntryPath) (name : String) : Prop where
  met : Met world directory name
  isDownload : isDownloadCandidateName name = true
  free : directory ++ [name] ∉ world.activeRecoveryTemporaryPaths
  stale : ∃ stats, world.tree.lstat (directory ++ [name]) = some stats ∧ StaleFile world stats
  lease : ∀ stats, world.tree.lstat (leaseOf directory name) = some stats → StaleFile world stats

/-- A stale lease without a download. -/
structure OrphanLease (directory : EntryPath) (name : String) : Prop where
  met : Met world directory name
  isLease : isDownloadLeaseName name = true
  free : directory ++ [candidateName name] ∉ world.activeRecoveryTemporaryPaths
  missing : world.tree.lstat (directory ++ [candidateName name]) = none
  stale : ∃ stats, world.tree.lstat (directory ++ [name]) = some stats ∧ StaleFile world stats

/-- What the walk removes for its own sake. -/
inductive Removable : EntryPath → Prop
  | download {directory : EntryPath} {name : String} (h : StaleDownload world directory name) :
      Removable (directory ++ [name])
  | orphan {directory : EntryPath} {name : String} (h : OrphanLease world directory name) :
      Removable (directory ++ [name])

/-- What the walk removes: stale downloads with their leases, and stale leases alone. -/
def Abandoned (path : EntryPath) : Prop :=
  Removable world path
    ∨ ∃ directory name, StaleDownload world directory name ∧ path = leaseOf directory name

/-- What the walk protects, with the directories above it. -/
inductive Keeps : EntryPath → Prop
  | download {directory : EntryPath} {name : String} (hmet : Met world directory name)
      (hname : isDownloadCandidateName name = true) (h : ¬ StaleDownload world directory name) :
      Keeps (directory ++ [name])
  | lease {directory : EntryPath} {name : String} (hmet : Met world directory name)
      (hname : isDownloadLeaseName name = true)
      (hcandidate : directory ++ [candidateName name] ∈ world.activeRecoveryTemporaryPaths
        ∨ world.tree.lstat (directory ++ [candidateName name]) = none)
      (h : ¬ OrphanLease world directory name) : Keeps (directory ++ [name])
  | entry {directory : EntryPath} {name : String} {stats : Stats} (hmet : Met world directory name)
      (hname : PlainName name) (hstats : world.tree.lstat (directory ++ [name]) = some stats)
      (h : stats.kind = .symbolicLink ∨ world.isOwned stats = false) : Keeps (directory ++ [name])
  | deep {directory : EntryPath} (h : Scanned world 9 directory) : Keeps directory

variable {world}

theorem Scanned.length {depth : ℕ} {directory : EntryPath} (h : Scanned world depth directory) :
    directory.length = depth + 1 := by
  induction h with
  | point huuid howned => rfl
  | child hparent hdepth hplain howned ih => rw [List.length_append, ih, List.length_singleton]

theorem Scanned.concat {depth : ℕ} {path : EntryPath} (h : Scanned world depth path) :
    ∃ directory name, path = directory ++ [name] := by
  cases h with
  | @point name => exact ⟨[], name, rfl⟩
  | @child depth directory name => exact ⟨directory, name, rfl⟩

theorem Scanned.owned {depth : ℕ} {directory : EntryPath} (h : Scanned world depth directory) :
    OwnedDirectory world directory := by
  cases h with
  | point huuid howned => exact howned
  | child hparent hdepth hplain howned => exact howned

/-- The last name of a directory that is scanned is plain. -/
theorem Scanned.plain {depth : ℕ} {directory : EntryPath} {name : String}
    (h : Scanned world depth (directory ++ [name])) : PlainName name := by
  generalize hpath : directory ++ [name] = path at h
  cases h with
  | @point point huuid howned =>
    have hsplit : directory ++ [name] = [] ++ [point] := hpath
    obtain ⟨-, hname⟩ := List.append_inj' hsplit rfl
    rw [List.singleton_inj.mp hname]
    exact plainName_of_isUuid huuid
  | child hparent hdepth hplain howned =>
    obtain ⟨-, hname⟩ := List.append_inj' hpath rfl
    rw [List.singleton_inj.mp hname]
    exact hplain

/-- All directories above a scanned one are scanned. -/
theorem Scanned.above {depth : ℕ} {directory above : EntryPath} (h : Scanned world depth directory)
    (habove : above <+: directory) (hne : above ≠ []) :
    ∃ depth' ≤ depth, Scanned world depth' above := by
  induction h with
  | @point name huuid howned =>
    have hsplit : above <+: [] ++ [name] := habove
    rcases List.prefix_concat_iff.mp hsplit with heq | hnil
    · exact ⟨0, le_refl 0, heq ▸ .point huuid howned⟩
    · exact absurd (List.prefix_nil.mp hnil) hne
  | @child depth directory name hparent hdepth hplain howned ih =>
    rcases List.prefix_concat_iff.mp habove with heq | habove
    · exact ⟨depth + 1, le_refl _, heq ▸ .child hparent hdepth hplain howned⟩
    · obtain ⟨depth', hle, hscanned⟩ := ih habove
      exact ⟨depth', Nat.le_succ_of_le hle, hscanned⟩

theorem OwnedDirectory.exists {path : EntryPath} (h : OwnedDirectory world path) :
    world.tree.lstat path ≠ none := by
  obtain ⟨stats, hstats, -⟩ := h
  rw [hstats]
  exact Option.some_ne_none stats

/-- What the walk removes or keeps is an entry that it came to. -/
theorem met_of_removable {path : EntryPath} (h : Removable world path) :
    ∃ directory name, path = directory ++ [name] ∧ Met world directory name
      ∧ ¬ PlainName name := by
  cases h with
  | @download directory name h =>
    exact ⟨directory, name, rfl, h.met, fun hplain =>
      absurd (hplain.noDownload.symm.trans h.isDownload) Bool.false_ne_true⟩
  | @orphan directory name h =>
    exact ⟨directory, name, rfl, h.met, fun hplain =>
      absurd (hplain.noLease.symm.trans h.isLease) Bool.false_ne_true⟩

theorem met_of_keeps {path : EntryPath} (h : Keeps world path) :
    ∃ directory name, path = directory ++ [name] ∧ Met world directory name := by
  cases h with
  | @download directory name hmet => exact ⟨directory, name, rfl, hmet⟩
  | @lease directory name hmet => exact ⟨directory, name, rfl, hmet⟩
  | @entry directory name stats hmet => exact ⟨directory, name, rfl, hmet⟩
  | deep h =>
    obtain ⟨directory, name, rfl⟩ := h.concat
    have hlength := h.length
    obtain ⟨depth, hle, hscanned⟩ := h.above (List.prefix_append directory [name]) (by
      rintro rfl
      exact absurd hlength (by simp))
    have hlength' := hscanned.length
    rw [List.length_append, List.length_singleton] at hlength
    exact ⟨directory, name, rfl, ⟨depth, by omega, hscanned⟩, h.owned.exists⟩

/-- A path that is removed or kept lies in an entry only when this is a directory with a plain
    name, which is scanned. -/
theorem scanned_of_below {directory path : EntryPath} {name : String}
    (h : Removable world path ∨ Keeps world path)
    (habove : directory ++ [name] <+: path) (hne : directory ++ [name] ≠ path) :
    ∃ depth ≤ 8, Scanned world depth (directory ++ [name]) := by
  have hentry : ∃ parent last, path = parent ++ [last] ∧ Met world parent last := by
    rcases h with h | h
    · obtain ⟨parent, last, hpath, hparent, -⟩ := met_of_removable h
      exact ⟨parent, last, hpath, hparent⟩
    · exact met_of_keeps h
  obtain ⟨parent, last, rfl, ⟨depth, hdepth, hscanned⟩, -⟩ := hentry
  rcases List.prefix_concat_iff.mp habove with heq | habove
  · exact absurd heq hne
  · obtain ⟨depth', hle, hscanned'⟩ := hscanned.above habove (by simp)
    exact ⟨depth', hle.trans hdepth, hscanned'⟩

theorem removable_download_iff {directory : EntryPath} {name : String}
    (hname : isDownloadCandidateName name = true) :
    Removable world (directory ++ [name]) ↔ StaleDownload world directory name := by
  refine ⟨fun h => ?_, .download⟩
  generalize hpath : directory ++ [name] = path at h
  cases h with
  | download h =>
    obtain ⟨rfl, heq⟩ := List.append_inj' hpath rfl
    rw [List.singleton_inj.mp heq]
    exact h
  | orphan h =>
    obtain ⟨rfl, heq⟩ := List.append_inj' hpath rfl
    rw [← List.singleton_inj.mp heq] at h
    exact absurd (h.isLease.symm.trans (isDownloadLeaseName_of_download hname))
      Bool.true_eq_false.mp

theorem removable_lease_iff {directory : EntryPath} {name : String}
    (hname : isDownloadLeaseName name = true) :
    Removable world (directory ++ [name]) ↔ OrphanLease world directory name := by
  refine ⟨fun h => ?_, .orphan⟩
  generalize hpath : directory ++ [name] = path at h
  cases h with
  | download h =>
    obtain ⟨rfl, heq⟩ := List.append_inj' hpath rfl
    rw [← List.singleton_inj.mp heq] at h
    exact absurd (hname.symm.trans (isDownloadLeaseName_of_download h.isDownload))
      Bool.true_eq_false.mp
  | orphan h =>
    obtain ⟨rfl, heq⟩ := List.append_inj' hpath rfl
    rw [List.singleton_inj.mp heq]
    exact h

theorem keeps_download {directory : EntryPath} {name : String}
    (hname : isDownloadCandidateName name = true) (h : Keeps world (directory ++ [name])) :
    ¬ StaleDownload world directory name := by
  generalize hpath : directory ++ [name] = path at h
  cases h with
  | download hmet hname' h =>
    obtain ⟨rfl, heq⟩ := List.append_inj' hpath rfl
    rw [List.singleton_inj.mp heq]
    exact h
  | lease hmet hname' =>
    obtain ⟨-, heq⟩ := List.append_inj' hpath rfl
    rw [← List.singleton_inj.mp heq, isDownloadLeaseName_of_download hname] at hname'
    cases hname'
  | entry hmet hname' =>
    obtain ⟨-, heq⟩ := List.append_inj' hpath rfl
    rw [← List.singleton_inj.mp heq] at hname'
    exact absurd (hname'.noDownload.symm.trans hname) Bool.false_ne_true
  | deep h =>
    subst hpath
    exact absurd (h.plain.noDownload.symm.trans hname) Bool.false_ne_true

theorem keeps_lease {directory : EntryPath} {name : String}
    (hname : isDownloadLeaseName name = true) (h : Keeps world (directory ++ [name])) :
    (directory ++ [candidateName name] ∈ world.activeRecoveryTemporaryPaths
        ∨ world.tree.lstat (directory ++ [candidateName name]) = none)
      ∧ ¬ OrphanLease world directory name := by
  generalize hpath : directory ++ [name] = path at h
  cases h with
  | download hmet hname' =>
    obtain ⟨-, heq⟩ := List.append_inj' hpath rfl
    rw [← List.singleton_inj.mp heq] at hname'
    rw [isDownloadLeaseName_of_download hname'] at hname
    cases hname
  | lease hmet hname' hcandidate h =>
    obtain ⟨rfl, heq⟩ := List.append_inj' hpath rfl
    rw [List.singleton_inj.mp heq]
    exact ⟨hcandidate, h⟩
  | entry hmet hname' =>
    obtain ⟨-, heq⟩ := List.append_inj' hpath rfl
    rw [← List.singleton_inj.mp heq] at hname'
    exact absurd (hname'.noLease.symm.trans hname) Bool.false_ne_true
  | deep h =>
    subst hpath
    exact absurd (h.plain.noLease.symm.trans hname) Bool.false_ne_true

/-- Nothing is both removed and kept. -/
theorem not_keeps_of_abandoned {path : EntryPath} (h : Abandoned world path) :
    ¬ Keeps world path := by
  intro hkeeps
  rcases h with h | ⟨directory, name, hstale, rfl⟩
  · cases h with
    | download h => exact keeps_download h.isDownload hkeeps h
    | orphan h => exact (keeps_lease h.isLease hkeeps).2 h
  · obtain ⟨hcandidate, -⟩ := keeps_lease (isDownloadLeaseName_append hstale.isDownload) hkeeps
    rw [candidateName_append] at hcandidate
    rcases hcandidate with hactive | hmissing
    · exact hstale.free hactive
    · exact hstale.met.2 hmissing

/-- What the walk removes is a file, when it is there. -/
theorem staleFile_of_abandoned {path : EntryPath} (h : Abandoned world path) {stats : Stats}
    (hstats : world.tree.lstat path = some stats) : StaleFile world stats := by
  rcases h with h | ⟨directory, name, hstale, rfl⟩
  · have hfound : ∃ stats, world.tree.lstat path = some stats ∧ StaleFile world stats := by
      cases h with
      | download h => exact h.stale
      | orphan h => exact h.stale
    obtain ⟨stats', hstats', hfile⟩ := hfound
    rw [hstats, Option.some.injEq] at hstats'
    exact hstats' ▸ hfile
  · exact hstale.lease stats hstats

/-- So nothing lies in it. -/
theorem eq_of_abandoned_above {path below : EntryPath} (h : Abandoned world path)
    (habove : path <+: below) (hbelow : world.tree.lstat below ≠ none) : path = below := by
  by_contra hne
  obtain ⟨stats, hstats, hkind⟩ := RecoveryTree.lstat_above habove hne hbelow
  have hfile := (staleFile_of_abandoned h hstats).1.1
  rw [hkind] at hfile
  cases hfile

/-! ### What the second pass removes -/

/-- The walk removes an entry of the directory. -/
def Relieved (world : CleanupWorld) (directory : EntryPath) : Prop :=
  ∃ name, world.tree.lstat (directory ++ [name]) ≠ none ∧ Abandoned world (directory ++ [name])

/-- The entry is not young after the walk, which modifies the directories that it removes from. -/
structure OldAfterWalk (world : CleanupWorld) (path : EntryPath) (stats : Stats) : Prop where
  relieved : Relieved world path → ¬ Young world { stats with mtimeMs := world.modifiedMs path }
  untouched : ¬ Relieved world path → ¬ Young world stats

/-- An entry of a namespace that nobody needs: it is not leased, nothing in it is kept, and it is
    a stale file, or a stale directory without a marker whose lease, when it has one, is stale. -/
structure Swept (world : CleanupWorld) (point folder name : String) : Prop where
  uuid : isUuid point = true
  pointOwned : OwnedDirectory world [point]
  mem : folder ∈ namespaces
  folderOwned : OwnedDirectory world [point, folder]
  noLease : name ≠ directoryLease
  plain : PlainName name
  free : [point, folder, name] ∉ world.activeRecoveryTemporaryPaths
  closed : ∀ path, Keeps world path → ¬ [point, folder, name] <+: path
  stale : ∃ stats, world.tree.lstat [point, folder, name] = some stats
    ∧ world.isOwned stats = true ∧ OldAfterWalk world [point, folder, name] stats
    ∧ (stats.kind = .file ∨ stats.kind = .directory
      ∧ world.tree.lstat [point, folder, name, reconciliationMarker] = none
      ∧ ∀ lease, world.tree.lstat [point, folder, name, directoryLease] = some lease →
        StaleFile world lease)

/-! ### The state of a cleanup -/

/-- What a state says is so: what is gone was to be removed, in the second pass in one of the
    points that it has come to, and what is protected is kept or above something that is. -/
structure Sound (world : CleanupWorld) (points : List String) (state : CleanupState) : Prop where
  gone : ∀ path ∈ state.gone, Abandoned world path ∨ ∃ point folder name,
    point ∈ points ∧ path = [point, folder, name] ∧ Swept world point folder name
  pair : ∀ directory name, directory ++ [name] ∈ state.gone →
    isDownloadCandidateName name = true → leaseOf directory name ∈ state.gone
  kept : ∀ path ∈ state.protectedTemporaryAncestors,
    path ≠ [] ∧ ∃ held, Keeps world held ∧ path <+: held

/-- A later state has removed and protects at least as much. -/
structure Extends (state state' : CleanupState) : Prop where
  gone : state.gone ⊆ state'.gone
  kept : state.protectedTemporaryAncestors ⊆ state'.protectedTemporaryAncestors

/-- The walk is through with the path. -/
structure Done (world : CleanupWorld) (state : CleanupState) (path : EntryPath) : Prop where
  removed : Removable world path → path ∈ state.gone
  kept : Keeps world path → ∀ above, above ≠ [] → above <+: path →
    above ∈ state.protectedTemporaryAncestors

/-- The walk is through with a directory. -/
def DoneBelow (world : CleanupWorld) (state : CleanupState) (directory : EntryPath) : Prop :=
  ∀ path, directory <+: path → Done world state path

variable {points : List String} {state state' : CleanupState}

theorem Extends.refl (state : CleanupState) : Extends state state :=
  ⟨List.Subset.refl _, List.Subset.refl _⟩

theorem Extends.trans {state'' : CleanupState} (h : Extends state state')
    (h' : Extends state' state'') : Extends state state'' :=
  ⟨List.Subset.trans h.gone h'.gone, List.Subset.trans h.kept h'.kept⟩

theorem DoneBelow.mono {directory : EntryPath} (h : Extends state state')
    (hdone : DoneBelow world state directory) : DoneBelow world state' directory :=
  fun path hpath => ⟨fun hremovable => h.gone ((hdone path hpath).removed hremovable),
    fun hkeeps above hne habove => h.kept ((hdone path hpath).kept hkeeps above hne habove)⟩

theorem lstat_eq_none_iff {path : EntryPath} : lstat world state path = none ↔
    (∃ gone ∈ state.gone, gone <+: path) ∨ world.tree.lstat path = none := by
  unfold lstat
  by_cases hgone : ∃ gone ∈ state.gone, gone <+: path
  · rw [if_pos (by simpa using hgone)]
    simp [hgone]
  · rw [if_neg (by simpa using hgone)]
    simp [hgone]

theorem modified_iff {directory : EntryPath} : modified world state directory = true ↔
    ∃ name, world.tree.lstat (directory ++ [name]) ≠ none ∧ directory ++ [name] ∈ state.gone := by
  simp [modified, RecoveryTree.mem_readdir]

/-- The entry is the one that was found, but for the modification time of a directory. -/
structure SameEntry (world : CleanupWorld) (found stats : Stats) : Prop where
  kind : found.kind = stats.kind
  owned : world.isOwned found = world.isOwned stats
  eq_of_ne : found.kind ≠ .directory → found = stats

namespace SameEntry

variable {found stats : Stats} (h : SameEntry world found stats)
include h

theorem safeFile : SafeFile world found ↔ SafeFile world stats := by
  rw [SafeFile, SafeFile, h.kind, h.owned]

theorem eq_of_safeFile (hsafe : SafeFile world stats) : found = stats := by
  refine h.eq_of_ne fun hdirectory => ?_
  have hkind := h.kind.symm.trans hdirectory
  rw [hsafe.1] at hkind
  cases hkind

theorem staleFile : StaleFile world found ↔ StaleFile world stats := by
  constructor
  · intro hstale
    exact h.eq_of_safeFile (h.safeFile.mp hstale.1) ▸ hstale
  · intro hstale
    exact (h.eq_of_safeFile hstale.1).symm ▸ hstale

end SameEntry

/-- An entry that is there is as it was found, or a directory that was modified. -/
theorem exists_found {path : EntryPath} {stats : Stats} (h : lstat world state path = some stats) :
    ∃ found, world.tree.lstat path = some found ∧ SameEntry world found stats ∧
      stats = if modified world state path then { found with mtimeMs := world.modifiedMs path }
        else found := by
  unfold lstat at h
  split at h
  · cases h
  obtain ⟨found, hfound, rfl⟩ := Option.map_eq_some_iff.mp h
  refine ⟨found, hfound, ?_, rfl⟩
  by_cases hmodified : modified world state path = true
  · rw [if_pos hmodified]
    obtain ⟨name, hname, -⟩ := modified_iff.mp hmodified
    obtain ⟨parent, hparent, hkind⟩ := RecoveryTree.lstat_parent hname
    rw [hfound, Option.some.injEq] at hparent
    exact ⟨rfl, rfl, fun hne => absurd (hparent ▸ hkind) hne⟩
  · rw [if_neg hmodified]
    exact ⟨rfl, rfl, fun _ => rfl⟩

/-- A file that is there is as it was. -/
theorem tree_lstat_of_safeFile {path : EntryPath} {stats : Stats}
    (h : lstat world state path = some stats) (hsafe : SafeFile world stats) :
    world.tree.lstat path = some stats := by
  obtain ⟨found, hfound, hsame, -⟩ := exists_found h
  rw [hfound, hsame.eq_of_safeFile hsafe]

namespace Sound

/-- A path above an entry that is gone is the entry itself, or was swept. -/
theorem gone_above (h : Sound world points state) {gone path : EntryPath}
    (hgone : gone ∈ state.gone) (habove : gone <+: path) (hpath : world.tree.lstat path ≠ none) :
    (gone = path ∧ Abandoned world path) ∨ ∃ point folder name,
      point ∈ points ∧ gone = [point, folder, name] ∧ Swept world point folder name := by
  rcases h.gone gone hgone with habandoned | hswept
  · have heq := eq_of_abandoned_above habandoned habove hpath
    exact .inl ⟨heq, heq ▸ habandoned⟩
  · exact .inr hswept

/-- In a point that was not swept yet an entry is missing only when the walk removed it. -/
theorem abandoned_of_missing (h : Sound world points state) {path : EntryPath}
    (hpoint : ∀ point ∈ points, path.head? ≠ some point) (hpath : world.tree.lstat path ≠ none)
    (hmissing : lstat world state path = none) : path ∈ state.gone ∧ Abandoned world path := by
  rcases lstat_eq_none_iff.mp hmissing with ⟨gone, hgone, habove⟩ | hnone
  · rcases h.gone_above hgone habove hpath with
      ⟨rfl, habandoned⟩ | ⟨point, folder, name, hmem, rfl, -⟩
    · exact ⟨hgone, habandoned⟩
    · obtain ⟨rest, rfl⟩ := habove
      exact absurd rfl (hpoint point hmem)
  · exact absurd hnone hpath

theorem weaken (h : Sound world points state) (point : String) :
    Sound world (point :: points) state := by
  refine ⟨fun path hpath => ?_, h.pair, h.kept⟩
  rcases h.gone path hpath with habandoned | ⟨other, folder, name, hmem, hswept⟩
  · exact .inl habandoned
  · exact .inr ⟨other, folder, name, List.mem_cons_of_mem point hmem, hswept⟩

end Sound

/-! ### One entry of the walk -/

theorem extends_keep (state : CleanupState) (path : EntryPath) : Extends state (state.keep path) :=
  ⟨List.Subset.refl _, List.subset_append_right _ _⟩

theorem mem_protected_keep {path above : EntryPath} :
    above ∈ (state.keep path).protectedTemporaryAncestors
      ↔ (above <+: path ∧ above ≠ []) ∨ above ∈ state.protectedTemporaryAncestors := by
  change above ∈ path.inits.filter (· ≠ []) ++ state.protectedTemporaryAncestors ↔ _
  rw [List.mem_append, List.mem_filter, List.mem_inits, decide_eq_true_eq]

/-- What is kept is protected. -/
theorem Sound.keep (h : Sound world points state) {path : EntryPath} (hkeeps : Keeps world path) :
    Sound world points (state.keep path) ∧ Done world (state.keep path) path := by
  refine ⟨⟨h.gone, h.pair, fun above habove => ?_⟩, ?_, fun _ above hne habove => ?_⟩
  · rcases mem_protected_keep.mp habove with ⟨habove, hne⟩ | habove
    · exact ⟨hne, path, hkeeps, habove⟩
    · exact h.kept above habove
  · intro hremovable
    exact absurd hkeeps (not_keeps_of_abandoned (.inl hremovable))
  · exact mem_protected_keep.mpr (.inl ⟨habove, hne⟩)

/-- What is gone is done with. -/
theorem Done.of_gone {path : EntryPath} (hgone : path ∈ state.gone) (h : Abandoned world path) :
    Done world state path :=
  ⟨fun _ => hgone, fun hkeeps => absurd hkeeps (not_keeps_of_abandoned h)⟩

/-- What is no directory to scan has nothing in it to do. -/
theorem Done.below {directory : EntryPath} {name : String}
    (hdone : Done world state (directory ++ [name]))
    (hnot : ¬ ∃ depth ≤ 8, Scanned world depth (directory ++ [name])) :
    DoneBelow world state (directory ++ [name]) := by
  intro path habove
  by_cases heq : directory ++ [name] = path
  · exact heq ▸ hdone
  · exact ⟨fun h => absurd (scanned_of_below (.inl h) habove heq) hnot,
      fun h => absurd (scanned_of_below (.inr h) habove heq) hnot⟩

theorem removeCandidateIfUnchanged_eq {path : EntryPath} {stats : Stats}
    (hstats : lstat world state path = some stats) (howned : world.isOwned stats = true)
    (hkind : stats.kind = .file ∨ stats.kind = .directory) :
    removeCandidateIfUnchanged world state path stats stats.isDirectory = some (state.rm path) := by
  rcases hkind with hkind | hkind <;>
    simp [removeCandidateIfUnchanged, hstats, howned, hkind, Stats.isDirectory, Stats.isFile,
      Stats.isSymbolicLink]

/-- The check that `processDownloadCandidate` and its likes make of a file. -/
theorem not_safeFile_iff {stats : Stats} :
    (!stats.isFile || stats.isSymbolicLink || !world.isOwned stats) = true
      ↔ ¬ SafeFile world stats := by
  rcases stats with ⟨kind, uid, dev, ino, mtimeMs⟩
  cases kind <;> simp [SafeFile, Stats.isFile, Stats.isSymbolicLink]

/-- What a lease says about its file: it is fresh or unsafe unless both are stale. -/
theorem readLeaseFreshness_stale_iff {stats : Stats} {lease : Option Stats} :
    ((!(readLeaseFreshness world stats lease).safe
        || decide (world.nowMs - (readLeaseFreshness world stats lease).mtimeMs < world.maxAgeMs))
      = false)
      ↔ ¬ Young world stats ∧ ∀ leaseStats, lease = some leaseStats →
        StaleFile world leaseStats := by
  unfold readLeaseFreshness StaleFile Young
  cases lease with
  | none => simp
  | some leaseStats =>
    by_cases hsafe : SafeFile world leaseStats
    · have hcheck : ¬ (!leaseStats.isFile || leaseStats.isSymbolicLink
          || !world.isOwned leaseStats) = true := fun h => not_safeFile_iff.mp h hsafe
      have hmax : world.nowMs - max stats.mtimeMs leaseStats.mtimeMs < world.maxAgeMs
          ↔ world.nowMs - stats.mtimeMs < world.maxAgeMs
            ∨ world.nowMs - leaseStats.mtimeMs < world.maxAgeMs := by
        rcases le_total stats.mtimeMs leaseStats.mtimeMs with hle | hle
        · rw [max_eq_right hle]
          constructor
          · exact .inr
          · rintro (h | h)
            · exact lt_of_le_of_lt (sub_le_sub_left hle _) h
            · exact h
        · rw [max_eq_left hle]
          constructor
          · exact .inl
          · rintro (h | h)
            · exact h
            · exact lt_of_le_of_lt (sub_le_sub_left hle _) h
      simp only [if_neg hcheck, Bool.not_true, Bool.false_or, decide_eq_false_iff_not, hmax,
        not_or, Option.some.injEq, forall_eq', hsafe, true_and]
    · have hcheck : (!leaseStats.isFile || leaseStats.isSymbolicLink
          || !world.isOwned leaseStats) = true := not_safeFile_iff.mpr hsafe
      simp only [if_pos hcheck, Bool.not_false, Bool.true_or, Bool.true_eq_false, false_iff]
      rintro ⟨-, h⟩
      exact hsafe (h leaseStats rfl).1

section

variable {directory : EntryPath} {name : String} (hstate : Sound world points state)
  (hmet : Met world directory name) (hpoints : ∀ point ∈ points, directory.head? ≠ some point)
include hmet

theorem Met.ne_nil : directory ≠ [] := by
  obtain ⟨⟨depth, -, hscanned⟩, -⟩ := hmet
  rintro rfl
  exact absurd hscanned.length (by simp)

include hpoints

theorem Met.head (last : String) :
    ∀ point ∈ points, (directory ++ [last]).head? ≠ some point := by
  intro point hpoint
  rw [List.head?_append_of_ne_nil _ hmet.ne_nil]
  exact hpoints point hpoint

include hstate

/-- A download that the walk comes to is removed with its lease, or kept. -/
theorem processDownloadCandidate_spec (hname : isDownloadCandidateName name = true) :
    Sound world points (processDownloadCandidate world directory name state)
      ∧ Extends state (processDownloadCandidate world directory name state)
      ∧ Done world (processDownloadCandidate world directory name state) (directory ++ [name]) := by
  have hkeep : ¬ StaleDownload world directory name →
      Sound world points (state.keep (directory ++ [name]))
        ∧ Extends state (state.keep (directory ++ [name]))
        ∧ Done world (state.keep (directory ++ [name])) (directory ++ [name]) := fun hnot =>
    have hkept := hstate.keep (.download hmet hname hnot)
    ⟨hkept.1, extends_keep state _, hkept.2⟩
  unfold processDownloadCandidate
  simp only
  by_cases hactive : directory ++ [name] ∈ world.activeRecoveryTemporaryPaths
  · rw [if_pos hactive]
    exact hkeep fun h => h.free hactive
  · rw [if_neg hactive]
    cases hstats : lstat world state (directory ++ [name]) with
    | none =>
      obtain ⟨hgone, habandoned⟩ :=
        hstate.abandoned_of_missing (hmet.head hpoints name) hmet.2 hstats
      exact ⟨hstate, .refl state, .of_gone hgone habandoned⟩
    | some stats =>
      obtain ⟨found, hfound, hsame, -⟩ := exists_found hstats
      simp only
      by_cases hsafe : SafeFile world stats
      · have htree := tree_lstat_of_safeFile hstats hsafe
        rw [if_neg fun h => not_safeFile_iff.mp h hsafe]
        cases hfresh : (!(readLeaseFreshness world stats
            (lstat world state (directory ++ [name ++ downloadLeaseSuffix]))).safe
          || decide (world.nowMs - (readLeaseFreshness world stats
            (lstat world state (directory ++ [name ++ downloadLeaseSuffix]))).mtimeMs
              < world.maxAgeMs)) with
        | true =>
          rw [if_pos rfl]
          apply hkeep
          intro h
          obtain ⟨stats', hstats', -, hold⟩ := h.stale
          rw [htree, Option.some.injEq] at hstats'
          have hlease : ∀ lease, lstat world state (leaseOf directory name) = some lease →
              StaleFile world lease := by
            intro lease hlease
            obtain ⟨before, hbefore, hsame, -⟩ := exists_found hlease
            exact hsame.staleFile.mp (h.lease before hbefore)
          have hnot := readLeaseFreshness_stale_iff.mpr ⟨hstats' ▸ hold, hlease⟩
          rw [leaseOf, hfresh] at hnot
          cases hnot
        | false =>
          obtain ⟨hold, hlease⟩ := readLeaseFreshness_stale_iff.mp hfresh
          have hdownload : StaleDownload world directory name := by
            refine ⟨hmet, hname, hactive, ⟨stats, htree, hsafe, hold⟩, fun lease hlease' => ?_⟩
            -- a lease that is gone was removed with its download
            cases hcurrent : lstat world state (leaseOf directory name) with
            | some current =>
              have hcurrent' := tree_lstat_of_safeFile hcurrent (hlease current hcurrent).1
              exact Option.some.inj (hcurrent'.symm.trans hlease') ▸ hlease current hcurrent
            | none =>
              have hexists : world.tree.lstat (leaseOf directory name) ≠ none := by
                rw [hlease']
                exact Option.some_ne_none lease
              obtain ⟨-, habandoned⟩ :=
                hstate.abandoned_of_missing (hmet.head hpoints _) hexists hcurrent
              exact staleFile_of_abandoned habandoned hlease'
          have hremove := removeCandidateIfUnchanged_eq hstats hsafe.2 (.inl hsafe.1)
          rw [show stats.isDirectory = false by simp [Stats.isDirectory, hsafe.1]] at hremove
          rw [if_neg Bool.false_ne_true, hremove]
          have hmem : directory ++ [name] ∈ leaseOf directory name :: (directory ++ [name])
              :: state.gone := List.mem_cons_of_mem _ List.mem_cons_self
          refine ⟨⟨fun path hpath => ?_, fun other last hother hlast => ?_, hstate.kept⟩,
            ⟨fun path hpath => List.mem_cons_of_mem _ (List.mem_cons_of_mem _ hpath),
              List.Subset.refl _⟩, .of_gone hmem (.inl (.download hdownload))⟩
          · rcases List.mem_cons.mp hpath with rfl | hpath
            · exact .inl (.inr ⟨directory, name, hdownload, rfl⟩)
            · rcases List.mem_cons.mp hpath with rfl | hpath
              · exact .inl (.inl (.download hdownload))
              · exact hstate.gone path hpath
          · rcases List.mem_cons.mp hother with heq | hother
            · obtain ⟨-, heq⟩ := List.append_inj' heq rfl
              rw [List.singleton_inj.mp heq] at hlast
              exact absurd ((isDownloadLeaseName_append hname).symm.trans
                (isDownloadLeaseName_of_download hlast)) Bool.true_eq_false.mp
            · rcases List.mem_cons.mp hother with heq | hother
              · obtain ⟨rfl, hsame⟩ := List.append_inj' heq rfl
                rw [List.singleton_inj.mp hsame]
                exact List.mem_cons_self
              · exact List.mem_cons_of_mem _ (List.mem_cons_of_mem _ (hstate.pair other last hother
                  hlast))
      · rw [if_pos (not_safeFile_iff.mpr hsafe)]
        apply hkeep
        intro h
        obtain ⟨stats', hstats', hfile, -⟩ := h.stale
        rw [hfound, Option.some.injEq] at hstats'
        exact hsafe (hsame.safeFile.mp (hstats' ▸ hfile))

/-- So is a lease: removed when its download is missing, by itself or with it. -/
theorem processOrphanDownloadLease_spec (hname : isDownloadLeaseName name = true) :
    Sound world points (processOrphanDownloadLease world directory name state)
      ∧ Extends state (processOrphanDownloadLease world directory name state)
      ∧ Done world (processOrphanDownloadLease world directory name state)
        (directory ++ [name]) := by
  have hcandidateName : isDownloadCandidateName (candidateName name) = true :=
    (Bool.and_eq_true_iff.mp hname).2
  have hpath : leaseOf directory (candidateName name) = directory ++ [name] := by
    rw [leaseOf, ← eq_append_of_isDownloadLeaseName hname]
  have hkeep : (directory ++ [candidateName name] ∈ world.activeRecoveryTemporaryPaths
        ∨ world.tree.lstat (directory ++ [candidateName name]) = none) →
      ¬ OrphanLease world directory name →
      Sound world points (state.keep (directory ++ [name]))
        ∧ Extends state (state.keep (directory ++ [name]))
        ∧ Done world (state.keep (directory ++ [name])) (directory ++ [name]) :=
    fun hcandidate hnot =>
      have hkept := hstate.keep (.lease hmet hname hcandidate hnot)
      ⟨hkept.1, extends_keep state _, hkept.2⟩
  unfold processOrphanDownloadLease
  simp only
  by_cases hactive : directory ++ [candidateName name] ∈ world.activeRecoveryTemporaryPaths
  · rw [if_pos hactive]
    exact hkeep (.inl hactive) fun h => h.free hactive
  · rw [if_neg hactive]
    by_cases hthere : lstat world state (directory ++ [candidateName name]) ≠ none
    · rw [if_pos hthere]
      have hexists : world.tree.lstat (directory ++ [candidateName name]) ≠ none := fun hnone =>
        hthere (lstat_eq_none_iff.mpr (.inr hnone))
      refine ⟨hstate, .refl state, fun hremovable => ?_, fun hkeeps => ?_⟩
      · exact absurd ((removable_lease_iff hname).mp hremovable).missing hexists
      · exact absurd (keeps_lease hname hkeeps).1 (not_or.mpr ⟨hactive, hexists⟩)
    · rw [if_neg hthere]
      rw [not_ne_iff] at hthere
      -- a download that is gone was stale, with its lease
      have hgone : world.tree.lstat (directory ++ [candidateName name]) ≠ none →
          StaleDownload world directory (candidateName name) := by
        intro hexists
        obtain ⟨-, habandoned⟩ :=
          hstate.abandoned_of_missing (hmet.head hpoints _) hexists hthere
        rcases habandoned with hremovable | ⟨other, last, hlast, heq⟩
        · exact (removable_download_iff hcandidateName).mp hremovable
        · obtain ⟨-, hsame⟩ := List.append_inj' heq rfl
          have hlease := isDownloadLeaseName_append hlast.isDownload
          rw [← List.singleton_inj.mp hsame,
            isDownloadLeaseName_of_download hcandidateName] at hlease
          cases hlease
      cases hstats : lstat world state (directory ++ [name]) with
      | none =>
        obtain ⟨hmem, habandoned⟩ :=
          hstate.abandoned_of_missing (hmet.head hpoints name) hmet.2 hstats
        exact ⟨hstate, .refl state, .of_gone hmem habandoned⟩
      | some stats =>
        obtain ⟨found, hfound, hsame, -⟩ := exists_found hstats
        simp only
        by_cases hstale : StaleFile world stats
        · have htree := tree_lstat_of_safeFile hstats hstale.1
          have habandoned : Abandoned world (directory ++ [name]) := by
            by_cases hexists : world.tree.lstat (directory ++ [candidateName name]) = none
            · exact .inl (.orphan ⟨hmet, hname, hactive, hexists, stats, htree, hstale⟩)
            · exact .inr ⟨directory, candidateName name, hgone hexists, hpath.symm⟩
          have hremove := removeCandidateIfUnchanged_eq hstats hstale.1.2 (.inl hstale.1.1)
          rw [show stats.isDirectory = false by simp [Stats.isDirectory, hstale.1.1]] at hremove
          have hold : ¬ world.nowMs - stats.mtimeMs < world.maxAgeMs := hstale.2
          rw [if_neg fun h => not_safeFile_iff.mp h hstale.1, if_neg hold, hremove]
          refine ⟨⟨fun path hmem => ?_, fun other last hother hlast => ?_, hstate.kept⟩,
            ⟨fun path hmem => List.mem_cons_of_mem _ hmem, List.Subset.refl _⟩,
            .of_gone List.mem_cons_self habandoned⟩
          · rcases List.mem_cons.mp hmem with rfl | hmem
            · exact .inl habandoned
            · exact hstate.gone path hmem
          · rcases List.mem_cons.mp hother with heq | hother
            · obtain ⟨-, hsame⟩ := List.append_inj' heq rfl
              rw [List.singleton_inj.mp hsame] at hlast
              rw [isDownloadLeaseName_of_download hlast] at hname
              cases hname
            · exact List.mem_cons_of_mem _ (hstate.pair other last hother hlast)
        · have hmissing : world.tree.lstat (directory ++ [candidateName name]) = none := by
            by_contra hexists
            exact hstale (hsame.staleFile.mp ((hgone hexists).lease found (hpath ▸ hfound)))
          have hnot : ¬ OrphanLease world directory name := by
            intro h
            obtain ⟨stats', hstats', hfile⟩ := h.stale
            rw [hfound, Option.some.injEq] at hstats'
            exact hstale (hsame.staleFile.mp (hstats' ▸ hfile))
          have hkept := hkeep (.inr hmissing) hnot
          by_cases hsafe : SafeFile world stats
          · have hyoung : world.nowMs - stats.mtimeMs < world.maxAgeMs := by
              by_contra hyoung
              exact hstale ⟨hsafe, hyoung⟩
            rw [if_neg fun h => not_safeFile_iff.mp h hsafe, if_pos hyoung]
            exact hkept
          · rw [if_pos (not_safeFile_iff.mpr hsafe)]
            exact hkept

/-- **One entry.**  After an entry the walk is through with it and with what is in it. -/
theorem scanEntry_spec {scan : EntryPath → CleanupState → CleanupState} {depth : ℕ}
    (hdepth : depth ≤ 8) (hdirectory : Scanned world depth directory)
    (hscan : Scanned world (depth + 1) (directory ++ [name]) →
      Sound world points (scan (directory ++ [name]) state)
        ∧ Extends state (scan (directory ++ [name]) state)
        ∧ DoneBelow world (scan (directory ++ [name]) state) (directory ++ [name])) :
    Sound world points (scanEntry world scan directory state name)
      ∧ Extends state (scanEntry world scan directory state name)
      ∧ DoneBelow world (scanEntry world scan directory state name) (directory ++ [name]) := by
  have hnotPlain : ¬ PlainName name → ¬ ∃ depth ≤ 8, Scanned world depth (directory ++ [name]) :=
    fun hnot ⟨_, _, h⟩ => hnot h.plain
  unfold scanEntry
  by_cases hdownload : isDownloadCandidateName name = true
  · rw [if_pos hdownload]
    obtain ⟨hsound, hextends, hdone⟩ :=
      processDownloadCandidate_spec hstate hmet hpoints hdownload
    exact ⟨hsound, hextends, hdone.below (hnotPlain fun h =>
      absurd (h.noDownload.symm.trans hdownload) Bool.false_ne_true)⟩
  · rw [if_neg hdownload]
    by_cases hlease : isDownloadLeaseName name = true
    · rw [if_pos hlease]
      obtain ⟨hsound, hextends, hdone⟩ :=
        processOrphanDownloadLease_spec hstate hmet hpoints hlease
      exact ⟨hsound, hextends, hdone.below (hnotPlain fun h =>
        absurd (h.noLease.symm.trans hlease) Bool.false_ne_true)⟩
    · rw [if_neg hlease]
      have hplain : PlainName name := ⟨Bool.not_eq_true _ ▸ hdownload, Bool.not_eq_true _ ▸ hlease⟩
      have hremovable : ¬ Removable world (directory ++ [name]) := by
        intro h
        obtain ⟨parent, last, hpath, -, hnot⟩ := met_of_removable h
        obtain ⟨-, hsame⟩ := List.append_inj' hpath rfl
        exact hnot (List.singleton_inj.mp hsame ▸ hplain)
      cases hstats : lstat world state (directory ++ [name]) with
      | none =>
        obtain ⟨-, habandoned⟩ := hstate.abandoned_of_missing (hmet.head hpoints name) hmet.2 hstats
        rcases habandoned with h | ⟨parent, last, h, hpath⟩
        · exact absurd h hremovable
        · obtain ⟨-, hsame⟩ := List.append_inj' hpath rfl
          rw [List.singleton_inj.mp hsame] at hlease
          exact absurd (isDownloadLeaseName_append h.isDownload) hlease
      | some stats =>
        obtain ⟨found, htree, hsame, -⟩ := exists_found hstats
        simp only
        by_cases hscanned : OwnedDirectory world (directory ++ [name])
        · have hchild : Scanned world (depth + 1) (directory ++ [name]) :=
            .child hdirectory hdepth hplain hscanned
          obtain ⟨stats', hstats', hkind, howned⟩ := hscanned
          rw [htree, Option.some.injEq] at hstats'
          subst hstats'
          rw [hsame.kind] at hkind
          rw [hsame.owned] at howned
          rw [if_pos (by simp [Stats.isDirectory, Stats.isSymbolicLink, hkind, howned])]
          exact hscan hchild
        · have hnotScanned : ¬ ∃ depth ≤ 8, Scanned world depth (directory ++ [name]) :=
            fun ⟨_, _, h⟩ => hscanned h.owned
          have hkind : ¬ (stats.kind = .directory ∧ world.isOwned stats = true) := fun h =>
            hscanned ⟨found, htree, hsame.kind.trans h.1, hsame.owned.trans h.2⟩
          rw [if_neg (by
            simp only [Bool.and_eq_true, not_and, Stats.isDirectory, decide_eq_true_eq]
            exact fun h howned => hkind ⟨h.1, howned⟩)]
          by_cases hforeignLink : stats.kind = .symbolicLink ∨ world.isOwned stats = false
          · rw [if_pos (by
              rcases hforeignLink with h | h <;> simp [Stats.isSymbolicLink, h])]
            rw [← hsame.kind, ← hsame.owned] at hforeignLink
            have hkept := hstate.keep (.entry hmet hplain htree hforeignLink)
            exact ⟨hkept.1, extends_keep state _, hkept.2.below hnotScanned⟩
          · rw [not_or, Bool.not_eq_false] at hforeignLink
            rw [if_neg (by
              simp only [Bool.or_eq_true, Stats.isDirectory, Stats.isSymbolicLink,
                decide_eq_true_eq, not_or]
              exact ⟨⟨fun h => hkind ⟨h, hforeignLink.2⟩, hforeignLink.1⟩,
                by simp [hforeignLink.2]⟩)]
            have hdone : Done world state (directory ++ [name]) := by
              refine ⟨fun h => absurd h hremovable, fun hkeeps => ?_⟩
              generalize hpath : directory ++ [name] = path at hkeeps
              exfalso
              cases hkeeps with
              | download _ hname =>
                obtain ⟨-, hsame⟩ := List.append_inj' hpath rfl
                exact hdownload (List.singleton_inj.mp hsame ▸ hname)
              | lease _ hname =>
                obtain ⟨-, hsame⟩ := List.append_inj' hpath rfl
                exact hlease (List.singleton_inj.mp hsame ▸ hname)
              | entry _ _ hstats' h =>
                rw [← hpath, htree, Option.some.injEq] at hstats'
                subst hstats'
                rw [hsame.kind, hsame.owned] at h
                rcases h with h | h
                · exact hforeignLink.1 h
                · exact absurd (h.symm.trans hforeignLink.2) Bool.false_ne_true
              | deep h => exact hscanned (hpath ▸ h.owned)
            exact ⟨hstate, .refl state, hdone.below hnotScanned⟩

end

/-! ### The walk -/

/-- A directory that is scanned is neither removed nor, but for its depth, kept. -/
theorem Scanned.done {depth : ℕ} (hdepth : depth ≤ 8) {directory : EntryPath}
    (h : Scanned world depth directory) : Done world state directory := by
  obtain ⟨parent, name, rfl⟩ := h.concat
  refine ⟨fun hremovable => ?_, fun hkeeps => ?_⟩
  · obtain ⟨parent', name', hpath, -, hnot⟩ := met_of_removable hremovable
    obtain ⟨-, hsame⟩ := List.append_inj' hpath rfl
    exact absurd (List.singleton_inj.mp hsame ▸ h.plain) hnot
  · obtain ⟨stats, hstats, hkind, howned⟩ := h.owned
    have hplain := h.plain
    generalize hpath : parent ++ [name] = path at hkeeps h hstats
    cases hkeeps with
    | download _ hname =>
      obtain ⟨-, hsame⟩ := List.append_inj' hpath rfl
      rw [← List.singleton_inj.mp hsame, hplain.noDownload] at hname
      cases hname
    | lease _ hname =>
      obtain ⟨-, hsame⟩ := List.append_inj' hpath rfl
      rw [← List.singleton_inj.mp hsame, hplain.noLease] at hname
      cases hname
    | entry _ _ hstats' hforeignLink =>
      rw [hstats, Option.some.injEq] at hstats'
      subst hstats'
      rcases hforeignLink with hlink | hforeign
      · rw [hkind] at hlink
        cases hlink
      · rw [howned] at hforeign
        cases hforeign
    | deep h' =>
      have hlength := h.length.symm.trans h'.length
      omega

/-- **The walk** is through with all that is in the directory: by induction on the levels that
    are left. -/
theorem scanDownloads_spec {levels depth : ℕ} (hlevels : levels + depth = 9)
    {directory : EntryPath} (hdirectory : Scanned world depth directory)
    (hpoints : ∀ point ∈ points, directory.head? ≠ some point)
    (hstate : Sound world points state) :
    Sound world points (scanDownloads world levels directory state)
      ∧ Extends state (scanDownloads world levels directory state)
      ∧ DoneBelow world (scanDownloads world levels directory state) directory := by
  induction levels generalizing depth directory state with
  | zero =>
    rw [Nat.zero_add] at hlevels
    subst hlevels
    have hkept := hstate.keep (.deep hdirectory)
    obtain ⟨parent, name, rfl⟩ := hdirectory.concat
    refine ⟨hkept.1, extends_keep state _, hkept.2.below fun ⟨depth, hdepth, h⟩ => ?_⟩
    have hlength := h.length.symm.trans hdirectory.length
    omega
  | succ levels ih =>
    have hdepth : depth ≤ 8 := by omega
    obtain ⟨stats, hstats, hkind, -⟩ := hdirectory.owned
    have hthere : lstat world state directory ≠ none := by
      intro hmissing
      obtain ⟨-, habandoned⟩ :=
        hstate.abandoned_of_missing hpoints hdirectory.owned.exists hmissing
      have hfile := (staleFile_of_abandoned habandoned hstats).1.1
      rw [hkind] at hfile
      cases hfile
    have hreaddir : readdir world state directory =
        some ((world.tree.readdir directory).filter fun name =>
          lstat world state (directory ++ [name]) ≠ none) := by
      rw [readdir, if_neg hthere]
    rw [scanDownloads, hreaddir]
    simp only
    have hloop := @exec_establishes CleanupState String
      (scanEntry world (scanDownloads world levels) directory) (Sound world points) Extends
      (fun state name => DoneBelow world state (directory ++ [name]))
      ((world.tree.readdir directory).filter fun name =>
        lstat world state (directory ++ [name]) ≠ none)
      Extends.refl (fun _ _ _ => Extends.trans) (fun _ _ _ => DoneBelow.mono)
      (fun state name hname hsound => by
        have hmet : Met world directory name := ⟨⟨depth, hdepth, hdirectory⟩,
          RecoveryTree.mem_readdir.mp (List.mem_filter.mp hname).1⟩
        exact scanEntry_spec hsound hmet hpoints hdepth hdirectory fun hscanned =>
          ih (by omega) hscanned (hmet.head hpoints name) hsound) state hstate
    obtain ⟨hsound, hextends, hall⟩ := hloop
    refine ⟨hsound, hextends, fun path habove => ?_⟩
    by_cases heq : directory = path
    · exact heq ▸ hdirectory.done hdepth
    · -- the entry of the directory that the path lies in
      obtain ⟨rest, rfl⟩ := habove
      obtain ⟨name, rest, rfl⟩ := List.exists_cons_of_ne_nil (l := rest) (by
        rintro rfl
        exact heq (List.append_nil directory).symm)
      have hbelow : directory ++ [name] <+: directory ++ name :: rest := ⟨rest, by simp⟩
      by_cases hlisted : name ∈ (world.tree.readdir directory).filter fun name =>
          lstat world state (directory ++ [name]) ≠ none
      · exact hall name hlisted _ hbelow
      · -- an entry that was missing before the loop was removed before
        have hdone : world.tree.lstat (directory ++ [name]) ≠ none →
            DoneBelow world state (directory ++ [name]) := by
          intro hexists
          have hmissing : lstat world state (directory ++ [name]) = none := by
            by_contra hnot
            exact hlisted (List.mem_filter.mpr
              ⟨RecoveryTree.mem_readdir.mpr hexists, decide_eq_true hnot⟩)
          have hmet : Met world directory name := ⟨⟨depth, hdepth, hdirectory⟩, hexists⟩
          obtain ⟨hgone, habandoned⟩ :=
            hstate.abandoned_of_missing (hmet.head hpoints name) hexists hmissing
          refine (Done.of_gone hgone habandoned).below fun ⟨_, _, hscanned⟩ => ?_
          obtain ⟨stats', hstats', hkind', -⟩ := hscanned.owned
          have hfile := (staleFile_of_abandoned habandoned hstats').1.1
          rw [hkind'] at hfile
          cases hfile
        have hexists : ∀ {parent last}, directory ++ name :: rest = parent ++ [last] →
            Met world parent last → world.tree.lstat (directory ++ [name]) ≠ none :=
          fun hpath hmet => RecoveryTree.lstat_prefix (hpath ▸ hbelow) hmet.2
        refine ⟨fun hremovable => ?_, fun hkeeps => ?_⟩
        · obtain ⟨parent, last, hpath, hmet, -⟩ := met_of_removable hremovable
          exact hextends.gone ((hdone (hexists hpath hmet) _ hbelow).removed hremovable)
        · obtain ⟨parent, last, hpath, hmet⟩ := met_of_keeps hkeeps
          exact fun above hne habove =>
            hextends.kept ((hdone (hexists hpath hmet) _ hbelow).kept hkeeps above hne habove)

end ComposeBastion.Residue
