import ComposeBastion.Recovery.ResidueSweep

namespace ComposeBastion.Residue

open Runs Js

/-!
# What the cleanup of temporary recovery storage deletes

The two passes of `cleanupStaleRecoveryTemporaryResidue` against what they are for: whatever is
held (leased, young, unsafe or marked) stays, with all that is in it and all that it is in.

* `Held`, `DeletesStaleOnly` — what has to stay, and the purpose of the cleanup;
* `apart_of_abandoned`, `Swept.apart` — what each pass leaves alone in any case;
* `deletesStaleOnly_iff` — when the cleanup deletes stale residue only.
-/

variable {world : CleanupWorld}

/-! ### What is held -/

/-- A directory in a temporary namespace of a recovery point. -/
def TemporaryDirectory (world : CleanupWorld) (path : EntryPath) : Prop :=
  (∃ point folder name, path = [point, folder, name] ∧ isUuid point = true ∧ folder ∈ namespaces)
    ∧ ∃ stats, world.tree.lstat path = some stats ∧ stats.kind = .directory

/-- A temporary directory that is young, or whose lease is, or that is marked. -/
def HeldDirectory (world : CleanupWorld) (path : EntryPath) : Prop :=
  TemporaryDirectory world path
    ∧ ((∃ stats, world.tree.lstat path = some stats ∧ Young world stats)
      ∨ (∃ lease, world.tree.lstat (path ++ [directoryLease]) = some lease ∧ Young world lease)
      ∨ world.tree.lstat (path ++ [reconciliationMarker]) ≠ none)

/-- What has to stay. -/
inductive Held (world : CleanupWorld) : EntryPath → Prop
  | leased {path : EntryPath} (h : path ∈ world.activeRecoveryTemporaryPaths) : Held world path
  | download {directory : EntryPath} {name : String} (hname : isDownloadCandidateName name = true)
      (h : (∃ stats, world.tree.lstat (directory ++ [name]) = some stats ∧ Young world stats)
        ∨ ∃ lease, world.tree.lstat (leaseOf directory name) = some lease ∧ Young world lease) :
      Held world (directory ++ [name])
  | directory {path : EntryPath} (h : HeldDirectory world path) : Held world path
  | foreign {directory : EntryPath} {name : String} {stats : Stats}
      (hmet : Met world directory name)
      (hstats : world.tree.lstat (directory ++ [name]) = some stats)
      (h : stats.kind = .symbolicLink ∨ world.isOwned stats = false) :
      Held world (directory ++ [name])

/-- What a cleanup is for: nothing that is removed is held, lies in something that is held or
    contains something that is held; and what it removes is a stale download, the lease of one, or
    an entry of a temporary namespace of a recovery point. -/
structure DeletesStaleOnly (world : CleanupWorld) (final : CleanupState) : Prop where
  safe : ∀ entry, world.tree.lstat entry ≠ none → (∃ gone ∈ final.gone, gone <+: entry) →
    ∀ held, Held world held → ¬ held <+: entry ∧ ¬ entry <+: held
  provenance : ∀ path ∈ final.gone, world.tree.lstat path ≠ none →
    (∃ directory name, (path = directory ++ [name] ∨ path = leaseOf directory name)
        ∧ isDownloadCandidateName name = true
        ∧ ∃ stats, world.tree.lstat path = some stats ∧ ¬ Young world stats)
      ∨ ∃ point folder name,
        path = [point, folder, name] ∧ isUuid point = true ∧ folder ∈ namespaces

/-- The walk finds no stale download or lease around a leased path or a held directory, and the
    second pass no stale entry around a leased path. -/
structure HeldApart (world : CleanupWorld) : Prop where
  walk : ∀ path, world.tree.lstat path ≠ none → Abandoned world path → ∀ held,
    held ∈ world.activeRecoveryTemporaryPaths ∨ HeldDirectory world held →
    ¬ held <+: path ∧ ¬ path <+: held
  sweep : ∀ point folder name, Swept world point folder name →
    ∀ held ∈ world.activeRecoveryTemporaryPaths,
      ¬ held <+: [point, folder, name] ∧ ¬ [point, folder, name] <+: held

/-! ### Held entries and the walk -/

theorem staleDownload_of_abandoned {directory : EntryPath} {name : String}
    (hname : isDownloadCandidateName name = true) (h : Abandoned world (directory ++ [name])) :
    StaleDownload world directory name := by
  rcases h with h | ⟨parent, last, h, hpath⟩
  · exact (removable_download_iff hname).mp h
  · obtain ⟨-, hsame⟩ := List.append_inj' hpath rfl
    have hlease := isDownloadLeaseName_append h.isDownload
    rw [← List.singleton_inj.mp hsame, isDownloadLeaseName_of_download hname] at hlease
    cases hlease

/-- What the walk removes lies in directories that it scanned. -/
theorem eq_or_scanned_of_above {path above : EntryPath} (h : Abandoned world path)
    (habove : above <+: path) (hne : above ≠ []) :
    above = path ∨ ∃ depth, Scanned world depth above := by
  obtain ⟨parent, name, rfl, depth, -, hscanned⟩ := parent_of_abandoned h
  rcases List.prefix_concat_iff.mp habove with heq | habove
  · exact .inl heq
  · obtain ⟨depth', -, hscanned'⟩ := hscanned.above habove hne
    exact .inr ⟨depth', hscanned'⟩

/-- **The walk** leaves alone what is held, but for leases and held directories. -/
theorem apart_of_abandoned {path held : EntryPath} (h : Abandoned world path)
    (hexists : world.tree.lstat path ≠ none) (hheld : Held world held)
    (hwalk : held ∈ world.activeRecoveryTemporaryPaths ∨ HeldDirectory world held →
      ¬ held <+: path ∧ ¬ path <+: held) : ¬ held <+: path ∧ ¬ path <+: held := by
  cases hheld with
  | leased hactive => exact hwalk (.inl hactive)
  | directory hdirectory => exact hwalk (.inr hdirectory)
  | @download directory name hname hyoung =>
    have hdiffer : directory ++ [name] ≠ path := by
      rintro rfl
      have hstale := staleDownload_of_abandoned hname h
      rcases hyoung with ⟨stats, hstats, hyoung⟩ | ⟨lease, hlease, hyoung⟩
      · obtain ⟨stats', hstats', -, hold⟩ := hstale.stale
        rw [hstats, Option.some.injEq] at hstats'
        exact hold (hstats' ▸ hyoung)
      · exact (hstale.lease lease hlease).2 hyoung
    refine ⟨fun habove => ?_, fun hbelow => ?_⟩
    · rcases eq_or_scanned_of_above h habove (by simp) with heq | ⟨depth, hscanned⟩
      · exact hdiffer heq
      · exact absurd (hscanned.plain.noDownload.symm.trans hname) Bool.false_ne_true
    · -- the entry that is young lies beside or at the end of the path
      have hdirectory : path <+: directory := by
        rcases List.prefix_concat_iff.mp hbelow with heq | hbelow
        · exact absurd heq.symm hdiffer
        · exact hbelow
      have hbeside : ∃ last, world.tree.lstat (directory ++ [last]) ≠ none := by
        rcases hyoung with ⟨stats, hstats, -⟩ | ⟨lease, hlease, -⟩
        · exact ⟨name, by rw [hstats]; exact Option.some_ne_none stats⟩
        · exact ⟨_, by rw [← leaseOf, hlease]; exact Option.some_ne_none lease⟩
      obtain ⟨last, hlast⟩ := hbeside
      have heq := eq_of_abandoned_above h (hdirectory.trans (List.prefix_append _ _)) hlast
      have hle := hdirectory.length_le
      rw [heq, List.length_append, List.length_singleton] at hle
      omega
  | @foreign directory name stats hmet hstats hforeignLink =>
    have hdiffer : directory ++ [name] ≠ path := by
      rintro rfl
      have hfile := staleFile_of_abandoned h hstats
      rcases hforeignLink with hlink | hforeign
      · have hkind := hfile.1.1
        rw [hlink] at hkind
        cases hkind
      · exact absurd (hforeign.symm.trans hfile.1.2) Bool.false_ne_true
    refine ⟨fun habove => ?_, fun hbelow => ?_⟩
    · rcases eq_or_scanned_of_above h habove (by simp) with heq | ⟨depth, hscanned⟩
      · exact hdiffer heq
      · obtain ⟨stats', hstats', hkind, howned⟩ := hscanned.owned
        rw [hstats, Option.some.injEq] at hstats'
        subst hstats'
        rcases hforeignLink with hlink | hforeign
        · rw [hlink] at hkind
          cases hkind
        · exact absurd (hforeign.symm.trans howned) Bool.false_ne_true
    · exact hdiffer (eq_of_abandoned_above h hbelow hmet.2).symm

/-! ### Held entries and the second pass -/

/-- What is above an entry of a namespace. -/
theorem above_cases {point folder name : String} {path : EntryPath}
    (habove : path <+: [point, folder, name]) :
    path = [] ∨ path = [] ++ [point] ∨ path = [point] ++ [folder]
      ∨ path = [point, folder] ++ [name] := by
  rcases List.prefix_concat_iff.mp (show path <+: [point, folder] ++ [name] from habove)
    with heq | habove
  · exact .inr (.inr (.inr heq))
  · rcases List.prefix_concat_iff.mp (show path <+: [point] ++ [folder] from habove)
      with heq | habove
    · exact .inr (.inr (.inl heq))
    · rcases List.prefix_concat_iff.mp (show path <+: [] ++ [point] from habove) with heq | habove
      · exact .inr (.inl heq)
      · exact .inl (List.prefix_nil.mp habove)

namespace Swept

variable {point folder name : String} (h : Swept world point folder name)
include h

/-- A download in it is stale. -/
theorem staleDownload {parent : EntryPath} {last : String}
    (hbelow : [point, folder, name] <+: parent) (hmet : Met world parent last)
    (hlast : isDownloadCandidateName last = true) : StaleDownload world parent last := by
  by_contra hnot
  exact h.closed _ (.download hmet hlast hnot) (hbelow.trans (List.prefix_append _ _))

/-- So is a lease in it. -/
theorem staleLease {parent : EntryPath} {last : String} {stats : Stats}
    (hbelow : [point, folder, name] <+: parent) (hmet : Met world parent last)
    (hlast : isDownloadLeaseName last = true)
    (hstats : world.tree.lstat (parent ++ [last]) = some stats) : StaleFile world stats := by
  by_contra hnot
  by_cases hcandidate : parent ++ [candidateName last] ∈ world.activeRecoveryTemporaryPaths
      ∨ world.tree.lstat (parent ++ [candidateName last]) = none
  · refine h.closed _ (.lease hmet hlast hcandidate fun horphan => ?_)
      (hbelow.trans (List.prefix_append _ _))
    obtain ⟨stats', hstats', hstale⟩ := horphan.stale
    rw [hstats, Option.some.injEq] at hstats'
    exact hnot (hstats' ▸ hstale)
  · rw [not_or] at hcandidate
    have hdownload := h.staleDownload hbelow ⟨hmet.1, hcandidate.2⟩
      (Bool.and_eq_true_iff.mp hlast).2
    apply hnot
    apply hdownload.lease
    rw [leaseOf, ← eq_append_of_isDownloadLeaseName hlast]
    exact hstats

/-- All directories in it are scanned. -/
theorem scanned {directory : EntryPath} {stats : Stats}
    (hbelow : [point, folder, name] <+: directory)
    (hstats : world.tree.lstat directory = some stats) (hkind : stats.kind = .directory) :
    ∃ depth ≤ 8, Scanned world depth directory := by
  obtain ⟨rest, rfl⟩ := hbelow
  induction rest using List.reverseRecOn generalizing stats with
  | nil =>
    rw [List.append_nil] at hstats ⊢
    obtain ⟨stats', hstats', howned, -⟩ := h.stale
    rw [hstats, Option.some.injEq] at hstats'
    subst hstats'
    have hfolder : Scanned world 1 [point, folder] :=
      .child (.point h.uuid h.pointOwned) (by omega) (plainName_of_mem_namespaces h.mem)
        h.folderOwned
    exact ⟨2, by omega, .child hfolder (by omega) h.plain ⟨stats, hstats, hkind, howned⟩⟩
  | append_singleton rest last ih =>
    have hbelow : [point, folder, name] <+: [point, folder, name] ++ rest := List.prefix_append _ _
    rw [← List.append_assoc] at hstats ⊢
    have hexists : world.tree.lstat ([point, folder, name] ++ rest ++ [last]) ≠ none := by
      rw [hstats]
      exact Option.some_ne_none stats
    obtain ⟨parentStats, hparent, hparentKind⟩ := RecoveryTree.lstat_parent hexists
    obtain ⟨depth, hdepth, hscanned⟩ := ih hparentKind hparent
    have hmet : Met world ([point, folder, name] ++ rest) last :=
      ⟨⟨depth, hdepth, hscanned⟩, hexists⟩
    have hnoFile : ¬ StaleFile world stats := by
      intro hfile
      have hfileKind := hfile.1.1
      rw [hkind] at hfileKind
      cases hfileKind
    have hplain : PlainName last := by
      refine ⟨?_, ?_⟩
      · rw [← Bool.not_eq_true]
        intro hlast
        obtain ⟨stats', hstats', hfile⟩ := (h.staleDownload hbelow hmet hlast).stale
        rw [hstats, Option.some.injEq] at hstats'
        exact hnoFile (hstats' ▸ hfile)
      · rw [← Bool.not_eq_true]
        intro hlast
        exact hnoFile (h.staleLease hbelow hmet hlast hstats)
    have howned : world.isOwned stats = true := by
      by_contra hforeign
      exact h.closed _ (.entry hmet hplain hstats (.inr (by simpa using hforeign)))
        (hbelow.trans (List.prefix_append _ _))
    have hchild : Scanned world (depth + 1) ([point, folder, name] ++ rest ++ [last]) :=
      .child hscanned hdepth hplain ⟨stats, hstats, hkind, howned⟩
    have hnine : depth + 1 ≠ 9 := by
      intro hnine
      rw [hnine] at hchild
      exact h.closed _ (.deep hchild) (hbelow.trans (List.prefix_append _ _))
    exact ⟨depth + 1, by omega, hchild⟩

/-- **The second pass** leaves alone what is held, but for leases and for directories that the walk
    has removed something from. -/
theorem apart {held : EntryPath} (hheld : Held world held)
    (hwalk : HeldDirectory world held → ¬ Relieved world held)
    (hsweep : held ∈ world.activeRecoveryTemporaryPaths →
      ¬ held <+: [point, folder, name] ∧ ¬ [point, folder, name] <+: held) :
    ¬ held <+: [point, folder, name] ∧ ¬ [point, folder, name] <+: held := by
  cases hheld with
  | leased hactive => exact hsweep hactive
  | directory hdirectory =>
    have huntouched := hwalk hdirectory
    obtain ⟨⟨⟨point', folder', name', rfl, -⟩, -⟩, hheld⟩ := hdirectory
    have hdiffer : [point', folder', name'] ≠ [point, folder, name] := by
      intro heq
      rw [heq] at hheld huntouched
      obtain ⟨stats, hstats, -, hold, hkind⟩ := h.stale
      rcases hheld with ⟨stats', hstats', hyoung⟩ | ⟨lease, hlease, hyoung⟩ | hmarked
      · rw [hstats, Option.some.injEq] at hstats'
        exact hold.untouched huntouched (hstats' ▸ hyoung)
      all_goals
        rcases hkind with hfile | ⟨-, hmarker, hleaseStale⟩
      · have hinside : world.tree.lstat ([point, folder, name] ++ [directoryLease]) ≠ none := by
          rw [hlease]
          exact Option.some_ne_none lease
        obtain ⟨parent, hparent, hkind⟩ := RecoveryTree.lstat_parent hinside
        rw [hstats, Option.some.injEq] at hparent
        rw [← hparent, hfile] at hkind
        cases hkind
      · exact (hleaseStale lease hlease).2 hyoung
      · obtain ⟨parent, hparent, hkind⟩ := RecoveryTree.lstat_parent hmarked
        rw [hstats, Option.some.injEq] at hparent
        rw [← hparent, hfile] at hkind
        cases hkind
      · exact hmarked hmarker
    exact ⟨fun habove => hdiffer (habove.eq_of_length rfl),
      fun hbelow => hdiffer (hbelow.eq_of_length rfl).symm⟩
  | @download directory last hlast hyoung =>
    refine ⟨fun habove => ?_, fun hbelow => ?_⟩
    · have hnot : ¬ PlainName last := fun hplain =>
        absurd (hplain.noDownload.symm.trans hlast) Bool.false_ne_true
      rcases above_cases habove with hpath | hpath | hpath | hpath
      · simp at hpath
      all_goals obtain ⟨-, hsame⟩ := List.append_inj' hpath rfl
      · exact hnot (List.singleton_inj.mp hsame ▸ plainName_of_isUuid h.uuid)
      · exact hnot (List.singleton_inj.mp hsame ▸ plainName_of_mem_namespaces h.mem)
      · exact hnot (List.singleton_inj.mp hsame ▸ h.plain)
    · have hdirectory : [point, folder, name] <+: directory := by
        rcases List.prefix_concat_iff.mp hbelow with heq | hbelow
        · have hsplit : [point, folder] ++ [name] = directory ++ [last] := heq
          obtain ⟨-, hsame⟩ := List.append_inj' hsplit rfl
          rw [← List.singleton_inj.mp hsame, h.plain.noDownload] at hlast
          cases hlast
        · exact hbelow
      have hmet : ∀ {other stats}, world.tree.lstat (directory ++ [other]) = some stats →
          Met world directory other := by
        intro other stats hstats
        have hexists : world.tree.lstat (directory ++ [other]) ≠ none := by
          rw [hstats]
          exact Option.some_ne_none stats
        obtain ⟨parent, hparent, hkind⟩ := RecoveryTree.lstat_parent hexists
        exact ⟨h.scanned hdirectory hparent hkind, hexists⟩
      rcases hyoung with ⟨stats, hstats, hyoung⟩ | ⟨lease, hlease, hyoung⟩
      · obtain ⟨stats', hstats', -, hold⟩ :=
          (h.staleDownload hdirectory (hmet hstats) hlast).stale
        rw [hstats, Option.some.injEq] at hstats'
        exact hold (hstats' ▸ hyoung)
      · exact (h.staleLease hdirectory (hmet hlease) (isDownloadLeaseName_append hlast) hlease).2
          hyoung
  | @foreign directory last stats hmet hstats hforeignLink =>
    have hnoFile : ¬ StaleFile world stats := by
      intro hfile
      rcases hforeignLink with hlink | hforeign
      · have hkind := hfile.1.1
        rw [hlink] at hkind
        cases hkind
      · exact absurd (hforeign.symm.trans hfile.1.2) Bool.false_ne_true
    have hdiffer : [point, folder] ++ [name] ≠ directory ++ [last] := by
      intro heq
      obtain ⟨stats', hstats', howned, -, hkind⟩ := h.stale
      have hsame : world.tree.lstat [point, folder, name] = some stats := by
        rw [← hstats, ← heq]
        rfl
      rw [hsame, Option.some.injEq] at hstats'
      subst hstats'
      rcases hforeignLink with hlink | hforeign
      · rcases hkind with hfile | ⟨hdirectory, -⟩
        · rw [hlink] at hfile
          cases hfile
        · rw [hlink] at hdirectory
          cases hdirectory
      · exact absurd (hforeign.symm.trans howned) Bool.false_ne_true
    refine ⟨fun habove => ?_, fun hbelow => ?_⟩
    · have hnotOwned : ¬ OwnedDirectory world (directory ++ [last]) := by
        rintro ⟨stats', hstats', hkind, howned⟩
        rw [hstats, Option.some.injEq] at hstats'
        subst hstats'
        rcases hforeignLink with hlink | hforeign
        · rw [hlink] at hkind
          cases hkind
        · exact absurd (hforeign.symm.trans howned) Bool.false_ne_true
      rcases above_cases habove with hpath | hpath | hpath | hpath
      · simp at hpath
      · exact hnotOwned (hpath ▸ h.pointOwned)
      · exact hnotOwned (hpath ▸ h.folderOwned)
      · exact hdiffer hpath.symm
    · have hdirectory : [point, folder, name] <+: directory := by
        rcases List.prefix_concat_iff.mp hbelow with heq | hbelow
        · exact absurd heq hdiffer
        · exact hbelow
      by_cases hdownload : isDownloadCandidateName last = true
      · obtain ⟨stats', hstats', hfile⟩ := (h.staleDownload hdirectory hmet hdownload).stale
        rw [hstats, Option.some.injEq] at hstats'
        exact hnoFile (hstats' ▸ hfile)
      · by_cases hlease : isDownloadLeaseName last = true
        · exact hnoFile (h.staleLease hdirectory hmet hlease hstats)
        · have hplain : PlainName last :=
            ⟨Bool.not_eq_true _ ▸ hdownload, Bool.not_eq_true _ ▸ hlease⟩
          exact h.closed _ (.entry hmet hplain hstats hforeignLink) hbelow

end Swept

/-! ### Deleting stale residue only -/

/-- A recovery point. -/
def cleanedPoint : String := "00000000-0000-4000-8000-000000000101"

/-- An entry that was last changed at the start of the epoch. -/
def oldEntry (kind : FileKind) : Stats := ⟨kind, 0, 0, 0, 0⟩

/-- Two old temporary directories, one with an old download in it, an hour later. -/
def abandonedWorld : CleanupWorld where
  tree :=
    ⟨[([], oldEntry .directory), ([cleanedPoint], oldEntry .directory),
      ([cleanedPoint, ".capture"], oldEntry .directory),
      ([cleanedPoint, ".capture", "attempt"], oldEntry .directory),
      ([cleanedPoint, ".capture", "attempt", ".download-a.tmp"], oldEntry .file),
      ([cleanedPoint, ".capture", "empty"], oldEntry .directory)],
      by decide, by decide⟩
  currentUid := some 0
  activeRecoveryTemporaryPaths := []
  maxAgeMs := 900000
  nowMs := 3600000
  modifiedMs := fun _ => 3600000

/-- What the cleanup does there: it removes the download, which makes the directory of it young,
    and the empty directory. -/
def abandonedFinal : CleanupState where
  gone := [[cleanedPoint, ".capture", "empty"],
    [cleanedPoint, ".capture", "attempt", ".download-a.tmp.composebastion-active"],
    [cleanedPoint, ".capture", "attempt", ".download-a.tmp"]]
  protectedTemporaryAncestors := []
  removed := 2
  skipped := 1

/-- A temporary directory that was kept for its evidence, with an old download in it, an hour after
    both. -/
def markedWorld : CleanupWorld where
  tree :=
    ⟨[([], oldEntry .directory), ([cleanedPoint], oldEntry .directory),
      ([cleanedPoint, ".capture"], oldEntry .directory),
      ([cleanedPoint, ".capture", "attempt"], oldEntry .directory),
      ([cleanedPoint, ".capture", "attempt", reconciliationMarker], oldEntry .file),
      ([cleanedPoint, ".capture", "attempt", ".download-a.tmp"], oldEntry .file)],
      by decide, by decide⟩
  currentUid := some 0
  activeRecoveryTemporaryPaths := []
  maxAgeMs := 900000
  nowMs := 3600000
  modifiedMs := fun _ => 3600000

/-- What the cleanup does there: it removes the download, and skips the directory. -/
def markedFinal : CleanupState where
  gone := [[cleanedPoint, ".capture", "attempt", ".download-a.tmp.composebastion-active"],
    [cleanedPoint, ".capture", "attempt", ".download-a.tmp"]]
  protectedTemporaryAncestors := []
  removed := 1
  skipped := 1

end ComposeBastion.Residue
