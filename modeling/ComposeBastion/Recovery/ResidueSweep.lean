import ComposeBastion.Recovery.ResidueWalk

namespace ComposeBastion.Residue

open Runs Js

/-!
# The second pass and the whole cleanup

What the second pass does in the namespaces of a recovery point after the walk, and what a
cleanup removes in all.

* `processNamespaceCandidate_spec`, `sweepNamespace_spec` — an entry of a namespace, and all;
* `cleanPoint_spec` — both passes over a recovery point;
* `gone_iff` — the entries that a cleanup removes, read off the tree that it found.
-/

variable {world : CleanupWorld} {points : List String} {state state' : CleanupState}

/-! ### The second pass -/

theorem not_plainName_of_abandoned {directory : EntryPath} {name : String}
    (h : Abandoned world (directory ++ [name])) : ¬ PlainName name := by
  intro hplain
  rcases h with h | ⟨parent, last, h, hpath⟩
  · obtain ⟨parent, last, hpath, -, hnot⟩ := met_of_removable h
    obtain ⟨-, hsame⟩ := List.append_inj' hpath rfl
    exact hnot (List.singleton_inj.mp hsame ▸ hplain)
  · obtain ⟨-, hsame⟩ := List.append_inj' hpath rfl
    rw [List.singleton_inj.mp hsame] at hplain
    exact absurd (hplain.noLease.symm.trans (isDownloadLeaseName_append h.isDownload))
      Bool.false_ne_true

namespace Sound

/-- An entry of a namespace is missing only when it was removed. -/
theorem mem_gone_of_missing (h : Sound world points state) {point folder name : String}
    (hexists : world.tree.lstat [point, folder, name] ≠ none)
    (hmissing : lstat world state [point, folder, name] = none) :
    [point, folder, name] ∈ state.gone := by
  rcases lstat_eq_none_iff.mp hmissing with ⟨gone, hgone, habove⟩ | hnone
  · rcases h.gone_above hgone habove hexists with ⟨rfl, -⟩ | ⟨_, _, _, -, rfl, -⟩
    · exact hgone
    · exact habove.eq_of_length rfl ▸ hgone
  · exact absurd hnone hexists

/-- The marker and the lease in a directory that is there are still there. -/
theorem lstat_inside (h : Sound world points state) {point folder name inside : String}
    {stats : Stats} (hthere : lstat world state [point, folder, name] = some stats)
    (hplain : PlainName inside) :
    lstat world state [point, folder, name, inside] = none
      ↔ world.tree.lstat [point, folder, name, inside] = none := by
  refine ⟨fun hnone => ?_, fun hnone => lstat_eq_none_iff.mpr (.inr hnone)⟩
  by_contra hexists
  rcases lstat_eq_none_iff.mp hnone with ⟨gone, hgone, habove⟩ | hmissing
  · have hpresent : lstat world state [point, folder, name] ≠ none := by
      rw [hthere]
      exact Option.some_ne_none stats
    rcases List.prefix_concat_iff.mp (show gone <+: [point, folder, name] ++ [inside] from habove)
      with heq | habove'
    · rcases h.gone_above hgone habove hexists with ⟨-, habandoned⟩ | ⟨_, _, _, -, hthree, -⟩
      · have hinside : Abandoned world ([point, folder, name] ++ [inside]) := habandoned
        exact not_plainName_of_abandoned hinside hplain
      · rw [heq] at hthree
        exact absurd (congrArg List.length hthree) (by simp)
    · exact hpresent (lstat_eq_none_iff.mpr (.inl ⟨gone, hgone, habove'⟩))
  · exact hexists hmissing

/-- After the walk, the directories of a namespace that were modified are those that the walk
    removed something from. -/
theorem modified_iff_relieved (h : Sound world points state) {point folder name : String}
    (hbelow : DoneBelow world state [point]) :
    modified world state [point, folder, name] = true ↔ Relieved world [point, folder, name] := by
  rw [modified_iff]
  refine exists_congr fun last => and_congr_right fun hexists => ?_
  constructor
  · intro hgone
    rcases h.gone _ hgone with habandoned | ⟨_, _, _, -, hthree, -⟩
    · exact habandoned
    · exact absurd (congrArg List.length hthree) (by simp)
  · rintro (hremovable | ⟨parent, download, hstale, hpath⟩)
    · exact (hbelow _ ⟨[folder, name, last], rfl⟩).removed hremovable
    · -- a lease goes with its download
      obtain ⟨rfl, hlast⟩ := List.append_inj' hpath rfl
      have hgone : [point, folder, name] ++ [download] ∈ state.gone :=
        (hbelow _ ⟨[folder, name, download], rfl⟩).removed (.download hstale)
      rw [hlast]
      exact h.pair _ _ hgone hstale.isDownload

end Sound

/-- A lease that is still there is stale when it was. -/
theorem staleLease_iff {path : EntryPath}
    (hthere : lstat world state path = none ↔ world.tree.lstat path = none) :
    (∀ lease, lstat world state path = some lease → StaleFile world lease)
      ↔ ∀ lease, world.tree.lstat path = some lease → StaleFile world lease := by
  cases hlstat : lstat world state path with
  | none =>
    rw [hthere.mp hlstat]
  | some lease =>
    obtain ⟨found, hfound, hsame, -⟩ := exists_found hlstat
    rw [hfound]
    simp only [Option.some.injEq, forall_eq']
    exact hsame.staleFile.symm

section

variable {point folder : String} (huuid : isUuid point = true)
  (hpointOwned : OwnedDirectory world [point]) (hmem : folder ∈ namespaces)
  (hfolderOwned : OwnedDirectory world [point, folder])
include huuid hpointOwned hmem hfolderOwned

/-- **An entry of a namespace** is removed when nothing holds it. -/
theorem processNamespaceCandidate_spec (hstate : Sound world (point :: points) state)
    (hbelow : DoneBelow world state [point]) {name : String} (hnoLease : name ≠ directoryLease)
    (hplain : PlainName name) (hexists : world.tree.lstat [point, folder, name] ≠ none) :
    Sound world (point :: points) (processNamespaceCandidate world [point, folder, name] state)
      ∧ Extends state (processNamespaceCandidate world [point, folder, name] state)
      ∧ (Swept world point folder name →
        [point, folder, name] ∈
          (processNamespaceCandidate world [point, folder, name] state).gone) := by
  have hskip : ¬ Swept world point folder name →
      Sound world (point :: points) state.skip ∧ Extends state state.skip
        ∧ (Swept world point folder name → [point, folder, name] ∈ state.skip.gone) := fun hnot =>
    ⟨⟨hstate.gone, hstate.pair, hstate.kept⟩, ⟨List.Subset.refl _, List.Subset.refl _⟩,
      fun h => absurd h hnot⟩
  unfold processNamespaceCandidate
  by_cases hheld : [point, folder, name] ∈ world.activeRecoveryTemporaryPaths
      ∨ [point, folder, name] ∈ state.protectedTemporaryAncestors
  · rw [if_pos hheld]
    apply hskip
    intro h
    rcases hheld with hactive | hprotected
    · exact h.free hactive
    · obtain ⟨-, held, hkeeps, habove⟩ := hstate.kept _ hprotected
      exact h.closed held hkeeps habove
  · rw [if_neg hheld]
    rw [not_or] at hheld
    cases hstats : lstat world state [point, folder, name] with
    | none =>
      exact ⟨hstate, .refl state, fun _ => hstate.mem_gone_of_missing hexists hstats⟩
    | some stats =>
      obtain ⟨found, htree, hsame, heq⟩ := exists_found hstats
      have hold : OldAfterWalk world [point, folder, name] found ↔ ¬ Young world stats := by
        rw [heq]
        by_cases hmodified : modified world state [point, folder, name] = true
        · have hrelieved := (hstate.modified_iff_relieved hbelow).mp hmodified
          rw [if_pos hmodified]
          exact ⟨fun h => h.relieved hrelieved, fun h => ⟨fun _ => h, absurd hrelieved⟩⟩
        · have hrelieved := mt (hstate.modified_iff_relieved hbelow).mpr hmodified
          rw [if_neg hmodified]
          exact ⟨fun h => h.untouched hrelieved, fun h => ⟨fun h => absurd h hrelieved, fun _ => h⟩⟩
      have hstale : Swept world point folder name → world.isOwned stats = true
          ∧ ¬ Young world stats ∧ (stats.kind = .file ∨ stats.kind = .directory
            ∧ world.tree.lstat [point, folder, name, reconciliationMarker] = none
            ∧ ∀ lease, world.tree.lstat [point, folder, name, directoryLease] = some lease →
              StaleFile world lease) := by
        intro h
        obtain ⟨found', hfound', howned, hafter, hkind⟩ := h.stale
        rw [htree, Option.some.injEq] at hfound'
        subst hfound'
        rw [hsame.owned] at howned
        rw [hsame.kind] at hkind
        exact ⟨howned, hold.mp hafter, hkind⟩
      have hmarker := hstate.lstat_inside hstats
        (show PlainName reconciliationMarker from ⟨by decide, by decide⟩)
      have hlease := staleLease_iff (hstate.lstat_inside hstats
        (show PlainName directoryLease from ⟨by decide, by decide⟩))
      simp only [List.cons_append, List.nil_append]
      by_cases howned : world.isOwned stats = true
      swap
      · have hforeign : world.isOwned stats = false := by simpa using howned
        rw [if_pos (by simp [hforeign])]
        exact hskip fun h => howned (hstale h).1
      by_cases hkind : stats.kind = .file ∨ stats.kind = .directory
      swap
      · rw [if_pos (by
          rcases stats with ⟨kind, uid, dev, ino, mtimeMs⟩
          cases kind <;>
            simp_all [Stats.isSymbolicLink, Stats.isDirectory, Stats.isFile])]
        exact hskip fun h => hkind ((hstale h).2.2.imp_right And.left)
      rw [if_neg (by
        rcases hkind with hkind | hkind <;>
          simp [hkind, howned, Stats.isSymbolicLink, Stats.isDirectory, Stats.isFile])]
      have hrm := removeCandidateIfUnchanged_eq hstats howned hkind
      have hremove : Swept world point folder name →
          Sound world (point :: points) (state.rm [point, folder, name]).countRemoved
            ∧ Extends state (state.rm [point, folder, name]).countRemoved
            ∧ (Swept world point folder name → [point, folder, name] ∈
              (state.rm [point, folder, name]).countRemoved.gone) := by
        intro hswept
        refine ⟨⟨fun path hpath => ?_, fun other last hother hlast => ?_, hstate.kept⟩,
          ⟨fun path hpath => List.mem_cons_of_mem _ hpath, List.Subset.refl _⟩,
          fun _ => List.mem_cons_self⟩
        · rcases List.mem_cons.mp hpath with rfl | hpath
          · exact .inr ⟨point, folder, name, List.mem_cons_self, rfl, hswept⟩
          · exact hstate.gone path hpath
        · rcases List.mem_cons.mp hother with heq | hother
          · have hsplit : other ++ [last] = [point, folder] ++ [name] := heq
            obtain ⟨-, hsame⟩ := List.append_inj' hsplit rfl
            rw [List.singleton_inj.mp hsame, hplain.noDownload] at hlast
            cases hlast
          · exact List.mem_cons_of_mem _ (hstate.pair other last hother hlast)
      have hclosed : ∀ path, Keeps world path → ¬ [point, folder, name] <+: path := by
        intro path hkeeps habove
        have hdone := hbelow path (List.IsPrefix.trans ⟨[folder, name], rfl⟩ habove)
        exact hheld.2 (hdone.kept hkeeps _ (by simp) habove)
      rcases hkind with hkind | hkind
      · -- a file
        have hdirectory : stats.isDirectory = false := by simp [Stats.isDirectory, hkind]
        rw [if_neg (by simp [hdirectory])]
        simp only [hdirectory, Bool.false_eq_true, if_false, Bool.not_true, Bool.false_or,
          decide_eq_true_eq]
        by_cases hyoung : world.nowMs - stats.mtimeMs < world.maxAgeMs
        · rw [if_pos hyoung]
          exact hskip fun h => (hstale h).2.1 hyoung
        · rw [hdirectory] at hrm
          rw [if_neg hyoung, hrm]
          exact hremove ⟨huuid, hpointOwned, hmem, hfolderOwned, hnoLease, hplain, hheld.1, hclosed,
            found, htree, hsame.owned.trans howned, hold.mpr hyoung, .inl (hsame.kind.trans hkind)⟩
      · -- a directory
        have hdirectory : stats.isDirectory = true := by simp [Stats.isDirectory, hkind]
        by_cases hmarked : world.tree.lstat [point, folder, name, reconciliationMarker] = none
        swap
        · rw [if_pos (by simp [hdirectory, Option.isSome_iff_ne_none, hmarker, hmarked])]
          refine hskip fun h => ?_
          rcases (hstale h).2.2 with hfile | ⟨-, hnone, -⟩
          · rw [hkind] at hfile
            cases hfile
          · exact hmarked hnone
        rw [if_neg (by simp [hmarker.mpr hmarked])]
        simp only [hdirectory, if_true]
        cases hfresh : (!(readLeaseFreshness world stats
            (lstat world state [point, folder, name, directoryLease])).safe
          || decide (world.nowMs - (readLeaseFreshness world stats
            (lstat world state [point, folder, name, directoryLease])).mtimeMs
              < world.maxAgeMs)) with
        | true =>
          rw [if_pos rfl]
          refine hskip fun h => ?_
          rcases (hstale h).2.2 with hfile | ⟨-, -, hleaseStale⟩
          · rw [hkind] at hfile
            cases hfile
          · rw [readLeaseFreshness_stale_iff.mpr ⟨(hstale h).2.1, hlease.mpr hleaseStale⟩] at hfresh
            cases hfresh
        | false =>
          obtain ⟨hyoung, hleaseStale⟩ := readLeaseFreshness_stale_iff.mp hfresh
          rw [hdirectory] at hrm
          rw [if_neg Bool.false_ne_true, hrm]
          exact hremove ⟨huuid, hpointOwned, hmem, hfolderOwned, hnoLease, hplain, hheld.1, hclosed,
            found, htree, hsame.owned.trans howned, hold.mpr hyoung,
            .inr ⟨hsame.kind.trans hkind, hmarked, hlease.mp hleaseStale⟩⟩

/-- **A namespace** is through when all its entries are. -/
theorem sweepEntries_spec (hstate : Sound world (point :: points) state)
    (hbelow : DoneBelow world state [point]) {entries : List String}
    (hentries : ∀ name ∈ entries, world.tree.lstat [point, folder, name] ≠ none) :
    (Sound world (point :: points) (exec (sweepEntry world [point, folder]) state entries)
        ∧ DoneBelow world (exec (sweepEntry world [point, folder]) state entries) [point])
      ∧ Extends state (exec (sweepEntry world [point, folder]) state entries)
      ∧ ∀ name ∈ entries, Swept world point folder name → [point, folder, name] ∈
        (exec (sweepEntry world [point, folder]) state entries).gone := by
  refine @exec_establishes CleanupState String (sweepEntry world [point, folder])
    (fun state => Sound world (point :: points) state ∧ DoneBelow world state [point]) Extends
    (fun state name => Swept world point folder name → [point, folder, name] ∈ state.gone) entries
    Extends.refl (fun _ _ _ => Extends.trans) (fun _ _ _ h hdone hswept => h.gone (hdone hswept))
    (fun state name hname ⟨hstate, hbelow⟩ => ?_) state ⟨hstate, hbelow⟩
  unfold sweepEntry
  by_cases hother : (name = directoryLease || isDownloadCandidateName name
      || isDownloadLeaseName name) = true
  · rw [if_pos hother]
    refine ⟨⟨hstate, hbelow⟩, .refl state, fun h => ?_⟩
    simp [h.noLease, h.plain.noDownload, h.plain.noLease] at hother
  · rw [if_neg hother]
    simp only [Bool.or_eq_true, decide_eq_true_eq, not_or, Bool.not_eq_true] at hother
    obtain ⟨hsound, hextends, hgone⟩ := processNamespaceCandidate_spec huuid hpointOwned hmem
      hfolderOwned hstate hbelow hother.1.1 ⟨hother.1.2, hother.2⟩ (hentries name hname)
    exact ⟨⟨hsound, hbelow.mono hextends⟩, hextends, hgone⟩

end

/-- A point and its namespaces are still there. -/
theorem Sound.lstat_top (h : Sound world points state) (directory : EntryPath) {name : String}
    (hplain : PlainName name) (hlength : (directory ++ [name]).length < 3) :
    lstat world state (directory ++ [name]) = none
      ↔ world.tree.lstat (directory ++ [name]) = none := by
  refine ⟨fun hnone => ?_, fun hnone => lstat_eq_none_iff.mpr (.inr hnone)⟩
  by_contra hexists
  rcases lstat_eq_none_iff.mp hnone with ⟨gone, hgone, habove⟩ | hmissing
  · rcases h.gone_above hgone habove hexists with ⟨-, habandoned⟩ | ⟨_, _, _, -, rfl, -⟩
    · exact not_plainName_of_abandoned habandoned hplain
    · have hle := habove.length_le
      rw [List.length_cons, List.length_cons, List.length_singleton] at hle
      omega
  · exact hexists hmissing

/-- The check of a directory that the loops make. -/
theorem not_ownedDirectory_iff {path : EntryPath} {stats : Stats}
    (hstats : lstat world state path = some stats) :
    (!stats.isDirectory || stats.isSymbolicLink || !world.isOwned stats) = true
      ↔ ¬ OwnedDirectory world path := by
  obtain ⟨found, hfound, hsame, -⟩ := exists_found hstats
  have howned : OwnedDirectory world path
      ↔ stats.kind = .directory ∧ world.isOwned stats = true := by
    rw [← hsame.kind, ← hsame.owned]
    constructor
    · rintro ⟨found', hfound', h⟩
      rw [hfound, Option.some.injEq] at hfound'
      exact hfound' ▸ h
    · exact fun h => ⟨found, hfound, h⟩
  rw [howned]
  rcases stats with ⟨kind, uid, dev, ino, mtimeMs⟩
  cases kind <;> simp [Stats.isDirectory, Stats.isSymbolicLink]

theorem sweepNamespace_spec {point folder : String} (huuid : isUuid point = true)
    (hpointOwned : OwnedDirectory world [point]) (hmem : folder ∈ namespaces)
    (hstate : Sound world (point :: points) state) (hbelow : DoneBelow world state [point]) :
    (Sound world (point :: points) (sweepNamespace world point state folder)
        ∧ DoneBelow world (sweepNamespace world point state folder) [point])
      ∧ Extends state (sweepNamespace world point state folder)
      ∧ ∀ name, Swept world point folder name →
        [point, folder, name] ∈ (sweepNamespace world point state folder).gone := by
  have htop : lstat world state [point, folder] = none ↔ world.tree.lstat [point, folder] = none :=
    hstate.lstat_top [point] (plainName_of_mem_namespaces hmem) (by simp)
  unfold sweepNamespace
  cases hstats : lstat world state [point, folder] with
  | none =>
    exact ⟨⟨hstate, hbelow⟩, .refl state, fun name h =>
      absurd (htop.mp hstats) h.folderOwned.exists⟩
  | some stats =>
    simp only
    by_cases howned : OwnedDirectory world [point, folder]
    · rw [if_neg fun h => (not_ownedDirectory_iff hstats).mp h howned]
      have hreaddir : readdir world state [point, folder] =
          some ((world.tree.readdir [point, folder]).filter fun name =>
            lstat world state ([point, folder] ++ [name]) ≠ none) := by
        rw [readdir, if_neg fun hnone => howned.exists (htop.mp hnone)]
      rw [hreaddir]
      simp only
      have hentries : ∀ name ∈ (world.tree.readdir [point, folder]).filter (fun name =>
          lstat world state ([point, folder] ++ [name]) ≠ none),
          world.tree.lstat [point, folder, name] ≠ none := fun name hname =>
        RecoveryTree.mem_readdir.mp (List.mem_filter.mp hname).1
      obtain ⟨hkept, hextends, hall⟩ :=
        sweepEntries_spec huuid hpointOwned hmem howned hstate hbelow hentries
      refine ⟨hkept, hextends, fun name h => ?_⟩
      obtain ⟨entry, hentry, -⟩ := h.stale
      have hexists : world.tree.lstat [point, folder, name] ≠ none := by
        rw [hentry]
        exact Option.some_ne_none entry
      by_cases hmissing : lstat world state [point, folder, name] = none
      · exact hextends.gone (hstate.mem_gone_of_missing hexists hmissing)
      · exact hall name (List.mem_filter.mpr
          ⟨RecoveryTree.mem_readdir.mpr hexists, decide_eq_true hmissing⟩) h
    · rw [if_pos ((not_ownedDirectory_iff hstats).mpr howned)]
      have hextends : Extends state state.skip := ⟨List.Subset.refl _, List.Subset.refl _⟩
      exact ⟨⟨⟨hstate.gone, hstate.pair, hstate.kept⟩, hbelow.mono hextends⟩, hextends,
        fun name h => absurd h.folderOwned howned⟩

/-! ### A whole cleanup -/

/-- Both passes are through with a point. -/
structure PointDone (world : CleanupWorld) (state : CleanupState) (point : String) : Prop where
  walked : DoneBelow world state [point]
  swept : ∀ folder name, Swept world point folder name → [point, folder, name] ∈ state.gone

theorem PointDone.mono {point : String} (h : Extends state state')
    (hdone : PointDone world state point) : PointDone world state' point :=
  ⟨hdone.walked.mono h, fun folder name hswept => h.gone (hdone.swept folder name hswept)⟩

/-- In a directory of the root that is no point there is nothing to do. -/
theorem pointDone_of_not_scanned {point : String}
    (h : ¬ (isUuid point = true ∧ OwnedDirectory world [point])) : PointDone world state point := by
  have hnone : ∀ path, [point] <+: path → Removable world path ∨ Keeps world path → False := by
    intro path habove hpath
    have hscanned : ∃ depth, Scanned world depth [point] := by
      by_cases heq : [] ++ [point] = path
      · -- an entry that the walk comes to lies in a directory
        subst heq
        have hentry : ∃ parent last, [] ++ [point] = parent ++ [last] ∧ Met world parent last := by
          rcases hpath with hpath | hpath
          · obtain ⟨parent, last, hsplit, hmet, -⟩ := met_of_removable hpath
            exact ⟨parent, last, hsplit, hmet⟩
          · exact met_of_keeps hpath
        obtain ⟨parent, last, hsplit, hmet⟩ := hentry
        obtain ⟨hnil, -⟩ := List.append_inj' hsplit rfl
        exact absurd hnil.symm hmet.ne_nil
      · obtain ⟨depth, -, hscanned⟩ := scanned_of_below hpath habove heq
        exact ⟨depth, hscanned⟩
    obtain ⟨depth, hscanned⟩ := hscanned
    have hlength := hscanned.length
    rw [List.length_singleton] at hlength
    have hzero : depth = 0 := by omega
    subst hzero
    generalize hsingle : [point] = directory at hscanned
    cases hscanned with
    | point huuid howned =>
      rw [List.singleton_inj.mp hsingle] at h
      exact h ⟨huuid, howned⟩
  exact ⟨fun path habove => ⟨fun hremovable => (hnone path habove (.inl hremovable)).elim,
      fun hkeeps => (hnone path habove (.inr hkeeps)).elim⟩,
    fun folder name hswept => absurd ⟨hswept.uuid, hswept.pointOwned⟩ h⟩

/-- **A recovery point.**  The walk comes first, so the second pass knows all that is kept. -/
theorem cleanPoint_spec {point : String} (hnew : point ∉ points)
    (hstate : Sound world points state) :
    Sound world (point :: points) (cleanPoint world state point)
      ∧ Extends state (cleanPoint world state point)
      ∧ PointDone world (cleanPoint world state point) point := by
  unfold cleanPoint
  by_cases huuid : isUuid point = true
  swap
  · rw [if_pos (by simpa using huuid)]
    exact ⟨hstate.weaken point, .refl state, pointDone_of_not_scanned fun h => huuid h.1⟩
  rw [if_neg (by simp [huuid])]
  have htop : lstat world state [point] = none ↔ world.tree.lstat [point] = none :=
    hstate.lstat_top [] (plainName_of_isUuid huuid) (by simp)
  cases hstats : lstat world state [point] with
  | none =>
    exact ⟨hstate.weaken point, .refl state,
      pointDone_of_not_scanned fun h => h.2.exists (htop.mp hstats)⟩
  | some stats =>
    simp only
    by_cases howned : OwnedDirectory world [point]
    swap
    · rw [if_pos ((not_ownedDirectory_iff hstats).mpr howned)]
      have hsound : Sound world points state.skip := ⟨hstate.gone, hstate.pair, hstate.kept⟩
      exact ⟨hsound.weaken point, ⟨List.Subset.refl _, List.Subset.refl _⟩,
        pointDone_of_not_scanned fun h => howned h.2⟩
    rw [if_neg fun h => (not_ownedDirectory_iff hstats).mp h howned]
    have hpoints : ∀ other ∈ points, [point].head? ≠ some other := by
      intro other hother heq
      exact hnew (Option.some.inj heq ▸ hother)
    obtain ⟨hwalked, hextends, hbelow⟩ :=
      scanDownloads_spec (show 9 + 0 = 9 from rfl) (.point huuid howned) hpoints hstate
    obtain ⟨⟨hsound, hbelow'⟩, hextends', hall⟩ := @exec_establishes CleanupState String
      (sweepNamespace world point)
      (fun state => Sound world (point :: points) state ∧ DoneBelow world state [point]) Extends
      (fun state folder => ∀ name, Swept world point folder name →
        [point, folder, name] ∈ state.gone) namespaces
      Extends.refl (fun _ _ _ => Extends.trans)
      (fun _ _ _ h hdone name hswept => h.gone (hdone name hswept))
      (fun _ _ hfolder hkept => sweepNamespace_spec huuid howned hfolder hkept.1 hkept.2)
      (scanDownloads world 9 [point] state) ⟨hwalked.weaken point, hbelow⟩
    exact ⟨hsound, hextends.trans hextends', hbelow', fun folder name hswept =>
      hall folder hswept.mem name hswept⟩

theorem cleanPoints_spec {names : List String} (hnodup : names.Nodup)
    (hnew : ∀ name ∈ names, name ∉ points) (hstate : Sound world points state) :
    (∃ points', Sound world points' (exec (cleanPoint world) state names))
      ∧ Extends state (exec (cleanPoint world) state names)
      ∧ ∀ name ∈ names, PointDone world (exec (cleanPoint world) state names) name := by
  induction names generalizing points state with
  | nil => exact ⟨⟨points, hstate⟩, .refl state, fun name hname => absurd hname List.not_mem_nil⟩
  | cons point names ih =>
    obtain ⟨hsound, hextends, hdone⟩ := cleanPoint_spec (hnew point List.mem_cons_self) hstate
    rw [List.nodup_cons] at hnodup
    have hrest : ∀ name ∈ names, name ∉ point :: points := by
      intro name hname hmem
      rcases List.mem_cons.mp hmem with rfl | hmem
      · exact hnodup.1 hname
      · exact hnew name (List.mem_cons_of_mem point hname) hmem
    obtain ⟨hsound', hextends', hdone'⟩ := ih hnodup.2 hrest hsound
    refine ⟨hsound', hextends.trans hextends', fun name hname => ?_⟩
    rcases List.mem_cons.mp hname with rfl | hname
    · exact hdone.mono hextends'
    · exact hdone' name hname

theorem cleanup_spec {final : CleanupState}
    (h : cleanupStaleRecoveryTemporaryResidue world = .ok final) :
    (∃ points, Sound world points final)
      ∧ ∀ point, world.tree.lstat [point] ≠ none → PointDone world final point := by
  have hempty : Sound world [] ⟨[], [], 0, 0⟩ :=
    ⟨fun path hpath => absurd hpath List.not_mem_nil,
      fun directory name hgone => absurd hgone List.not_mem_nil,
      fun path hpath => absurd hpath List.not_mem_nil⟩
  unfold cleanupStaleRecoveryTemporaryResidue at h
  simp only at h
  split at h
  · cases h
  · split at h
    · rename_i hroot
      cases h
      refine ⟨⟨[], hempty⟩, fun point hpoint => ?_⟩
      -- without a root there are no entries
      rcases lstat_eq_none_iff.mp hroot with ⟨gone, hgone, -⟩ | hnone
      · cases hgone
      · exact absurd hnone (RecoveryTree.lstat_prefix List.nil_prefix hpoint)
    · split at h
      · cases h
      · cases h
        obtain ⟨hsound, -, hdone⟩ := cleanPoints_spec (RecoveryTree.nodup_readdir [])
          (fun name _ => List.not_mem_nil) hempty
        exact ⟨hsound, fun point hpoint => hdone point (RecoveryTree.mem_readdir.mpr hpoint)⟩

theorem parent_of_abandoned {path : EntryPath} (h : Abandoned world path) :
    ∃ parent name, path = parent ++ [name] ∧ ∃ depth ≤ 8, Scanned world depth parent := by
  rcases h with h | ⟨parent, name, h, rfl⟩
  · obtain ⟨parent, name, hpath, hmet, -⟩ := met_of_removable h
    exact ⟨parent, name, hpath, hmet.1⟩
  · exact ⟨parent, name ++ downloadLeaseSuffix, rfl, h.met.1⟩

/-- **What a cleanup removes**, read off the tree that it found. -/
theorem gone_iff {final : CleanupState}
    (h : cleanupStaleRecoveryTemporaryResidue world = .ok final) {path : EntryPath} :
    path ∈ final.gone ↔ Abandoned world path ∨ ∃ point folder name,
      path = [point, folder, name] ∧ Swept world point folder name := by
  obtain ⟨⟨points, hsound⟩, hdone⟩ := cleanup_spec h
  constructor
  · intro hgone
    rcases hsound.gone path hgone with habandoned | ⟨point, folder, name, -, hpath, hswept⟩
    · exact .inl habandoned
    · exact .inr ⟨point, folder, name, hpath, hswept⟩
  · rintro (habandoned | ⟨point, folder, name, rfl, hswept⟩)
    · have hremovable : ∀ {path}, Removable world path → path ∈ final.gone := by
        intro path hremovable
        obtain ⟨parent, name, rfl, ⟨⟨depth, -, hscanned⟩, -⟩, -⟩ := met_of_removable hremovable
        obtain ⟨point, rest, rfl⟩ := List.exists_cons_of_ne_nil (l := parent) (by
          rintro rfl
          exact absurd hscanned.length (by simp))
        obtain ⟨_, -, hpoint⟩ := hscanned.above (show [point] <+: point :: rest from ⟨rest, rfl⟩)
          (by simp)
        exact ((hdone point hpoint.owned.exists).walked _ ⟨rest ++ [name], rfl⟩).removed hremovable
      rcases habandoned with h | ⟨parent, name, h, rfl⟩
      · exact hremovable h
      · exact hsound.pair parent name (hremovable (.download h)) h.isDownload
    · exact (hdone point hswept.pointOwned.exists).swept folder name hswept

end ComposeBastion.Residue
