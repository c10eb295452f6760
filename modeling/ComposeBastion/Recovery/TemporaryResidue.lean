import Mathlib.Data.List.Infix
import Mathlib.Data.Rat.Floor
import ComposeBastion.Jobs.Action
import ComposeBastion.Js.Record
import ComposeBastion.Lib.Runs

namespace ComposeBastion.Residue

open Runs Js

/-!
# Cleanup of temporary recovery storage

`services/recoveryTemporaryStorage.ts`: `cleanupStaleRecoveryTemporaryResidue` walks the
directories of the recovery points for downloads that were abandoned, and then removes what is
stale in the temporary namespaces of each point.  Both passes share the set of paths that are
protected because something in them has to stay.

* `RecoveryTree` — what is on disk below the cleanup root;
* `scanDownloads` — the walk, at most eight directories deep;
* `processNamespaceCandidate` — the check of an entry of a namespace;
* `cleanupStaleRecoveryTemporaryResidue` — both passes, point by point.
-/

/-! ### The directory tree -/

/-- The names that lead from the cleanup root to an entry. -/
abbrev EntryPath := List String

inductive FileKind
  | file | directory | symbolicLink | other
  deriving DecidableEq, Repr

/-- What `lstat` tells about an entry. -/
structure Stats where
  kind : FileKind
  uid : ℕ
  dev : ℕ
  ino : ℕ
  mtimeMs : ℚ
  deriving DecidableEq

namespace Stats

def isFile (stats : Stats) : Bool := stats.kind = .file
def isDirectory (stats : Stats) : Bool := stats.kind = .directory
def isSymbolicLink (stats : Stats) : Bool := stats.kind = .symbolicLink

end Stats

/-- The entries below the cleanup root, and the root itself at `[]`: each has one path and lies
    in a directory. -/
structure RecoveryTree where
  entries : List (EntryPath × Stats)
  nodup : (entries.map Prod.fst).Nodup
  parents : ∀ entry ∈ entries, entry.1 = [] ∨ ∃ parent ∈ entries,
    parent.1 = entry.1.dropLast ∧ parent.2.kind = .directory

namespace RecoveryTree

variable (tree : RecoveryTree)

/-- `lstat` before the cleanup. -/
def lstat (path : EntryPath) : Option Stats :=
  (tree.entries.find? fun entry => entry.1 = path).map Prod.snd

/-- The name of `path` in the directory, when it is an entry of it. -/
def childName (directory path : EntryPath) : Option String :=
  if path ≠ [] ∧ path.dropLast = directory then path.getLast? else none

/-- `readdir` before the cleanup. -/
def readdir (directory : EntryPath) : List String :=
  tree.entries.filterMap fun entry => childName directory entry.1

end RecoveryTree

/-! ### Names -/

/-- `RECOVERY_TEMPORARY_DIRECTORY_LEASE`. -/
def directoryLease : String := ".composebastion-active"

/-- `RECOVERY_TEMPORARY_DOWNLOAD_LEASE_SUFFIX`. -/
def downloadLeaseSuffix : String := ".composebastion-active"

/-- `RECOVERY_RECONCILIATION_MARKER`. -/
def reconciliationMarker : String := ".composebastion-reconciliation-required"

/-- `RECOVERY_TEMPORARY_NAMESPACES`. -/
def namespaces : List String := [".capture", ".hydrated", ".remote-verify", ".remote-verification"]

def isDownloadCandidateName (name : String) : Bool :=
  startsWith name ".download-" && endsWith name ".tmp"
    && codeUnits ".download-.tmp" < codeUnits name

/-- `name.slice(0, -RECOVERY_TEMPORARY_DOWNLOAD_LEASE_SUFFIX.length)`. -/
def candidateName (name : String) : String :=
  String.ofList (name.toList.take (name.toList.length - downloadLeaseSuffix.length))

def isDownloadLeaseName (name : String) : Bool :=
  endsWith name downloadLeaseSuffix && isDownloadCandidateName (candidateName name)

/-! ### The state of a cleanup -/

/-- What a cleanup finds: the tree, the user of the process, the paths that are leased in it, and
    the times it compares. -/
structure CleanupWorld where
  tree : RecoveryTree
  currentUid : Option ℕ
  activeRecoveryTemporaryPaths : List EntryPath
  maxAgeMs : ℚ
  nowMs : ℚ
  /-- The modification time that the file system has given a directory when the last of its entries
      to go was removed. -/
  modifiedMs : EntryPath → ℚ

/-- `isOwned`. -/
def CleanupWorld.isOwned (world : CleanupWorld) (stats : Stats) : Bool :=
  world.currentUid.all (stats.uid = ·)

/-- What a cleanup has done: the paths it called `rm` on, the paths that are protected, and its
    counters. -/
structure CleanupState where
  gone : List EntryPath
  protectedTemporaryAncestors : List EntryPath
  removed : ℕ
  skipped : ℕ
  deriving DecidableEq

variable (world : CleanupWorld)

/-- An entry of the directory was removed. -/
def modified (state : CleanupState) (directory : EntryPath) : Bool :=
  (world.tree.readdir directory).any fun name => state.gone.contains (directory ++ [name])

/-- `lstat`: what lies in a path that was removed is gone, and a directory that an entry was removed
    from was modified then. -/
def lstat (state : CleanupState) (path : EntryPath) : Option Stats :=
  if state.gone.any (· <+: path) then none
  else (world.tree.lstat path).map fun stats =>
    if modified world state path then { stats with mtimeMs := world.modifiedMs path } else stats

/-- `readdir`, which fails for a directory that is missing. -/
def readdir (state : CleanupState) (directory : EntryPath) : Option (List String) :=
  if lstat world state directory = none then none
  else some ((world.tree.readdir directory).filter fun name =>
    lstat world state (directory ++ [name]) ≠ none)

namespace CleanupState

variable (state : CleanupState)

/-- `rm` of a file, or of a directory with all that is in it. -/
def rm (path : EntryPath) : CleanupState := { state with gone := path :: state.gone }

def skip : CleanupState := { state with skipped := state.skipped + 1 }

def countRemoved : CleanupState := { state with removed := state.removed + 1 }

/-- `protectTemporaryAncestors`: the path and the directories above it, up to the root. -/
def protectTemporaryAncestors (candidate : EntryPath) : CleanupState :=
  { state with protectedTemporaryAncestors :=
      candidate.inits.filter (· ≠ []) ++ state.protectedTemporaryAncestors }

/-- Protects the candidate and counts it as skipped. -/
def keep (candidate : EntryPath) : CleanupState :=
  (state.protectTemporaryAncestors candidate).skip

end CleanupState

/-! ### Leases -/

structure LeaseFreshness where
  safe : Bool
  mtimeMs : ℚ

/-- `readLeaseFreshness`, with what `lstat` tells about the lease. -/
def readLeaseFreshness (candidateStats : Stats) (leaseStats : Option Stats) : LeaseFreshness :=
  match leaseStats with
  | some leaseStats =>
    if !leaseStats.isFile || leaseStats.isSymbolicLink || !world.isOwned leaseStats then
      ⟨false, candidateStats.mtimeMs⟩
    else ⟨true, max candidateStats.mtimeMs leaseStats.mtimeMs⟩
  | none => ⟨true, candidateStats.mtimeMs⟩

/-- `removeCandidateIfUnchanged`: nothing when the candidate changed. -/
def removeCandidateIfUnchanged (state : CleanupState) (candidate : EntryPath)
    (initialStats : Stats) (recursive : Bool) : Option CleanupState :=
  match lstat world state candidate with
  | none => none
  | some currentStats =>
    if currentStats.dev ≠ initialStats.dev || currentStats.ino ≠ initialStats.ino
        || currentStats.isSymbolicLink || !world.isOwned currentStats
        || (if recursive then !currentStats.isDirectory else !currentStats.isFile) then
      none
    else some (state.rm candidate)

/-! ### Downloads -/

/-- `processDownloadCandidate` for the entry `name` of `directory`. -/
def processDownloadCandidate (directory : EntryPath) (name : String) (state : CleanupState) :
    CleanupState :=
  let candidate := directory ++ [name]
  if candidate ∈ world.activeRecoveryTemporaryPaths then state.keep candidate
  else
    match lstat world state candidate with
    | none => state
    | some stats =>
      if !stats.isFile || stats.isSymbolicLink || !world.isOwned stats then state.keep candidate
      else
        let leasePath := directory ++ [name ++ downloadLeaseSuffix]
        let freshness := readLeaseFreshness world stats (lstat world state leasePath)
        if !freshness.safe || world.nowMs - freshness.mtimeMs < world.maxAgeMs then
          state.keep candidate
        else
          match removeCandidateIfUnchanged world state candidate stats false with
          | some state => state.countRemoved.rm leasePath
          | none => state.keep candidate

/-- `processOrphanDownloadLease` for the entry `name` of `directory`. -/
def processOrphanDownloadLease (directory : EntryPath) (name : String) (state : CleanupState) :
    CleanupState :=
  let leasePath := directory ++ [name]
  let candidate := directory ++ [candidateName name]
  if candidate ∈ world.activeRecoveryTemporaryPaths then state.keep leasePath
  else if lstat world state candidate ≠ none then state
  else
    match lstat world state leasePath with
    | none => state
    | some leaseStats =>
      if !leaseStats.isFile || leaseStats.isSymbolicLink || !world.isOwned leaseStats then
        state.keep leasePath
      else if world.nowMs - leaseStats.mtimeMs < world.maxAgeMs then state.keep leasePath
      else
        match removeCandidateIfUnchanged world state leasePath leaseStats false with
        | some state => state.countRemoved
        | none => state.keep leasePath

/-- One entry of the loop of `scanDownloads`; `scan` is the scan of a directory below. -/
def scanEntry (scan : EntryPath → CleanupState → CleanupState) (directory : EntryPath)
    (state : CleanupState) (name : String) : CleanupState :=
  if isDownloadCandidateName name then processDownloadCandidate world directory name state
  else if isDownloadLeaseName name then processOrphanDownloadLease world directory name state
  else
    match lstat world state (directory ++ [name]) with
    | none => state
    | some stats =>
      if stats.isDirectory && !stats.isSymbolicLink && world.isOwned stats then
        scan (directory ++ [name]) state
      else if stats.isDirectory || stats.isSymbolicLink || !world.isOwned stats then
        state.keep (directory ++ [name])
      else state

/-- `scanDownloads`, with the number of levels that may still be scanned: `9 - depth`. -/
def scanDownloads : ℕ → EntryPath → CleanupState → CleanupState
  | 0, directory, state => state.keep directory
  | levels + 1, directory, state =>
    match readdir world state directory with
    | none => state
    | some entries => exec (scanEntry world (scanDownloads levels) directory) state entries

/-! ### Temporary namespaces -/

/-- `processNamespaceCandidate`. -/
def processNamespaceCandidate (candidate : EntryPath) (state : CleanupState) : CleanupState :=
  if candidate ∈ world.activeRecoveryTemporaryPaths
      ∨ candidate ∈ state.protectedTemporaryAncestors then state.skip
  else
    match lstat world state candidate with
    | none => state
    | some stats =>
      if stats.isSymbolicLink || !world.isOwned stats || (!stats.isDirectory && !stats.isFile) then
        state.skip
      -- whatever stands for the marker keeps the directory
      else if stats.isDirectory && (lstat world state (candidate ++ [reconciliationMarker])).isSome
      then state.skip
      else
        let freshness :=
          if stats.isDirectory then
            readLeaseFreshness world stats (lstat world state (candidate ++ [directoryLease]))
          else ⟨true, stats.mtimeMs⟩
        if !freshness.safe || world.nowMs - freshness.mtimeMs < world.maxAgeMs then state.skip
        else
          match removeCandidateIfUnchanged world state candidate stats stats.isDirectory with
          | some state => state.countRemoved
          | none => state.skip

/-- One entry of the loop over a namespace. -/
def sweepEntry (directory : EntryPath) (state : CleanupState) (name : String) : CleanupState :=
  if name = directoryLease || isDownloadCandidateName name || isDownloadLeaseName name then state
  else processNamespaceCandidate world (directory ++ [name]) state

/-- One namespace of a recovery point. -/
def sweepNamespace (point : String) (state : CleanupState) (name : String) : CleanupState :=
  match lstat world state [point, name] with
  | none => state
  | some stats =>
    if !stats.isDirectory || stats.isSymbolicLink || !world.isOwned stats then state.skip
    else
      match readdir world state [point, name] with
      | none => state
      | some entries => exec (sweepEntry world [point, name]) state entries

/-- One entry of the loop over the cleanup root. -/
def cleanPoint (state : CleanupState) (point : String) : CleanupState :=
  if !isUuid point then state
  else
    match lstat world state [point] with
    | none => state
    | some stats =>
      if !stats.isDirectory || stats.isSymbolicLink || !world.isOwned stats then state.skip
      else exec (sweepNamespace world point) (scanDownloads world 9 [point] state) namespaces

/-- `cleanupStaleRecoveryTemporaryResidue`. -/
def cleanupStaleRecoveryTemporaryResidue : Except String CleanupState :=
  let state : CleanupState := ⟨[], [], 0, 0⟩
  if world.maxAgeMs < 0 then .error "Invalid recovery temporary cleanup age"
  else
    match lstat world state [] with
    | none => .ok state
    | some rootStats =>
      if !rootStats.isDirectory || rootStats.isSymbolicLink || !world.isOwned rootStats then
        .error "Recovery temporary cleanup root is not a safe owned directory"
      else .ok (exec (cleanPoint world) state (world.tree.readdir []))

end ComposeBastion.Residue
