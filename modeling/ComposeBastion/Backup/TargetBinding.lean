import ComposeBastion.Lib.RowLocks
import ComposeBastion.Lib.Runs
import ComposeBastion.Lib.Table
import ComposeBastion.Backup.TargetPlace

namespace ComposeBastion

open RowLocks Runs Js

/-!
# Changing a backup target that is in use

`updateBackupTarget` and `importConfigBackup` change the row of a target; backups, recovery points,
artifacts and schedules refer to it, and the ledger of orphans names objects that still have to be
deleted through it.  All of them are transactions of PostgreSQL, which interleave statement by
statement: a change locks the row `FOR UPDATE`, and the foreign key of a new referring row takes it
`FOR KEY SHARE`, as `assertBackupTargetUsableForReference` does before.

* `TargetSystem`, `TargetSystem.step` — the committed rows, the running transactions, the locks;
* `TargetSystem.Sound` — the invariant: a row that a transaction is about to commit keeps the place
  of a referenced target, and the binding of one with orphans;
* `importKeepsBinding` — the condition on imports, which compare identities only;
* `target_binding_stable` — what no step changes.
-/

/-! ### Transactions -/

/-- A table with a column `backup_target_id`. -/
inductive ChildTable where
  | backups
  | backupSchedules
  | recoveryPoints
  | recoveryArtifacts
  | recoverySchedules
  | remoteArtifactOrphans
  deriving DecidableEq, Repr

/-- A row of such a table. -/
structure ChildRow where
  target : String
  table : ChildTable
  deriving DecidableEq, Repr

/-- A row to insert; `allowedKinds` are those of `assertBackupTargetUsableForReference`, where the
    transaction calls it before the insert. -/
structure ChildInsert where
  row : ChildRow
  allowedKinds : Option (List TargetKind)

/-- The insert is admitted for this target. -/
def ChildInsert.admits (insert : ChildInsert) (target : BackupTargetRow) : Bool :=
  insert.allowedKinds.all fun kinds => kinds.contains target.kind && target.enabled

section Runtime

variable [TargetRuntime]

/-- A change of one target: an update, or a row of a configuration backup. -/
inductive TargetChange where
  | update (id : String) (input : BackupTargetUpdate) (configIv secretIv : ℕ)
  | imported (row : BackupTargetRow)

/-- The target that is changed. -/
def TargetChange.target : TargetChange → String
  | .update id _ _ _ => id
  | .imported row => row.id

/-- How far the first change of a transaction has come. -/
inductive ChangePhase where
  | lock
  | identity (current next : BackupTargetRow)
  | binding (current next : BackupTargetRow)
  | write (next : BackupTargetRow)

/-- A transaction that changes targets; `written` are the rows it has written, the last one first. -/
structure ChangeWork where
  changes : List TargetChange
  phase : ChangePhase
  written : List BackupTargetRow

/-- A running transaction. -/
inductive TargetSession where
  | change (work : ChangeWork)
  | children (todo : List ChildInsert) (inserted : List ChildRow)

/-- The committed rows, the running transactions and the locks they hold. -/
structure TargetSystem where
  targets : Table BackupTargetRow (·.id)
  children : List ChildRow
  sessions : ℕ → Option TargetSession
  locks : Locks ℕ String

namespace TargetSystem

/-- An empty database. -/
def initial : TargetSystem := ⟨∅, [], fun _ => none, .none⟩

/-- `hasBackupTargetReferences(getBackupTargetReferenceCounts(id))`. -/
def referenced (s : TargetSystem) (id : String) : Bool :=
  s.children.any fun child => child.target = id && child.table ≠ .remoteArtifactOrphans

/-- `getRemoteArtifactOrphanCount(id) > 0`. -/
def orphaned (s : TargetSystem) (id : String) : Bool :=
  s.children.any fun child => child.target = id && child.table = .remoteArtifactOrphans

/-- What a transaction reads of a target: its own write, or the committed row. -/
def visible (s : TargetSystem) (work : ChangeWork) (id : String) : Option BackupTargetRow :=
  (work.written.find? (·.id = id)).or (s.targets.find id)

/-- `assertBackupTargetIdentityChangeAllowed`. -/
def identityChangeAllowed (s : TargetSystem) (current next : BackupTargetRow) : Bool :=
  match backupTargetStorageIdentity current, backupTargetStorageIdentity next with
  | .ok identity, .ok identity' => identity = identity' || !s.referenced next.id
  | _, _ => false

/-- `assertBackupTargetOrphanCleanupBindingChangeAllowed`. -/
def bindingChangeAllowed (s : TargetSystem) (current next : BackupTargetRow) : Bool :=
  backupTargetOrphanCleanupBinding current = backupTargetOrphanCleanupBinding next ||
    !s.orphaned next.id

/-- The transaction goes on, with these locks. -/
def put (s : TargetSystem) (session : ℕ) (locks : Locks ℕ String) (next : TargetSession) :
    TargetSystem :=
  { s with sessions := Function.update s.sessions session (some next), locks := locks }

/-- The transaction has ended, without an effect. -/
def close (s : TargetSystem) (session : ℕ) : TargetSystem :=
  { s with
      sessions := Function.update s.sessions session none
      locks := s.locks.release session }

/-- The row that an update writes; a check that fails rolls the transaction back, whichever comes
    first. -/
def updatedTarget (current : BackupTargetRow) (input : BackupTargetUpdate)
    (configIv secretIv : ℕ) : Except String BackupTargetRow := do
  let patch ← normalizeBackupTargetUpdate current input configIv secretIv
  checkS3Credentials current patch
  return patch.apply current

/-- The phase after `lockBackupTarget`, by the row that it returned. -/
def locked (change : TargetChange) (current : Option BackupTargetRow) : Option ChangePhase :=
  match change, current with
  | .update .., none => none
  | .update _ input configIv secretIv, some current =>
    match updatedTarget current input configIv secretIv with
    | .ok next => some (.identity current next)
    | .error _ => none
  | .imported row, none => some (.write row)
  | .imported row, some current => some (.identity current row)

/-- The next statement of a transaction that changes targets. -/
def advanceChange (s : TargetSystem) (session : ℕ) (work : ChangeWork) : TargetSystem :=
  match work.changes, work.phase with
  | [], _ =>
    { s.close session with targets := work.written.foldr (fun row t => t.upsert row) s.targets }
  | change :: _, .lock =>
    match s.locks.acquire session change.target .exclusive with
    | none => s
    | some locks =>
      match locked change (s.visible work change.target) with
      | none => s.close session
      | some phase => s.put session locks (.change { work with phase := phase })
  | change :: _, .identity current next =>
    if s.identityChangeAllowed current next then
      -- an import does not ask for the orphans of the target
      match change with
      | .update .. => s.put session s.locks (.change { work with phase := .binding current next })
      | .imported _ => s.put session s.locks (.change { work with phase := .write next })
    else s.close session
  | _ :: _, .binding current next =>
    if s.bindingChangeAllowed current next then
      s.put session s.locks (.change { work with phase := .write next })
    else s.close session
  | _ :: rest, .write next => s.put session s.locks (.change ⟨rest, .lock, next :: work.written⟩)

/-- The next statement of a transaction that inserts rows referring to targets. -/
def advanceChildren (s : TargetSystem) (session : ℕ) (todo : List ChildInsert)
    (inserted : List ChildRow) : TargetSystem :=
  match todo with
  | [] => { s.close session with children := inserted ++ s.children }
  | insert :: rest =>
    match s.locks.acquire session insert.row.target .shared with
    | none => s
    | some locks =>
      match s.targets.find insert.row.target with
      | none => s.close session
      | some target =>
        if insert.admits target then
          s.put session locks (.children rest (insert.row :: inserted))
        else s.close session

end TargetSystem

/-- A target of a configuration backup. -/
structure ImportedTarget where
  id : String
  input : BackupTargetCreate
  configIv : ℕ
  secretIv : ℕ

/-- `normalizeImportedBackupTargets`. -/
def normalizeImportedBackupTargets : List ImportedTarget → Except String (List BackupTargetRow)
  | [] => .ok []
  | target :: rest => do
    let row ← normalizeBackupTargetCreate target.id target.configIv target.secretIv target.input
    let rows ← normalizeImportedBackupTargets rest
    return row :: rows

/-- What can happen.  The id of a new target is fresh; rows that refer to a target are deleted
    without a lock on it; a transaction may be rolled back at any time. -/
inductive TargetOp where
  | create (id : String) (input : BackupTargetCreate) (configIv secretIv : ℕ)
  | startUpdate (session : ℕ) (id : String) (input : BackupTargetUpdate) (configIv secretIv : ℕ)
  | startImport (session : ℕ) (targets : List ImportedTarget)
  | startChildren (session : ℕ) (todo : List ChildInsert)
  | advance (session : ℕ)
  | rollback (session : ℕ)
  | removeChild (row : ChildRow)

namespace TargetSystem

/-- A transaction begins, on a connection that has none. -/
def start (s : TargetSystem) (session : ℕ) (first : TargetSession) : TargetSystem :=
  match s.sessions session with
  | some _ => s
  | none => s.put session s.locks first

/-- One step of the system. -/
def step (s : TargetSystem) : TargetOp → TargetSystem
  | .create id input configIv secretIv =>
    if (s.targets.find id).isNone && s.locks.holds.all (·.row ≠ id) then
      match normalizeBackupTargetCreate id configIv secretIv input with
      | .ok row => { s with targets := s.targets.upsert row }
      | .error _ => s
    else s
  | .startUpdate session id input configIv secretIv =>
    s.start session (.change ⟨[.update id input configIv secretIv], .lock, []⟩)
  | .startImport session targets =>
    match normalizeImportedBackupTargets targets with
    | .ok rows => s.start session (.change ⟨rows.map .imported, .lock, []⟩)
    | .error _ => s
  | .startChildren session todo => s.start session (.children todo [])
  | .advance session =>
    match s.sessions session with
    | none => s
    | some (.change work) => s.advanceChange session work
    | some (.children todo inserted) => s.advanceChildren session todo inserted
  | .rollback session =>
    match s.sessions session with
    | none => s
    | some _ => s.close session
  | .removeChild row => { s with children := s.children.erase row }

end TargetSystem

/-- When an import reaches its check of a stored target, the target has no orphan, or the imported
    row has its storage configuration and credentials. -/
def importKeepsBinding (s : TargetSystem) : TargetOp → Bool
  | .advance session =>
    match s.sessions session with
    | some (.change ⟨.imported _ :: _, .identity current next, _⟩) =>
      !s.orphaned next.id || storageBinding current = storageBinding next
    | _ => true
  | _ => true

/-! ### The invariant -/

/-- Every key is kept at the same place. -/
def SamePlace (row row' : BackupTargetRow) : Prop :=
  ∀ objectKey, storagePlace row' objectKey = storagePlace row objectKey

namespace TargetSystem

variable {b : Prop} {s s' : TargetSystem} {session other : ℕ}

/-- What is written over the committed row of the target keeps what is needed; `b` says whether the
    binding of targets with orphans counts. -/
def Keeps (b : Prop) (s : TargetSystem) (row : BackupTargetRow) : Prop :=
  ∀ stored, s.targets.find row.id = some stored →
    (s.referenced row.id = true → SamePlace stored row) ∧
      (b → s.orphaned row.id = true → storageBinding row = storageBinding stored)

/-- A row that a transaction may write: it holds the target, and the row keeps what is needed. -/
structure Writable (b : Prop) (s : TargetSystem) (session : ℕ) (row : BackupTargetRow) : Prop where
  held : s.locks.Held session row.id .exclusive
  normal : row.Normal
  keeps : Keeps b s row

/-- A row that is being checked against the row that the transaction sees. -/
structure Checking (s : TargetSystem) (session : ℕ) (work : ChangeWork)
    (current next : BackupTargetRow) : Prop where
  held : s.locks.Held session next.id .exclusive
  normal : next.Normal
  current_eq : s.visible work next.id = some current

/-- What holds in each phase of a change. -/
def PhaseSound (b : Prop) (s : TargetSystem) (session : ℕ) (work : ChangeWork) : Prop :=
  match work.phase with
  | .lock => True
  | .identity current next => Checking s session work current next
  | .binding current next => Checking s session work current next ∧
      (s.referenced next.id = true → SamePlace current next)
  | .write next => Writable b s session next

/-- What holds of a running transaction. -/
def SessionSound (b : Prop) (s : TargetSystem) (session : ℕ) : TargetSession → Prop
  | .change work => (∀ row, .imported row ∈ work.changes → row.Normal) ∧
      (∀ row ∈ work.written, Writable b s session row) ∧ PhaseSound b s session work
  | .children _ inserted => ∀ row ∈ inserted, s.locks.Held session row.target .shared

/-- The committed rows are normal, and so is what the transactions are about to write. -/
structure Sound (b : Prop) (s : TargetSystem) : Prop where
  targets : ∀ {id row}, s.targets.find id = some row → row.Normal
  sessions : ∀ {session state}, s.sessions session = some state → SessionSound b s session state

theorem sound_initial : Sound b initial where
  targets h := by cases h
  sessions h := by cases h

/-! ### What other transactions leave alone -/

/-- The step from `s` to `s'` leaves alone what the transaction has locked. -/
structure Undisturbed (s s' : TargetSystem) (session : ℕ) : Prop where
  held : ∀ {id mode}, s.locks.Held session id mode → s'.locks.Held session id mode
  targets : ∀ {id}, s.locks.Held session id .exclusive → s'.targets.find id = s.targets.find id
  referenced : ∀ {id}, s.locks.Held session id .exclusive → s'.referenced id = true →
    s.referenced id = true
  orphaned : ∀ {id}, s.locks.Held session id .exclusive → s'.orphaned id = true →
    s.orphaned id = true

theorem Writable.undisturbed {row : BackupTargetRow} (h : Writable b s session row)
    (hs : Undisturbed s s' session) : Writable b s' session row := by
  refine ⟨hs.held h.held, h.normal, ?_⟩
  intro stored hstored
  rw [hs.targets h.held] at hstored
  obtain ⟨hplace, hbinding⟩ := h.keeps stored hstored
  exact ⟨fun href => hplace (hs.referenced h.held href),
    fun hb horphan => hbinding hb (hs.orphaned h.held horphan)⟩

theorem Checking.undisturbed {work : ChangeWork} {current next : BackupTargetRow}
    (h : Checking s session work current next) (hs : Undisturbed s s' session) :
    Checking s' session work current next := by
  refine ⟨hs.held h.held, h.normal, ?_⟩
  have hcurrent := h.current_eq
  unfold visible at hcurrent ⊢
  rwa [hs.targets h.held]

theorem PhaseSound.undisturbed {work : ChangeWork} (h : PhaseSound b s session work)
    (hs : Undisturbed s s' session) : PhaseSound b s' session work := by
  unfold PhaseSound at h ⊢
  split
  · trivial
  next current next hphase =>
    rw [hphase] at h
    exact h.undisturbed hs
  next current next hphase =>
    rw [hphase] at h
    exact ⟨h.1.undisturbed hs, fun href => h.2 (hs.referenced h.1.held href)⟩
  next next hphase =>
    rw [hphase] at h
    exact h.undisturbed hs

theorem SessionSound.undisturbed {state : TargetSession} (h : SessionSound b s session state)
    (hs : Undisturbed s s' session) : SessionSound b s' session state := by
  cases state with
  | change work =>
    exact ⟨h.1, fun row hrow => (h.2.1 row hrow).undisturbed hs, h.2.2.undisturbed hs⟩
  | children todo inserted => exact fun row hrow => hs.held (h row hrow)

/-- **Frame rule.** A step keeps the invariant if it leaves alone every transaction but one, and
    that one is sound after it. -/
theorem Sound.frame (h : Sound b s) (session : ℕ)
    (htargets : ∀ {id row}, s'.targets.find id = some row → row.Normal)
    (hothers : ∀ {other}, other ≠ session → s'.sessions other = s.sessions other ∧
      Undisturbed s s' other)
    (hsession : ∀ {state}, s'.sessions session = some state → SessionSound b s' session state) :
    Sound b s' where
  targets := htargets
  sessions {other state} hstate := by
    by_cases hother : other = session
    · subst hother
      exact hsession hstate
    · obtain ⟨hsame, hundisturbed⟩ := hothers hother
      exact (h.sessions (hsame ▸ hstate)).undisturbed hundisturbed

/-- A transaction that takes a further step by itself. -/
theorem Sound.put {locks : Locks ℕ String} {next : TargetSession} (h : Sound b s)
    (hlocks : ∀ {other id mode}, s.locks.Held other id mode → locks.Held other id mode)
    (hnext : SessionSound b (s.put session locks next) session next) :
    Sound b (s.put session locks next) := by
  refine h.frame session h.targets ?_ ?_
  · intro other hother
    exact ⟨Function.update_of_ne hother _ _, ⟨hlocks, fun _ => rfl, fun _ => id, fun _ => id⟩⟩
  · intro state hstate
    obtain rfl : next = state := by simpa [TargetSystem.put] using hstate
    exact hnext

/-- A transaction that ends; `s'` may have what it committed. -/
theorem Sound.close (h : Sound b s) (hsessions : s'.sessions = (s.close session).sessions)
    (hlocks : s'.locks = (s.close session).locks)
    (htargets : ∀ {id row}, s'.targets.find id = some row → row.Normal)
    (hfind : ∀ {other id}, other ≠ session → s.locks.Held other id .exclusive →
      s'.targets.find id = s.targets.find id)
    (hchildren : ∀ {other id}, other ≠ session → s.locks.Held other id .exclusive →
      (s'.referenced id = true → s.referenced id = true) ∧
        (s'.orphaned id = true → s.orphaned id = true)) : Sound b s' := by
  refine h.frame session htargets ?_ ?_
  · intro other hother
    refine ⟨?_, ?_, hfind hother, fun hheld => (hchildren hother hheld).1,
      fun hheld => (hchildren hother hheld).2⟩
    · rw [hsessions]
      exact Function.update_of_ne hother _ _
    · intro id mode hheld
      rw [hlocks]
      exact Locks.held_release.mpr ⟨hheld, hother⟩
  · intro state hstate
    rw [hsessions] at hstate
    simp [TargetSystem.close] at hstate

theorem Sound.rollback (h : Sound b s) : Sound b (s.close session) :=
  h.close rfl rfl h.targets (fun _ _ => rfl) (fun _ _ => ⟨id, id⟩)

/-! ### The checks -/

theorem samePlace_of_identityChangeAllowed {current next : BackupTargetRow} (hcurrent : current.Normal)
    (hnext : next.Normal) (h : s.identityChangeAllowed current next = true)
    (href : s.referenced next.id = true) : SamePlace current next := by
  intro objectKey
  unfold identityChangeAllowed at h
  split at h
  next identity identity' hidentity hidentity' =>
    have hsame : identity = identity' := by simpa [href] using h
    subst hsame
    exact storagePlace_eq_of_identity hnext hcurrent hidentity' hidentity objectKey
  · cases h

theorem storageBinding_of_bindingChangeAllowed {current next : BackupTargetRow}
    (h : s.bindingChangeAllowed current next = true) (horphan : s.orphaned next.id = true) :
    storageBinding next = storageBinding current := by
  have hsame : backupTargetOrphanCleanupBinding current = backupTargetOrphanCleanupBinding next := by
    simpa [bindingChangeAllowed, horphan] using h
  rw [storageBinding, storageBinding, hsame]

/-- The row that a transaction sees keeps what is needed: it is the committed row, or was written by
    the transaction itself. -/
theorem keeps_visible {work : ChangeWork} {id : String} {current : BackupTargetRow} (h : Sound b s)
    (hwritten : ∀ row ∈ work.written, Writable b s session row)
    (hcurrent : s.visible work id = some current) :
    current.id = id ∧ current.Normal ∧ Keeps b s current := by
  unfold visible at hcurrent
  cases hfind : work.written.find? (·.id = id) with
  | some row =>
    rw [hfind, Option.some_or] at hcurrent
    obtain rfl := Option.some.inj hcurrent
    have hrow := hwritten row (List.mem_of_find?_eq_some hfind)
    exact ⟨by simpa using List.find?_some hfind, hrow.normal, hrow.keeps⟩
  | none =>
    rw [hfind, Option.none_or] at hcurrent
    have hid := (Table.find_eq_some.mp hcurrent).2
    refine ⟨hid, h.targets hcurrent, ?_⟩
    intro stored hstored
    rw [hid, hcurrent] at hstored
    obtain rfl := Option.some.inj hstored
    exact ⟨fun _ _ => rfl, fun _ _ => rfl⟩

theorem Keeps.trans {current next : BackupTargetRow} (h : Keeps b s current)
    (hid : current.id = next.id) (hplace : s.referenced next.id = true → SamePlace current next)
    (hbinding : b → s.orphaned next.id = true → storageBinding next = storageBinding current) :
    Keeps b s next := by
  intro stored hstored
  rw [← hid] at hstored hplace hbinding ⊢
  obtain ⟨hkept, hbound⟩ := h stored hstored
  refine ⟨?_, ?_⟩
  · intro href objectKey
    exact (hplace href objectKey).trans (hkept href objectKey)
  · intro hb horphan
    exact (hbinding hb horphan).trans (hbound hb horphan)

/-- A checked row may be written. -/
theorem Checking.writable {work : ChangeWork} {current next : BackupTargetRow} (h : Sound b s)
    (hwritten : ∀ row ∈ work.written, Writable b s session row)
    (hchecking : Checking s session work current next)
    (hplace : s.referenced next.id = true → SamePlace current next)
    (hbinding : b → s.orphaned next.id = true → storageBinding next = storageBinding current) :
    Writable b s session next := by
  obtain ⟨hid, -, hkeeps⟩ := keeps_visible h hwritten hchecking.current_eq
  exact ⟨hchecking.held, hchecking.normal, hkeeps.trans hid hplace hbinding⟩

/-! ### Steps of a transaction -/

/-- The state of a transaction does not depend on which transactions are running. -/
theorem sessionSound_put {locks : Locks ℕ String} {next state : TargetSession}
    (h : SessionSound b { s with locks := locks } session state) :
    SessionSound b (s.put session locks next) session state :=
  h.undisturbed ⟨id, fun _ => rfl, fun _ => id, fun _ => id⟩

theorem updatedTarget_normal {current next : BackupTargetRow} {input : BackupTargetUpdate}
    {configIv secretIv : ℕ} (hcurrent : current.Normal)
    (h : updatedTarget current input configIv secretIv = .ok next) :
    next.id = current.id ∧ next.Normal := by
  unfold updatedTarget at h
  obtain ⟨patch, hpatch, h⟩ := bind_eq_ok.mp h
  obtain ⟨-, -, h⟩ := bind_eq_ok.mp h
  obtain rfl := Except.ok.inj h
  exact nextTarget_normal hcurrent hpatch

/-- Locking a target leads to a sound phase. -/
theorem phaseSound_locked {work : ChangeWork} {change : TargetChange} {rest : List TargetChange}
    {phase : ChangePhase} {locks : Locks ℕ String} (h : Sound b s)
    (hsession : SessionSound b s session (.change work)) (hchanges : work.changes = change :: rest)
    (hheld : locks.Held session change.target .exclusive)
    (hphase : locked change (s.visible work change.target) = some phase) :
    PhaseSound b { s with locks := locks } session { work with phase := phase } := by
  obtain ⟨hnormal, hwritten, -⟩ := hsession
  cases change with
  | update id input configIv secretIv =>
    cases hcurrent : s.visible work id with
    | none =>
      simp only [locked, TargetChange.target, hcurrent] at hphase
      cases hphase
    | some current =>
      simp only [locked, TargetChange.target, hcurrent] at hphase
      obtain ⟨hid, hstored, -⟩ := keeps_visible h hwritten hcurrent
      split at hphase
      next next hnext =>
        obtain rfl := Option.some.inj hphase
        obtain ⟨hsame, hnextNormal⟩ := updatedTarget_normal hstored hnext
        have htarget : next.id = id := hsame.trans hid
        refine ⟨?_, hnextNormal, ?_⟩
        · rw [htarget]
          exact hheld
        · rw [htarget]
          exact hcurrent
      · cases hphase
  | imported row =>
    have hrow : row.Normal := hnormal row (by simp [hchanges])
    cases hcurrent : s.visible work row.id with
    | none =>
      simp only [locked, TargetChange.target, hcurrent] at hphase
      obtain rfl := Option.some.inj hphase
      refine ⟨hheld, hrow, ?_⟩
      intro stored hstored
      -- the target does not exist yet, so nothing is overwritten
      have hnone := (Option.or_eq_none_iff.mp hcurrent).2
      rw [show s.targets.find row.id = some stored from hstored] at hnone
      cases hnone
    | some current =>
      simp only [locked, TargetChange.target, hcurrent] at hphase
      obtain rfl := Option.some.inj hphase
      exact ⟨hheld, hrow, hcurrent⟩

/-- A lock that is granted leaves the others as they were. -/
theorem held_mono {locks : Locks ℕ String} {row : String} {mode : Mode}
    (hacquire : s.locks.acquire session row mode = some locks) {other : ℕ} {id : String}
    {mode' : Mode} (h : s.locks.Held other id mode') : locks.Held other id mode' :=
  (Locks.held_acquire hacquire).mpr (Or.inr h)

/-- A transaction goes on with a sound phase. -/
theorem Sound.put_phase {work : ChangeWork} {phase : ChangePhase} {locks : Locks ℕ String}
    (h : Sound b s) (hsession : SessionSound b s session (.change work))
    (hlocks : ∀ {other id mode}, s.locks.Held other id mode → locks.Held other id mode)
    (hphase : PhaseSound b { s with locks := locks } session { work with phase := phase }) :
    Sound b (s.put session locks (.change { work with phase := phase })) := by
  refine h.put hlocks (sessionSound_put ⟨hsession.1, ?_, hphase⟩)
  intro row hrow
  exact (hsession.2.1 row hrow).undisturbed ⟨hlocks, fun _ => rfl, fun _ => id, fun _ => id⟩

/-- The rows of a transaction become those of the table. -/
theorem find_commit (work : ChangeWork) (id : String) :
    (work.written.foldr (fun row t => t.upsert row) s.targets).find id = s.visible work id :=
  Table.find_foldr_upsert work.written id

theorem Sound.commit {work : ChangeWork} (h : Sound b s)
    (hsession : SessionSound b s session (.change work)) :
    Sound b { s.close session with
      targets := work.written.foldr (fun row t => t.upsert row) s.targets } := by
  refine h.close rfl rfl ?_ ?_ (fun _ _ => ⟨id, id⟩)
  · intro id row hrow
    rw [find_commit] at hrow
    exact (keeps_visible h hsession.2.1 hrow).2.1
  · intro other id hother hheld
    rw [find_commit, visible]
    -- the transaction holds exclusively what it has written
    have hfind : work.written.find? (·.id = id) = none := by
      refine List.find?_eq_none.mpr fun row hrow hid => hother ?_
      have hown := (hsession.2.1 row hrow).held
      rw [show row.id = id by simpa using hid] at hown
      exact Locks.exclusive_alone hheld hown
    rw [hfind, Option.none_or]

/-- **Changes.** A statement of a transaction that changes targets keeps the invariant. -/
theorem sound_advanceChange {work : ChangeWork} (h : Sound b s)
    (hstate : s.sessions session = some (.change work))
    (hok : b → importKeepsBinding s (.advance session) = true) :
    Sound b (s.advanceChange session work) := by
  have hsession := h.sessions hstate
  have hphase := hsession.2.2
  unfold PhaseSound at hphase
  obtain ⟨changes, phase, written⟩ := work
  cases changes with
  | nil => exact h.commit hsession
  | cons change rest =>
    cases phase with
    | lock =>
      simp only [advanceChange]
      split
      · exact h
      next locks hlocks =>
        split
        · exact h.rollback
        next phase hlocked =>
          have hheld := (Locks.held_acquire hlocks).mpr (Or.inl ⟨rfl, rfl, rfl⟩)
          exact h.put_phase hsession (held_mono hlocks)
            (phaseSound_locked h hsession rfl hheld hlocked)
    | identity current next =>
      simp only [advanceChange]
      split
      next hallowed =>
        have hcurrent := (keeps_visible h hsession.2.1 hphase.current_eq).2.1
        have hplace : s.referenced next.id = true → SamePlace current next := fun href =>
          samePlace_of_identityChangeAllowed hcurrent hphase.normal hallowed href
        cases change with
        | update target input configIv secretIv =>
          exact h.put_phase hsession id
            ⟨⟨hphase.held, hphase.normal, hphase.current_eq⟩, hplace⟩
        | imported row =>
          refine h.put_phase hsession id (Checking.writable h hsession.2.1 hphase hplace ?_)
          intro hb horphan
          have hkept := hok hb
          simp only [importKeepsBinding, hstate, horphan, Bool.not_true, Bool.false_or,
            decide_eq_true_eq] at hkept
          exact hkept.symm
      · exact h.rollback
    | binding current next =>
      simp only [advanceChange]
      split
      next hallowed =>
        refine h.put_phase hsession id
          (Checking.writable h hsession.2.1 hphase.1 hphase.2 fun _ horphan => ?_)
        exact storageBinding_of_bindingChangeAllowed hallowed horphan
      · exact h.rollback
    | write next =>
      refine h.put id (sessionSound_put ⟨?_, ?_, trivial⟩)
      · intro row hrow
        exact hsession.1 row (List.mem_cons_of_mem _ hrow)
      · intro row hrow
        rcases List.mem_cons.mp hrow with rfl | hrow
        · exact hphase
        · exact hsession.2.1 row hrow

omit [TargetRuntime] in
/-- Rows that are inserted for other targets do not count for this one. -/
theorem any_append_of_ne {inserted children : List ChildRow} {id : String} {p : ChildRow → Bool}
    (h : ∀ row ∈ inserted, row.target ≠ id)
    (hany : (inserted ++ children).any (fun child => child.target = id && p child) = true) :
    children.any (fun child => child.target = id && p child) = true := by
  rw [List.any_append, Bool.or_eq_true] at hany
  rcases hany with hany | hany
  · obtain ⟨row, hrow, hid⟩ := List.any_eq_true.mp hany
    have htarget : row.target = id := by
      simp only [Bool.and_eq_true, decide_eq_true_eq] at hid
      exact hid.1
    exact absurd htarget (h row hrow)
  · exact hany

/-- **References and orphans.** A statement of a transaction that inserts them keeps the
    invariant. -/
theorem sound_advanceChildren {todo : List ChildInsert} {inserted : List ChildRow} (h : Sound b s)
    (hstate : s.sessions session = some (.children todo inserted)) :
    Sound b (s.advanceChildren session todo inserted) := by
  have hsession : ∀ row ∈ inserted, s.locks.Held session row.target .shared := h.sessions hstate
  cases todo with
  | nil =>
    refine h.close rfl rfl h.targets (fun _ _ => rfl) ?_
    intro other id hother hheld
    -- who holds the target exclusively is not the transaction that shares it
    have hne : ∀ row ∈ inserted, row.target ≠ id := by
      intro row hrow hid
      have hshared := hsession row hrow
      rw [hid] at hshared
      exact hother (Locks.exclusive_alone hheld hshared)
    exact ⟨any_append_of_ne hne, any_append_of_ne hne⟩
  | cons insert rest =>
    simp only [advanceChildren]
    split
    · exact h
    next locks hlocks =>
      split
      · exact h.rollback
      next target _ =>
        split
        · refine h.put (held_mono hlocks) (sessionSound_put ?_)
          intro row hrow
          rcases List.mem_cons.mp hrow with rfl | hrow
          · exact (Locks.held_acquire hlocks).mpr (Or.inl ⟨rfl, rfl, rfl⟩)
          · exact held_mono hlocks (hsession row hrow)
        · exact h.rollback

/-! ### Every step -/

theorem normalizeImportedBackupTargets_normal {targets : List ImportedTarget}
    {rows : List BackupTargetRow} (h : normalizeImportedBackupTargets targets = .ok rows) :
    ∀ row ∈ rows, row.Normal := by
  induction targets generalizing rows with
  | nil =>
    obtain rfl := Except.ok.inj h
    simp
  | cons target rest ih =>
    obtain ⟨first, hfirst, h⟩ := bind_eq_ok.mp h
    obtain ⟨others, hothers, h⟩ := bind_eq_ok.mp h
    obtain rfl := Except.ok.inj h
    intro row hrow
    rcases List.mem_cons.mp hrow with rfl | hrow
    · exact (normalizeBackupTargetCreate_normal hfirst).2
    · exact ih hothers row hrow

theorem Sound.start {first : TargetSession} (h : Sound b s) (hfirst : SessionSound b s session first) :
    Sound b (s.start session first) := by
  unfold TargetSystem.start
  split
  · exact h
  · exact h.put id (sessionSound_put hfirst)

/-- A new target has an id that no transaction holds. -/
theorem Sound.create {row : BackupTargetRow} (h : Sound b s) (hrow : row.Normal)
    (hfresh : s.locks.holds.all (·.row ≠ row.id) = true) :
    Sound b { s with targets := s.targets.upsert row } := by
  have hfind : ∀ {other id}, s.locks.Held other id .exclusive →
      (s.targets.upsert row).find id = s.targets.find id := by
    intro other id hheld
    rw [Table.find_upsert, if_neg]
    rintro rfl
    have hne := List.all_eq_true.mp hfresh _ hheld
    simp at hne
  constructor
  · intro id stored hstored
    rw [Table.find_upsert] at hstored
    split at hstored
    · obtain rfl := Option.some.inj hstored
      exact hrow
    · exact h.targets hstored
  · intro other state hstate
    exact (h.sessions hstate).undisturbed ⟨id, hfind, fun _ => id, fun _ => id⟩

/-- **Invariant.** Every step keeps it; the binding of targets with orphans needs the condition on
    imports. -/
theorem sound_step (op : TargetOp) (hok : b → importKeepsBinding s op = true) (h : Sound b s) :
    Sound b (s.step op) := by
  cases op with
  | create id input configIv secretIv =>
    simp only [step]
    split
    next hfresh =>
      split
      next row hrow =>
        obtain ⟨hid, hnormal⟩ := normalizeBackupTargetCreate_normal hrow
        rw [Bool.and_eq_true] at hfresh
        exact h.create hnormal (by rw [hid]; exact hfresh.2)
      · exact h
    · exact h
  | startUpdate session id input configIv secretIv =>
    exact h.start ⟨by simp, by simp, trivial⟩
  | startImport session targets =>
    simp only [step]
    split
    next rows hrows =>
      refine h.start ⟨?_, by simp, trivial⟩
      intro row hrow
      have hmem : row ∈ rows := by simpa using hrow
      exact normalizeImportedBackupTargets_normal hrows row hmem
    · exact h
  | startChildren session todo => exact h.start (by simp [SessionSound])
  | advance session =>
    simp only [step]
    split
    · exact h
    next work hstate => exact sound_advanceChange h hstate hok
    next todo inserted hstate => exact sound_advanceChildren h hstate
  | rollback session =>
    simp only [step]
    split
    · exact h
    · exact h.rollback
  | removeChild row =>
    have hany : ∀ p : ChildRow → Bool, (s.children.erase row).any p = true →
        s.children.any p = true := by
      intro p hp
      obtain ⟨child, hchild, hp⟩ := List.any_eq_true.mp hp
      exact List.any_eq_true.mpr ⟨child, List.mem_of_mem_erase hchild, hp⟩
    exact ⟨h.targets, fun hstate => (h.sessions hstate).undisturbed
      ⟨id, fun _ => rfl, fun _ => hany _, fun _ => hany _⟩⟩

theorem start_targets {first : TargetSession} : (s.start session first).targets = s.targets := by
  unfold start
  split <;> rfl

/-- Before the end of its changes, a transaction shows nothing of them. -/
theorem advanceChange_targets {change : TargetChange} {rest : List TargetChange}
    {phase : ChangePhase} {written : List BackupTargetRow} :
    (s.advanceChange session ⟨change :: rest, phase, written⟩).targets = s.targets := by
  cases phase with
  | lock =>
    simp only [advanceChange]
    split
    · rfl
    · split <;> rfl
  | identity current next =>
    simp only [advanceChange]
    split
    · cases change <;> rfl
    · rfl
  | binding current next =>
    simp only [advanceChange]
    split <;> rfl
  | write next => rfl

theorem advanceChildren_targets {todo : List ChildInsert} {inserted : List ChildRow} :
    (s.advanceChildren session todo inserted).targets = s.targets := by
  unfold advanceChildren
  split
  · rfl
  · split
    · rfl
    · split
      · rfl
      · split <;> rfl

/-- In a sound state no step changes the place of a referenced target or, where it counts, the
    binding of one with orphans. -/
theorem Sound.step_keeps {id : String} {row : BackupTargetRow} (h : Sound b s) (op : TargetOp)
    (hrow : s.targets.find id = some row) :
    ∃ row', (s.step op).targets.find id = some row' ∧
      (s.referenced id = true → SamePlace row row') ∧
      (b → s.orphaned id = true → storageBinding row' = storageBinding row) := by
  -- two kinds of steps write targets: a creation, and the commit of changes
  have hsame : ∀ {s' : TargetSystem}, s'.targets = s.targets → ∃ row', s'.targets.find id = some row' ∧
      (s.referenced id = true → SamePlace row row') ∧
      (b → s.orphaned id = true → storageBinding row' = storageBinding row) := by
    intro s' htargets
    exact ⟨row, htargets ▸ hrow, fun _ _ => rfl, fun _ _ => rfl⟩
  cases op with
  | create id' input configIv secretIv =>
    simp only [step]
    split
    next hfresh =>
      split
      next created hcreated =>
        obtain ⟨hid, -⟩ := normalizeBackupTargetCreate_normal hcreated
        have hne : created.id ≠ id := by
          rintro rfl
          rw [← hid, hrow] at hfresh
          simp at hfresh
        refine ⟨row, ?_, fun _ _ => rfl, fun _ _ => rfl⟩
        show (s.targets.upsert created).find id = some row
        rw [Table.find_upsert, if_neg hne, hrow]
      · exact hsame rfl
    · exact hsame rfl
  | startUpdate session id' input configIv secretIv => exact hsame start_targets
  | startImport session targets =>
    simp only [step]
    split
    · exact hsame start_targets
    · exact hsame rfl
  | startChildren session todo => exact hsame start_targets
  | advance session =>
    simp only [step]
    split
    · exact hsame rfl
    next work hstate =>
      obtain ⟨changes, phase, written⟩ := work
      cases changes with
      | nil =>
        have hwritten := (h.sessions hstate).2.1
        cases hvisible : s.visible ⟨[], phase, written⟩ id with
        | none =>
          have hnone := (Option.or_eq_none_iff.mp hvisible).2
          rw [hrow] at hnone
          cases hnone
        | some row' =>
          obtain ⟨rfl, -, hkeeps⟩ := keeps_visible h hwritten hvisible
          exact ⟨row', (find_commit _ _).trans hvisible, hkeeps row hrow⟩
      | cons change rest => exact hsame advanceChange_targets
    next todo inserted hstate => exact hsame advanceChildren_targets
  | rollback session =>
    refine hsame ?_
    simp only [step]
    split <;> rfl
  | removeChild child => exact hsame rfl

end TargetSystem

/-- **Targets in use keep their objects.** In every run and at each of its steps, the place of every
    key of a referenced target stays the same; and so do the storage configuration and the
    credentials of a target with orphans, if no import has overwritten a target with an orphan by
    another binding. -/
theorem target_binding_stable (ops : List TargetOp) (op : TargetOp) (id : String)
    (row : BackupTargetRow)
    (hrow : (exec TargetSystem.step .initial ops).targets.find id = some row) :
    ∃ row', ((exec TargetSystem.step .initial ops).step op).targets.find id = some row' ∧
      ((exec TargetSystem.step .initial ops).referenced id = true →
        ∀ objectKey, storagePlace row' objectKey = storagePlace row objectKey) ∧
      (Meets TargetSystem.step (fun s op => importKeepsBinding s op = true) .initial ops →
        (exec TargetSystem.step .initial ops).orphaned id = true →
          storageBinding row' = storageBinding row) := by
  -- the places are kept in every run, the bindings in those that meet the condition
  have hplaces : TargetSystem.Sound False (exec TargetSystem.step .initial ops) :=
    exec_invariant (fun s op => TargetSystem.sound_step op False.elim) TargetSystem.sound_initial ops
  obtain ⟨row', hrow', hplace, -⟩ := hplaces.step_keeps op hrow
  refine ⟨row', hrow', hplace, ?_⟩
  intro hops horphan
  have hbindings : TargetSystem.Sound True (exec TargetSystem.step .initial ops) :=
    exec_invariant_of_meets (fun s op hok => TargetSystem.sound_step op fun _ => hok)
      TargetSystem.sound_initial hops
  obtain ⟨row'', hrow'', -, hbinding⟩ := hbindings.step_keeps op hrow
  obtain rfl := Option.some.inj (hrow'.symm.trans hrow'')
  exact hbinding trivial horphan

end Runtime

/-! ### An import over a target with an orphan -/

section Import

/-- URLs that are an https origin in lower case, and a cipher that shows its text. -/
@[reducible] def plainRuntime : TargetRuntime where
  parseUrl value :=
    if Js.startsWith value "https://" &&
        (value.toList.drop 8).all (fun c => c.isLower || c.isDigit || c = '.') then
      some ⟨"https:", Js.dropChars 8 value, "", "", "", "", value, "/"⟩
    else none
  letterOrNumber c := c.isAlphanum
  encryptSecret iv text := "v1:" ++ toString iv ++ ":" ++ text
  decryptSecret secret :=
    if Js.startsWith secret "v1:" then
      .ok (String.ofList (((secret.toList.drop 3).dropWhile (· ≠ ':')).drop 1))
    else .error "Unsupported encrypted secret format"
  parseUrl_trim {value url trimmed} h htrimmed := by
    rw [← (Option.ite_none_right_eq_some.mp h).2 |> Option.some.inj,
      ← (Option.ite_none_right_eq_some.mp htrimmed).2 |> Option.some.inj]
  parseUrl_endpoint {value url} h _ := by
    have hurl := Option.some.inj (Option.ite_none_right_eq_some.mp h).2
    have hendpoint : url.endpoint = value := by
      rw [← hurl]
      simp [Url.endpoint]
    exact ⟨url, by rw [hendpoint]; exact h, rfl⟩

attribute [local instance] plainRuntime

/-- The input for an S3 target with this secret. -/
def s3Input (secret : String) : BackupTargetCreate :=
  ⟨"offsite", true, .keep, .s3 (.flat ⟨"https://s3.example.test", "https://s3.example.test", by decide⟩
    ⟨"backups", by decide⟩ none none false none) (some "key") (some secret)⟩

/-- A target gets an orphan; a configuration backup with this secret for it is imported, up to its
    commit. -/
def importRun (secret : String) : List TargetOp :=
  [.create "target" (s3Input "old secret") 0 1,
    .startChildren 1 [⟨⟨"target", .remoteArtifactOrphans⟩, none⟩], .advance 1, .advance 1,
    .startImport 2 [⟨"target", s3Input secret, 2, 3⟩], .advance 2, .advance 2, .advance 2]

/-- The backup of the current configuration can be imported, and changes nothing. -/
theorem import_same_binding_stable :
    (exec TargetSystem.step .initial (importRun "old secret")).orphaned "target" = true ∧
      ∃ row row', (exec TargetSystem.step .initial (importRun "old secret")).targets.find "target" =
          some row ∧
        ((exec TargetSystem.step .initial (importRun "old secret")).step (.advance 2)).targets.find
          "target" = some row' ∧
        storageBinding row' = storageBinding row := by
  have hmeets : Meets TargetSystem.step (fun s op => importKeepsBinding s op = true) .initial
      (importRun "old secret") := by decide +kernel
  have horphan : (exec TargetSystem.step .initial (importRun "old secret")).orphaned "target" =
      true := by decide +kernel
  have hsome : ((exec TargetSystem.step .initial (importRun "old secret")).targets.find
      "target").isSome = true := by decide +kernel
  obtain ⟨row, hrow⟩ := Option.isSome_iff_exists.mp hsome
  obtain ⟨row', hrow', -, hbinding⟩ := target_binding_stable (importRun "old secret") (.advance 2)
    "target" row hrow
  exact ⟨horphan, row, row', hrow, hrow', hbinding hmeets horphan⟩

/-- An older backup changes the credentials under an orphan. -/
theorem import_changes_orphan_binding :
    ¬ ∀ (ops : List TargetOp) (op : TargetOp) (id : String) (row row' : BackupTargetRow),
      (exec TargetSystem.step .initial ops).targets.find id = some row →
      ((exec TargetSystem.step .initial ops).step op).targets.find id = some row' →
      (exec TargetSystem.step .initial ops).orphaned id = true →
        storageBinding row' = storageBinding row := by
  intro h
  have hchanged : ((exec TargetSystem.step .initial (importRun "older secret")).targets.find
      "target").any (fun row => (((exec TargetSystem.step .initial
        (importRun "older secret")).step (.advance 2)).targets.find "target").any fun row' =>
          storageBinding row' ≠ storageBinding row) = true := by decide +kernel
  obtain ⟨row, hrow, hany⟩ := Option.any_eq_true .. |>.mp hchanged
  obtain ⟨row', hrow', hne⟩ := Option.any_eq_true .. |>.mp hany
  have horphan : (exec TargetSystem.step .initial (importRun "older secret")).orphaned "target" =
      true := by decide +kernel
  exact of_decide_eq_true hne (h (importRun "older secret") (.advance 2) "target" row row' hrow hrow'
    horphan)

end Import

end ComposeBastion
