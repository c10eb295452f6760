import ComposeBastion.Js.Text
import ComposeBastion.Lib.Runs
import Mathlib.Data.List.Nodup
import Mathlib.Data.List.Induction
import Mathlib.Data.List.Infix
import Mathlib.Data.List.Lex
import Mathlib.Data.List.Perm.Subperm
import Mathlib.Data.List.Sort

namespace ComposeBastion.Migrations

/-!
# Migrations of the database

`db/migrate.ts`: every replica of the server runs the migrations of its directory when it starts,
on one connection, under an advisory lock of the session.

* `Phase`, `Phase.advance` — where `runMigrations` stands, and how it goes on with an answer;
* `Db`, `serve` — the database, with statements that fail and connections that are lost;
* `Cluster.step` — replicas at once;
* `migrations_in_order` — every script is executed once, after the scripts before it;
* `migrations_exclusive` — one replica at a time, and none leaves the lock behind.
-/

/-! ### Directories -/

/-- The name of a file in the directory, which is also the version. -/
abbrev File := String

/-- The UTF-16 code units, by which `sort` compares. -/
def codeUnits (text : String) : List ℕ :=
  text.toList.flatMap fun c =>
    if c.toNat < 0x10000 then [c.toNat]
    else [0xD800 + (c.toNat - 0x10000) / 0x400, 0xDC00 + (c.toNat - 0x10000) % 0x400]

/-- What `readdir` lists. -/
abbrev Directory := { names : List File // names.Nodup }

/-- `readdir(…).filter((file) => file.endsWith(".sql")).sort()`. -/
def sqlFiles (directory : Directory) : List File :=
  (directory.1.filter (Js.endsWith · ".sql")).insertionSort fun left right =>
    codeUnits left ≤ codeUnits right

theorem nodup_sqlFiles (directory : Directory) : (sqlFiles directory).Nodup :=
  (List.perm_insertionSort _ _).nodup_iff.mpr (directory.2.filter _)

/-! ### The database -/

/-- What a transaction writes. -/
inductive Change
  | script (file : File) (sql : String)
  | version (file : File)
  deriving DecidableEq

/-- A connection, and what its open transaction has written. -/
structure Connection where
  alive : Bool
  tx : Option (List Change)
  deriving DecidableEq

def Connection.closed : Connection := ⟨false, none⟩

def Connection.write (connection : Connection) (change : Change) : Connection :=
  { connection with tx := connection.tx.map (· ++ [change]) }

/-- A statement that fails drops what its transaction has written, and a `COMMIT` that fails ends
    it. -/
def Connection.dropped (connection : Connection) : Connection :=
  { connection with tx := connection.tx.map fun _ => [] }

/-- The changes of the open transaction. -/
def Connection.pending (connection : Connection) : List Change := connection.tx.getD []

structure Db where
  -- which replica's connection holds the advisory lock
  holder : Option ℕ
  hasLedger : Bool
  -- `schema_migrations`, and the scripts that were committed, in their order
  ledger : List File
  executed : List (File × String)
  deriving DecidableEq

def Db.empty : Db := ⟨none, false, [], []⟩

/-- The lock of a session ends with it. -/
def Db.free (db : Db) (replica : ℕ) : Db :=
  if db.holder = some replica then { db with holder := none } else db

def Db.change (db : Db) : Change → Db
  | .script file sql => { db with executed := db.executed ++ [(file, sql)] }
  | .version file => { db with ledger := db.ledger ++ [file] }

def Db.commit (db : Db) (connection : Connection) : Db := connection.pending.foldl Db.change db

/-! ### Statements -/

inductive Request
  | connect
  -- `SELECT pg_advisory_lock($1::bigint)`
  | lock
  -- `CREATE TABLE IF NOT EXISTS schema_migrations`
  | createLedger
  | begin
  -- `SELECT 1 FROM schema_migrations WHERE version = $1`
  | select (file : File)
  -- `readFile`
  | read (file : File)
  | script (file : File) (sql : String)
  -- `INSERT INTO schema_migrations (version) VALUES ($1)`
  | insert (file : File)
  | commit
  | rollback
  -- `SELECT pg_advisory_unlock($1::bigint)`
  | unlock
  -- `client.release(destroy)`
  | release (destroy : Bool)
  deriving DecidableEq

inductive Outcome
  | done | failed | lost
  deriving DecidableEq

/-- What is open about an answer: whether the statement succeeds, whether a commit whose answer is
    lost is carried out, and what stands in the file. -/
structure Reply where
  outcome : Outcome
  applied : Bool
  text : String
  deriving DecidableEq

inductive Answer
  | ok
  | found (rows : Bool)
  | text (sql : String)
  | unlocked (held : Bool)
  | error
  deriving DecidableEq

/-- A statement that succeeds. -/
def Db.execute (db : Db) (replica : ℕ) (connection : Connection) :
    Request → Db × Connection × Answer
  | .lock => ({ db with holder := some replica }, connection, .ok)
  | .createLedger => ({ db with hasLedger := true }, connection, .ok)
  | .begin => (db, { connection with tx := some [] }, .ok)
  | .select file =>
    if db.hasLedger then
      (db, connection, .found (file ∈ db.ledger || .version file ∈ connection.pending))
    else (db, connection.dropped, .error)
  | .script file sql => (db, connection.write (.script file sql), .ok)
  | .insert file =>
    -- the version is the primary key
    if !db.hasLedger || file ∈ db.ledger || .version file ∈ connection.pending then
      (db, connection.dropped, .error)
    else (db, connection.write (.version file), .ok)
  | .commit => (db.commit connection, { connection with tx := none }, .ok)
  | .rollback => (db, { connection with tx := none }, .ok)
  | .unlock => (db.free replica, connection, .unlocked (db.holder = some replica))
  | _ => (db, connection, .ok)

/-- A statement on a connection that is alive. -/
def Db.query (db : Db) (replica : ℕ) (connection : Connection) (request : Request) (reply : Reply) :
    Db × Connection × Answer :=
  match reply.outcome with
  | .done => db.execute replica connection request
  | .failed =>
    (db, if request = .commit then { connection with tx := none } else connection.dropped, .error)
  | .lost =>
    ((if request = .commit ∧ reply.applied = true then db.commit connection else db).free replica,
      .closed, .error)

def serve (db : Db) (replica : ℕ) (connection : Connection) (request : Request) (reply : Reply) :
    Db × Connection × Answer :=
  match request with
  | .connect =>
    if reply.outcome = .done then (db, ⟨true, none⟩, .ok) else (db, connection, .error)
  | .read _ => (db, connection, if reply.outcome = .done then .text reply.text else .error)
  | .release destroy => if destroy then (db.free replica, .closed, .ok) else (db, connection, .ok)
  | request =>
    if connection.alive then db.query replica connection request reply
    else (db, connection, .error)

/-! ### `runMigrations` -/

inductive MigrationError
  | failed
  -- "PostgreSQL migration advisory lock was not held during release"
  | notHeld
  -- "Migration … failed and rollback also failed", of both errors
  | rollback (file : File) (error : MigrationError)
  -- "Migration failed and its advisory lock could not be released", of both errors
  | release (error unlockError : MigrationError)
  deriving DecidableEq

/-- Where a run stands: what it waits for, and what is left to do. -/
inductive Phase
  | connecting (files : List File)
  | locking (files : List File)
  | creating (files : List File)
  | beginning (file : File) (rest : List File)
  | selecting (file : File) (rest : List File)
  | reading (file : File) (rest : List File)
  | scripting (file : File) (rest : List File) (sql : String)
  | inserting (file : File) (rest : List File)
  | committing (file : File) (rest : List File)
  | rollingBack (file : File)
  | unlocking (error : Option MigrationError) (clientMustBeDestroyed : Bool)
  | releasing (result : Option MigrationError) (destroy : Bool)
  | ended (result : Option MigrationError)
  deriving DecidableEq

def Phase.request : Phase → Option Request
  | .connecting _ => some .connect
  | .locking _ => some .lock
  | .creating _ => some .createLedger
  | .beginning _ _ => some .begin
  | .selecting file _ => some (.select file)
  | .reading file _ => some (.read file)
  | .scripting file _ sql => some (.script file sql)
  | .inserting file _ => some (.insert file)
  | .committing _ _ => some .commit
  | .rollingBack _ => some .rollback
  | .unlocking _ _ => some .unlock
  | .releasing _ destroy => some (.release destroy)
  | .ended _ => none

/-- The loop over the files. -/
def Phase.files : List File → Phase
  | [] => .unlocking none false
  | file :: rest => .beginning file rest

/-- The release of the lock went wrong: the connection is destroyed. -/
def Phase.unlockFailed (error : Option MigrationError) (unlockError : MigrationError) : Phase :=
  match error with
  | none => .releasing (some unlockError) true
  | some error => .releasing (some (.release error unlockError)) true

def Phase.advance : Phase → Answer → Phase
  | .connecting files, .ok => .locking files
  | .connecting _, _ => .ended (some .failed)
  | .locking files, .ok => .creating files
  -- the lock was not acquired
  | .locking _, _ => .releasing (some .failed) true
  | .creating files, .ok => .files files
  | .creating _, _ => .unlocking (some .failed) false
  | .beginning file rest, .ok => .selecting file rest
  -- `BEGIN` stands before the `try` of the file
  | .beginning _ _, _ => .unlocking (some .failed) false
  | .selecting file rest, .found true => .committing file rest
  | .selecting file rest, .found false => .reading file rest
  | .selecting file _, _ => .rollingBack file
  | .reading file rest, .text sql => .scripting file rest sql
  | .reading file _, _ => .rollingBack file
  | .scripting file rest _, .ok => .inserting file rest
  | .scripting file _ _, _ => .rollingBack file
  | .inserting file rest, .ok => .committing file rest
  | .inserting file _, _ => .rollingBack file
  | .committing _ rest, .ok => .files rest
  | .committing file _, _ => .rollingBack file
  | .rollingBack _, .ok => .unlocking (some .failed) false
  | .rollingBack file, _ => .unlocking (some (.rollback file .failed)) true
  | .unlocking error destroy, .unlocked true => .releasing error destroy
  | .unlocking error _, .unlocked false => .unlockFailed error .notHeld
  | .unlocking error _, _ => .unlockFailed error .failed
  | .releasing result _, _ => .ended result
  | .ended result, _ => .ended result

/-! ### Replicas at once -/

structure Replica where
  files : List File
  phase : Phase
  connection : Connection
  deriving DecidableEq

structure Cluster where
  db : Db
  replicas : List Replica

inductive Op
  | start (directory : Directory)
  | answer (replica : ℕ) (reply : Reply)

/-- The lock is given to one connection at a time. -/
def Waits (db : Db) (replica : Replica) (reply : Reply) : Prop :=
  replica.phase.request = some .lock ∧ reply.outcome = .done ∧ replica.connection.alive = true
    ∧ db.holder ≠ none

instance (db : Db) (replica : Replica) (reply : Reply) : Decidable (Waits db replica reply) :=
  inferInstanceAs (Decidable (_ ∧ _ ∧ _ ∧ _))

/-- A replica that gets an answer. -/
def Replica.answered (replica : Replica) (connection : Connection) (answer : Answer) : Replica where
  files := replica.files
  phase := replica.phase.advance answer
  connection := connection

def Cluster.step (cluster : Cluster) : Op → Cluster
  | .start directory =>
    { cluster with replicas := cluster.replicas
        ++ [⟨sqlFiles directory, .connecting (sqlFiles directory), .closed⟩] }
  | .answer index reply =>
    match cluster.replicas[index]? with
    | none => cluster
    | some replica =>
      match replica.phase.request with
      | none => cluster
      | some request =>
        if Waits cluster.db replica reply then cluster
        else
          let served := serve cluster.db index replica.connection request reply
          { db := served.1
            replicas := cluster.replicas.set index (replica.answered served.2.1 served.2.2) }

def Cluster.empty : Cluster := ⟨.empty, []⟩

/-! ### What the statements leave alone -/

/-- What a replica changes leaves the others their lock, and only grows the ledger, under the
    lock. -/
structure Frame (replica : ℕ) (db db' : Db) : Prop where
  holder : ∀ other, other ≠ replica → (db'.holder = some other ↔ db.holder = some other)
  ledger : db.ledger ⊆ db'.ledger
  locked : db.holder ≠ some replica → db'.ledger = db.ledger

theorem Frame.refl (replica : ℕ) (db : Db) : Frame replica db db :=
  ⟨fun _ _ => Iff.rfl, List.Subset.refl _, fun _ => rfl⟩

theorem Db.free_holder (db : Db) (replica : ℕ) : (db.free replica).holder ≠ some replica := by
  rw [Db.free]
  split
  · exact (Option.some_ne_none replica).symm
  · assumption

@[simp] theorem Db.free_ledger (db : Db) (replica : ℕ) : (db.free replica).ledger = db.ledger := by
  rw [Db.free]
  split <;> rfl

@[simp] theorem Db.free_executed (db : Db) (replica : ℕ) :
    (db.free replica).executed = db.executed := by
  rw [Db.free]
  split <;> rfl

theorem Frame.free {replica : ℕ} {db db' : Db} (h : Frame replica db db') :
    Frame replica db (db'.free replica) := by
  refine ⟨fun other hother => ?_, ?_, fun hholder => ?_⟩
  · rw [← h.holder other hother, Db.free]
    split
    · rename_i hheld
      rw [hheld, Option.some.injEq]
      exact iff_of_false (Option.some_ne_none other).symm (Ne.symm hother)
    · exact Iff.rfl
  · rw [Db.free_ledger]
    exact h.ledger
  · rw [Db.free_ledger]
    exact h.locked hholder

@[simp] theorem Db.commit_holder (db : Db) (connection : Connection) :
    (db.commit connection).holder = db.holder := by
  rw [Db.commit]
  induction connection.pending generalizing db with
  | nil => rfl
  | cons change changes ih =>
    rw [List.foldl_cons, ih]
    cases change <;> rfl

/-! ### What holds of a replica -/

/-- Whether a replica holds the lock, on a connection that is alive; `none` leaves it open. -/
def Phase.locked : Phase → Option Bool
  | .connecting _ => none
  | .locking _ | .ended _ => some false
  | .releasing _ destroy => if destroy then none else some false
  | _ => some true

/-- What its transaction is. -/
def Phase.Writing (ledger : List File) (connection : Connection) : Phase → Prop
  | .connecting _ => False
  | .locking _ | .creating _ | .beginning _ _ | .ended _ => connection.tx = none
  | .selecting _ _ => connection.tx = some []
  | .reading file _ | .scripting file _ _ => connection.tx = some [] ∧ file ∉ ledger
  | .inserting file _ => file ∉ ledger ∧ ∃ sql, connection.tx = some [.script file sql]
  | .committing file _ => connection.tx = some [] ∧ file ∈ ledger
      ∨ file ∉ ledger ∧ ∃ sql, connection.tx = some [.script file sql, .version file]
  | .rollingBack _ => connection.pending = []
  | .unlocking _ destroy | .releasing _ destroy =>
    connection.pending = [] ∧ (destroy = false → connection.tx = none)

/-- What is applied of its files, while nothing has failed. -/
def Phase.Progress (files ledger : List File) : Phase → Prop
  | .connecting todo | .locking todo | .creating todo => todo = files
  | .beginning file rest | .selecting file rest | .reading file rest | .scripting file rest _
  | .inserting file rest | .committing file rest =>
    ∃ before, files = before ++ file :: rest ∧ before ⊆ ledger
  | .unlocking none _ | .releasing none _ | .ended none => files ⊆ ledger
  | _ => True

structure Replica.Sound (db : Db) (index : ℕ) (replica : Replica) : Prop where
  closed : replica.connection.alive = false →
    replica.connection.tx = none ∧ db.holder ≠ some index
  held : replica.connection.alive = true → replica.phase.locked = some true →
    db.holder = some index
  free : replica.connection.alive = true → replica.phase.locked = some false →
    db.holder ≠ some index
  writing : replica.connection.alive = true →
    replica.phase.Writing db.ledger replica.connection
  progress : replica.phase.Progress replica.files db.ledger

theorem Phase.Progress.mono {files ledger ledger' : List File} {phase : Phase}
    (h : phase.Progress files ledger) (hmore : ledger ⊆ ledger') :
    phase.Progress files ledger' := by
  have hfiles : ∀ file rest, (∃ before, files = before ++ file :: rest ∧ before ⊆ ledger) →
      ∃ before, files = before ++ file :: rest ∧ before ⊆ ledger' :=
    fun _ _ ⟨before, heq, hbefore⟩ => ⟨before, heq, List.Subset.trans hbefore hmore⟩
  cases phase with
  | connecting _ => exact h
  | locking _ => exact h
  | creating _ => exact h
  | beginning _ _ => exact hfiles _ _ h
  | selecting _ _ => exact hfiles _ _ h
  | reading _ _ => exact hfiles _ _ h
  | scripting _ _ _ => exact hfiles _ _ h
  | inserting _ _ => exact hfiles _ _ h
  | committing _ _ => exact hfiles _ _ h
  | rollingBack _ => exact trivial
  | unlocking error _ =>
    cases error with
    | none => exact List.Subset.trans h hmore
    | some _ => exact trivial
  | releasing result _ =>
    cases result with
    | none => exact List.Subset.trans h hmore
    | some _ => exact trivial
  | ended result =>
    cases result with
    | none => exact List.Subset.trans h hmore
    | some _ => exact trivial

/-- Without the lock, the ledger does not matter to a transaction. -/
theorem Phase.Writing.congr {ledger ledger' : List File} {connection : Connection} {phase : Phase}
    (h : phase.Writing ledger connection) (hledger : phase.locked = some true → ledger' = ledger) :
    phase.Writing ledger' connection := by
  cases phase with
  | connecting _ => exact h
  | locking _ => exact h
  | ended _ => exact h
  | releasing _ _ => exact h
  | _ =>
    rw [hledger rfl]
    exact h

/-- What another replica does keeps it. -/
theorem Replica.Sound.frame {db db' : Db} {index other : ℕ} {replica : Replica}
    (h : replica.Sound db index) (hframe : Frame other db db') (hne : index ≠ other) :
    replica.Sound db' index where
  closed hclosed := ⟨(h.closed hclosed).1,
    fun hheld => (h.closed hclosed).2 ((hframe.holder index hne).mp hheld)⟩
  held halive hlocked := (hframe.holder index hne).mpr (h.held halive hlocked)
  free halive hlocked hheld := h.free halive hlocked ((hframe.holder index hne).mp hheld)
  writing halive := (h.writing halive).congr fun hlocked => hframe.locked (by
    rw [h.held halive hlocked, ne_eq, Option.some.injEq]
    exact hne)
  progress := h.progress.mono hframe.ledger

/-! ### What holds of the ledger -/

/-- Every version stands behind the ones before it in some directory. -/
def InOrder (catalogs : List (List File)) (ledger : List File) : Prop :=
  ∀ before file after, ledger = before ++ file :: after →
    ∃ files ∈ catalogs, ∃ earlier later : List File, files = earlier ++ file :: later
      ∧ earlier ⊆ before

structure Db.Sound (catalogs : List (List File)) (db : Db) : Prop where
  executed : db.executed.map Prod.fst = db.ledger
  nodup : db.ledger.Nodup
  order : InOrder catalogs db.ledger

theorem Db.Sound.free {catalogs : List (List File)} {db : Db} (h : db.Sound catalogs)
    (replica : ℕ) : (db.free replica).Sound catalogs := by
  refine ⟨?_, ?_, ?_⟩
  · rw [Db.free_executed, Db.free_ledger]
    exact h.executed
  · rw [Db.free_ledger]
    exact h.nodup
  · rw [Db.free_ledger]
    exact h.order

theorem InOrder.append {catalogs : List (List File)} {ledger files before rest : List File}
    {file : File} (h : InOrder catalogs ledger) (hfiles : files ∈ catalogs)
    (hsplit : files = before ++ file :: rest) (hbefore : before ⊆ ledger) :
    InOrder catalogs (ledger ++ [file]) := by
  intro front version back heq
  rcases List.eq_nil_or_concat back with rfl | ⟨back, last, rfl⟩
  · obtain ⟨rfl, hlast⟩ := List.append_inj' heq rfl
    cases hlast
    exact ⟨files, hfiles, before, rest, hsplit, hbefore⟩
  · rw [List.concat_eq_append, ← List.cons_append, ← List.append_assoc] at heq
    exact h front version back (List.append_inj' heq rfl).1

/-- **Commits.**  What a replica commits is nothing, or a script that was not executed, behind the
    ones before it. -/
theorem Db.Sound.commit {catalogs : List (List File)} {db : Db} {index : ℕ} {replica : Replica}
    {file : File} {rest : List File} (h : db.Sound catalogs) (hreplica : replica.Sound db index)
    (hfiles : replica.files ∈ catalogs) (hphase : replica.phase = .committing file rest)
    (halive : replica.connection.alive = true) :
    (db.commit replica.connection).Sound catalogs ∧ Frame index db (db.commit replica.connection)
      ∧ file ∈ (db.commit replica.connection).ledger := by
  have hheld : db.holder = some index := hreplica.held halive (by rw [hphase]; rfl)
  have hwriting := hreplica.writing halive
  have hprogress := hreplica.progress
  rw [hphase] at hwriting hprogress
  obtain ⟨before, hsplit, hbefore⟩ := hprogress
  rcases hwriting with ⟨htx, hmem⟩ | ⟨hnew, sql, htx⟩
  · have hsame : db.commit replica.connection = db := by
      rw [Db.commit, Connection.pending, htx]
      rfl
    rw [hsame]
    exact ⟨h, Frame.refl index db, hmem⟩
  · have hledger : (db.commit replica.connection).ledger = db.ledger ++ [file] := by
      rw [Db.commit, Connection.pending, htx]
      rfl
    have hexecuted : (db.commit replica.connection).executed = db.executed ++ [(file, sql)] := by
      rw [Db.commit, Connection.pending, htx]
      rfl
    refine ⟨⟨?_, ?_, ?_⟩, ⟨fun other _ => ?_, ?_, fun hnot => absurd hheld hnot⟩, ?_⟩
    · rw [hledger, hexecuted, List.map_append, h.executed]
      rfl
    · rw [hledger]
      refine List.nodup_append.mpr ⟨h.nodup, List.nodup_singleton _, ?_⟩
      exact fun version hversion new hnew' heq =>
        hnew (List.mem_singleton.mp hnew' ▸ heq ▸ hversion)
    · rw [hledger]
      exact h.order.append hfiles hsplit hbefore
    · rw [Db.commit_holder]
    · rw [hledger]
      exact List.subset_append_left _ _
    · rw [hledger]
      exact List.mem_append_right _ List.mem_cons_self

/-! ### One answer -/

/-- What PostgreSQL is asked; the pool and the file system answer the rest. -/
def Request.isStatement : Request → Bool
  | .connect | .read _ | .release _ => false
  | _ => true

/-- An answer, with what it leaves of the replica and of the database. -/
def Kept (catalogs : List (List File)) (db db' : Db) (index : ℕ) (replica : Replica) : Prop :=
  replica.Sound db' index ∧ Frame index db db' ∧ db'.Sound catalogs

theorem Phase.Progress.error {files ledger : List File} {phase : Phase}
    (h : phase.Progress files ledger) : (phase.advance .error).Progress files ledger := by
  cases phase with
  | unlocking error _ => cases error <;> exact trivial
  | releasing result _ => cases result <;> exact h
  | ended result => exact h
  | _ => exact trivial

section

variable {catalogs : List (List File)} {db : Db} {index : ℕ} {replica : Replica}
  {connection : Connection} {phase : Phase}

theorem Replica.Sound.of_dead {db' : Db} {answer : Answer} (hdead : connection.alive = false)
    (htx : connection.tx = none) (hholder : db'.holder ≠ some index)
    (hprogress : (replica.phase.advance answer).Progress replica.files db'.ledger) :
    (replica.answered connection answer).Sound db' index := by
  have hnot : ¬ connection.alive = true := ne_true_of_eq_false hdead
  exact ⟨fun _ => ⟨htx, hholder⟩, fun halive => absurd halive hnot,
    fun halive => absurd halive hnot, fun halive => absurd halive hnot, hprogress⟩

theorem Replica.Sound.of_alive (halive : replica.connection.alive = true)
    (hheld : replica.phase.locked = some true → db.holder = some index)
    (hfree : replica.phase.locked = some false → db.holder ≠ some index)
    (hwriting : replica.phase.Writing db.ledger replica.connection)
    (hprogress : replica.phase.Progress replica.files db.ledger) : replica.Sound db index :=
  ⟨fun hdead => absurd hdead (ne_false_of_eq_true halive), fun _ => hheld, fun _ => hfree,
    fun _ => hwriting, hprogress⟩

theorem Replica.Sound.of_held (halive : replica.connection.alive = true)
    (hlocked : replica.phase.locked = some true) (hholder : db.holder = some index)
    (hwriting : replica.phase.Writing db.ledger replica.connection)
    (hprogress : replica.phase.Progress replica.files db.ledger) : replica.Sound db index := by
  refine .of_alive halive (fun _ => hholder) (fun hfree => ?_) hwriting hprogress
  rw [hlocked] at hfree
  cases hfree

theorem Replica.Sound.of_free (halive : replica.connection.alive = true)
    (hlocked : replica.phase.locked = some false) (hholder : db.holder ≠ some index)
    (hwriting : replica.phase.Writing db.ledger replica.connection)
    (hprogress : replica.phase.Progress replica.files db.ledger) : replica.Sound db index := by
  refine .of_alive halive (fun hheld => ?_) (fun _ => hholder) hwriting hprogress
  rw [hlocked] at hheld
  cases hheld

/-- A replica that is about to close its connection may have the lock or not. -/
theorem Replica.Sound.of_destroyed {error : Option MigrationError}
    (hphase : replica.phase = .releasing error true)
    (halive : replica.connection.alive = true) (hpending : replica.connection.pending = [])
    (hprogress : replica.phase.Progress replica.files db.ledger) : replica.Sound db index := by
  refine .of_alive halive (fun hheld => ?_) (fun hfree => ?_) ?_ hprogress
  · rw [hphase] at hheld
    cases hheld
  · rw [hphase] at hfree
    cases hfree
  · rw [hphase]
    exact ⟨hpending, fun hkept => by cases hkept⟩

theorem Connection.pending_eq_nil (h : connection.tx = none ∨ connection.tx = some []) :
    connection.pending = [] := by
  rcases h with h | h <;> rw [Connection.pending, h] <;> rfl

/-- A connection that is alive, with the lock and without a transaction, at the next file. -/
theorem Replica.Sound.files {files before rest : List File} (hholder : db.holder = some index)
    (htx : connection.tx = none) (halive : connection.alive = true)
    (hsplit : files = before ++ rest) (hbefore : before ⊆ db.ledger) :
    (⟨files, .files rest, connection⟩ : Replica).Sound db index := by
  cases rest with
  | nil =>
    rw [List.append_nil] at hsplit
    refine .of_held halive rfl hholder ?_ ?_
    · exact ⟨Connection.pending_eq_nil (.inl htx), fun _ => htx⟩
    · show files ⊆ db.ledger
      rw [hsplit]
      exact hbefore
  | cons file rest =>
    exact .of_held halive rfl hholder htx ⟨before, hsplit, hbefore⟩

/-- The connection after a statement that failed. -/
def Connection.afterFailure (connection : Connection) (request : Request) : Connection :=
  if request = .commit then { connection with tx := none } else connection.dropped

theorem Connection.afterFailure_alive (request : Request) :
    (connection.afterFailure request).alive = connection.alive := by
  rw [Connection.afterFailure]
  split <;> rfl

theorem Connection.afterFailure_pending (request : Request) :
    (connection.afterFailure request).pending = [] := by
  rw [Connection.afterFailure]
  split
  · rfl
  · rw [Connection.pending, Connection.dropped]
    cases connection.tx <;> rfl

theorem Connection.afterFailure_none (request : Request) (h : connection.tx = none) :
    (connection.afterFailure request).tx = none := by
  rw [Connection.afterFailure]
  split
  · rfl
  · rw [Connection.dropped, h]
    rfl

/-- **A statement fails.**  The replica still has its connection. -/
theorem Replica.Sound.failed (h : replica.Sound db index)
    (halive : replica.connection.alive = true) {request : Request}
    (hrequest : replica.phase.request = some request) (hstatement : request.isStatement = true) :
    (replica.answered (replica.connection.afterFailure request) .error).Sound db index := by
  obtain ⟨files, phase, connection⟩ := replica
  have halive' : (connection.afterFailure request).alive = true := by
    rw [Connection.afterFailure_alive, halive]
  have hpending := connection.afterFailure_pending request
  have hheld := h.held halive
  have hwriting := h.writing halive
  have hprogress := h.progress.error
  cases phase with
  | connecting _ =>
    cases hrequest
    cases hstatement
  | reading _ _ =>
    cases hrequest
    cases hstatement
  | releasing _ _ =>
    cases hrequest
    cases hstatement
  | ended _ => cases hrequest
  | locking _ => exact .of_destroyed rfl halive' hpending hprogress
  | unlocking error _ =>
    cases error with
    | none => exact .of_destroyed rfl halive' hpending hprogress
    | some _ => exact .of_destroyed rfl halive' hpending hprogress
  | creating _ =>
    exact .of_held halive' rfl (hheld rfl)
      ⟨hpending, fun _ => connection.afterFailure_none request hwriting⟩ hprogress
  | beginning _ _ =>
    exact .of_held halive' rfl (hheld rfl)
      ⟨hpending, fun _ => connection.afterFailure_none request hwriting⟩ hprogress
  | rollingBack _ =>
    exact .of_held halive' rfl (hheld rfl) ⟨hpending, fun hkept => by cases hkept⟩ hprogress
  | _ => exact .of_held halive' rfl (hheld rfl) hpending hprogress

/-- A statement that succeeds keeps the replica and the database. -/
def KeptByStatement (catalogs : List (List File)) (db : Db) (index : ℕ) (replica : Replica)
    (request : Request) : Prop :=
  Kept catalogs db (db.execute index replica.connection request).1 index
    (replica.answered (db.execute index replica.connection request).2.1
      (db.execute index replica.connection request).2.2)

section

variable {files : List File} {file : File} {rest : List File}

theorem Replica.Sound.selected
    (h : (⟨files, .selecting file rest, connection⟩ : Replica).Sound db index)
    (hdb : db.Sound catalogs) (halive : connection.alive = true) :
    KeptByStatement catalogs db index ⟨files, .selecting file rest, connection⟩ (.select file) := by
  have htx : connection.tx = some [] := h.writing halive
  have hholder : db.holder = some index := h.held halive rfl
  rw [KeptByStatement]
  by_cases hledger : db.hasLedger = true
  · by_cases hmem : file ∈ db.ledger
    · have hexecute : db.execute index connection (.select file)
          = (db, connection, .found true) := by
        simp [Db.execute, hledger, hmem]
      rw [hexecute]
      exact ⟨.of_held halive rfl hholder (.inl ⟨htx, hmem⟩) h.progress, Frame.refl index db, hdb⟩
    · have hpending : connection.pending = [] := Connection.pending_eq_nil (.inr htx)
      have hexecute : db.execute index connection (.select file)
          = (db, connection, .found false) := by
        simp [Db.execute, hledger, hmem, hpending]
      rw [hexecute]
      exact ⟨.of_held halive rfl hholder ⟨htx, hmem⟩ h.progress, Frame.refl index db, hdb⟩
  · have hexecute : db.execute index connection (.select file)
        = (db, connection.dropped, .error) := by
      simp [Db.execute, hledger]
    rw [hexecute]
    exact ⟨.of_held halive rfl hholder (connection.afterFailure_pending (.select file)) trivial,
      Frame.refl index db, hdb⟩

theorem Replica.Sound.inserted
    (h : (⟨files, .inserting file rest, connection⟩ : Replica).Sound db index)
    (hdb : db.Sound catalogs) (halive : connection.alive = true) :
    KeptByStatement catalogs db index ⟨files, .inserting file rest, connection⟩ (.insert file) := by
  obtain ⟨hnew, sql, htx⟩ := h.writing halive
  have hholder : db.holder = some index := h.held halive rfl
  have hpending : connection.pending = [.script file sql] := by
    rw [Connection.pending, htx]
    rfl
  rw [KeptByStatement]
  by_cases hledger : db.hasLedger = true
  · have hexecute : db.execute index connection (.insert file)
        = (db, connection.write (.version file), .ok) := by
      simp [Db.execute, hledger, hnew, hpending]
    rw [hexecute]
    refine ⟨.of_held halive rfl hholder (.inr ⟨hnew, sql, ?_⟩) h.progress, Frame.refl index db, hdb⟩
    show connection.tx.map (· ++ [.version file]) = some [.script file sql, .version file]
    rw [htx]
    rfl
  · have hexecute : db.execute index connection (.insert file)
        = (db, connection.dropped, .error) := by
      simp [Db.execute, hledger]
    rw [hexecute]
    exact ⟨.of_held halive rfl hholder (connection.afterFailure_pending (.insert file)) trivial,
      Frame.refl index db, hdb⟩

theorem Replica.Sound.committed
    (h : (⟨files, .committing file rest, connection⟩ : Replica).Sound db index)
    (hdb : db.Sound catalogs) (hfiles : files ∈ catalogs) (halive : connection.alive = true) :
    KeptByStatement catalogs db index ⟨files, .committing file rest, connection⟩ .commit := by
  obtain ⟨hsound, hframe, hmem⟩ := hdb.commit h hfiles rfl halive
  obtain ⟨before, hsplit, hbefore⟩ := h.progress
  refine ⟨?_, hframe, hsound⟩
  have hsplit' : files = (before ++ [file]) ++ rest := by
    rw [List.append_assoc]
    exact hsplit
  have hbefore' : before ++ [file] ⊆ (db.commit connection).ledger :=
    List.append_subset.mpr ⟨List.Subset.trans hbefore hframe.ledger,
      fun version hversion => List.mem_singleton.mp hversion ▸ hmem⟩
  refine .files ?_ rfl halive hsplit' hbefore'
  show (db.commit connection).holder = some index
  rw [Db.commit_holder]
  exact h.held halive rfl

end

/-- **A statement succeeds.** -/
theorem Replica.Sound.executed (h : replica.Sound db index) (hdb : db.Sound catalogs)
    (hfiles : replica.files ∈ catalogs) (halive : replica.connection.alive = true)
    {request : Request} (hrequest : replica.phase.request = some request)
    (hfree : request = .lock → db.holder = none) (hstatement : request.isStatement = true) :
    KeptByStatement catalogs db index replica request := by
  obtain ⟨files, phase, connection⟩ := replica
  have hheld := h.held halive
  have hwriting := h.writing halive
  have hprogress := h.progress
  cases phase with
  | connecting _ =>
    cases hrequest
    cases hstatement
  | reading _ _ =>
    cases hrequest
    cases hstatement
  | releasing _ _ =>
    cases hrequest
    cases hstatement
  | ended _ => cases hrequest
  | locking todo =>
    cases hrequest
    refine ⟨.of_held halive rfl rfl hwriting hprogress, ⟨?_, ?_, ?_⟩, ?_⟩
    · intro other hother
      rw [hfree rfl]
      refine iff_of_false (fun hsome => ?_) (Option.some_ne_none other).symm
      exact hother (Option.some.inj hsome).symm
    · exact List.Subset.refl _
    · exact fun _ => rfl
    · exact ⟨hdb.executed, hdb.nodup, hdb.order⟩
  | creating todo =>
    cases hrequest
    refine ⟨?_, ⟨fun _ _ => Iff.rfl, List.Subset.refl _, fun _ => rfl⟩,
      ⟨hdb.executed, hdb.nodup, hdb.order⟩⟩
    have hsplit : files = [] ++ todo := hprogress.symm
    exact .files (hheld rfl) hwriting halive hsplit (List.nil_subset _)
  | beginning file rest =>
    cases hrequest
    exact ⟨.of_held halive rfl (hheld rfl) rfl hprogress, Frame.refl index db, hdb⟩
  | selecting file rest =>
    cases hrequest
    exact h.selected hdb halive
  | scripting file rest sql =>
    cases hrequest
    obtain ⟨htx, hnew⟩ := hwriting
    refine ⟨.of_held halive rfl (hheld rfl) ⟨hnew, sql, ?_⟩ hprogress,
      Frame.refl index db, hdb⟩
    show connection.tx.map (· ++ [.script file sql]) = some [.script file sql]
    rw [htx]
    rfl
  | inserting file rest =>
    cases hrequest
    exact h.inserted hdb halive
  | committing file rest =>
    cases hrequest
    exact h.committed hdb hfiles halive
  | rollingBack file =>
    cases hrequest
    exact ⟨.of_held halive rfl (hheld rfl) ⟨rfl, fun _ => rfl⟩ trivial,
      Frame.refl index db, hdb⟩
  | unlocking error destroy =>
    cases hrequest
    have hexecute : db.execute index connection .unlock
        = (db.free index, connection, .unlocked true) := by
      simp [Db.execute, hheld rfl]
    rw [KeptByStatement, hexecute]
    refine ⟨.of_alive halive ?_ (fun _ => db.free_holder index) hwriting ?_,
      (Frame.refl index db).free, hdb.free index⟩
    · intro hlocked
      cases destroy <;> cases hlocked
    · show (Phase.releasing error destroy).Progress files (db.free index).ledger
      rw [Db.free_ledger]
      cases error <;> exact hprogress

/-- **A connection is lost**, and with it the lock, whether or not a commit was carried out. -/
theorem Replica.Sound.lost (h : replica.Sound db index) (hdb : db.Sound catalogs)
    (hfiles : replica.files ∈ catalogs) (halive : replica.connection.alive = true)
    {request : Request} (hrequest : replica.phase.request = some request) (applied : Bool) :
    Kept catalogs db
      ((if request = .commit ∧ applied = true then db.commit replica.connection else db).free index)
      index (replica.answered .closed .error) := by
  have hdead : ∀ db' : Db, db.ledger ⊆ db'.ledger →
      (replica.answered .closed .error).Sound (db'.free index) index := by
    intro db' hmore
    refine .of_dead rfl rfl (db'.free_holder index) ?_
    rw [Db.free_ledger]
    exact h.progress.error.mono hmore
  by_cases hcommit : request = .commit ∧ applied = true
  · rw [if_pos hcommit]
    obtain ⟨file, rest, hphase⟩ : ∃ file rest, replica.phase = .committing file rest := by
      rw [hcommit.1] at hrequest
      obtain ⟨files, phase, connection⟩ := replica
      cases phase <;> cases hrequest
      exact ⟨_, _, rfl⟩
    obtain ⟨hsound, hframe, -⟩ := hdb.commit h hfiles hphase halive
    exact ⟨hdead _ hframe.ledger, hframe.free, hsound.free index⟩
  · rw [if_neg hcommit]
    exact ⟨hdead db (List.Subset.refl _), (Frame.refl index db).free, hdb.free index⟩

/-- A dead connection answers with an error only. -/
theorem Replica.Sound.dead (h : replica.Sound db index) (hdb : db.Sound catalogs)
    (hdead : replica.connection.alive = false) :
    Kept catalogs db db index (replica.answered replica.connection .error) :=
  ⟨.of_dead hdead (h.closed hdead).1 (h.closed hdead).2 h.progress.error, Frame.refl index db, hdb⟩

theorem Replica.Sound.query (h : replica.Sound db index) (hdb : db.Sound catalogs)
    (hfiles : replica.files ∈ catalogs) (halive : replica.connection.alive = true)
    {request : Request} (hrequest : replica.phase.request = some request) (reply : Reply)
    (hwaits : ¬ Waits db replica reply) (hstatement : request.isStatement = true) :
    Kept catalogs db (db.query index replica.connection request reply).1 index
      (replica.answered (db.query index replica.connection request reply).2.1
        (db.query index replica.connection request reply).2.2) := by
  rw [Db.query]
  cases houtcome : reply.outcome with
  | done =>
    refine h.executed hdb hfiles halive hrequest (fun hlock => ?_) hstatement
    by_contra hheld
    exact hwaits ⟨hlock ▸ hrequest, houtcome, halive, hheld⟩
  | failed =>
    exact ⟨h.failed halive hrequest hstatement, Frame.refl index db, hdb⟩
  | lost => exact h.lost hdb hfiles halive hrequest reply.applied

/-- **One answer** keeps the replica and the ledger, and leaves the others alone. -/
theorem Replica.Sound.served (h : replica.Sound db index) (hdb : db.Sound catalogs)
    (hfiles : replica.files ∈ catalogs) {request : Request}
    (hrequest : replica.phase.request = some request) (reply : Reply)
    (hwaits : ¬ Waits db replica reply) :
    Kept catalogs db (serve db index replica.connection request reply).1 index
      (replica.answered (serve db index replica.connection request reply).2.1
        (serve db index replica.connection request reply).2.2) := by
  have hquery : request.isStatement = true →
      Kept catalogs db
        (if replica.connection.alive then db.query index replica.connection request reply
          else (db, replica.connection, .error)).1 index
        (replica.answered
          (if replica.connection.alive then db.query index replica.connection request reply
            else (db, replica.connection, .error)).2.1
          (if replica.connection.alive then db.query index replica.connection request reply
            else (db, replica.connection, .error)).2.2) := by
    intro hstatement
    cases halive : replica.connection.alive with
    | false => exact h.dead hdb halive
    | true => exact h.query hdb hfiles halive hrequest reply hwaits hstatement
  cases request with
  | connect =>
    obtain ⟨files, phase, connection⟩ := replica
    cases phase <;> cases hrequest
    have hdead : connection.alive = false := by
      by_contra halive
      exact h.writing ((Bool.not_eq_false _).mp halive)
    by_cases hdone : reply.outcome = .done
    · rw [serve, if_pos hdone]
      exact ⟨.of_free rfl rfl (h.closed hdead).2 rfl h.progress,
        Frame.refl index db, hdb⟩
    · rw [serve, if_neg hdone]
      exact h.dead hdb hdead
  | read file =>
    obtain ⟨files, phase, connection⟩ := replica
    cases phase <;> cases hrequest
    by_cases hdone : reply.outcome = .done
    · rw [serve, if_pos hdone]
      refine ⟨?_, Frame.refl index db, hdb⟩
      refine ⟨h.closed, h.held, fun _ hfree => ?_, h.writing, h.progress⟩
      cases hfree
    · rw [serve, if_neg hdone]
      refine ⟨⟨h.closed, h.held, fun _ hfree => ?_, fun halive => ?_, trivial⟩,
        Frame.refl index db, hdb⟩
      · cases hfree
      · exact Connection.pending_eq_nil (.inr (h.writing halive).1)
  | release destroy =>
    obtain ⟨files, phase, connection⟩ := replica
    cases phase <;> cases hrequest
    cases destroy with
    | true =>
      refine ⟨.of_dead rfl rfl (db.free_holder index) ?_, (Frame.refl index db).free,
        hdb.free index⟩
      show Phase.Progress files (db.free index).ledger _
      rw [Db.free_ledger]
      exact h.progress.error
    | false =>
      refine ⟨⟨h.closed, fun _ hheld => ?_, h.free, fun halive => ?_, h.progress.error⟩,
        Frame.refl index db, hdb⟩
      · cases hheld
      · exact (h.writing halive).2 rfl
  | _ => exact hquery rfl

end

/-! ### All replicas -/

structure Cluster.Sound (cluster : Cluster) : Prop where
  db : cluster.db.Sound (cluster.replicas.map Replica.files)
  replicas : ∀ (index : ℕ) (replica : Replica), cluster.replicas[index]? = some replica →
    replica.Sound cluster.db index
  holder : ∀ index, cluster.db.holder = some index → index < cluster.replicas.length

theorem Cluster.Sound.start {cluster : Cluster} (h : cluster.Sound) (directory : Directory) :
    (cluster.step (.start directory)).Sound := by
  refine ⟨⟨h.db.executed, h.db.nodup, ?_⟩, fun index replica hget => ?_, fun index hheld => ?_⟩
  · intro before file after heq
    obtain ⟨files, hfiles, hrest⟩ := h.db.order before file after heq
    refine ⟨files, ?_, hrest⟩
    show files ∈ (cluster.replicas ++ [_]).map Replica.files
    rw [List.map_append]
    exact List.mem_append_left _ hfiles
  · rcases lt_or_ge index cluster.replicas.length with hlt | hge
    · apply h.replicas index replica
      rw [← hget]
      exact (List.getElem?_append_left hlt).symm
    · have hnew : index = cluster.replicas.length := by
        have hlength := (List.getElem?_eq_some_iff.mp hget).1
        rw [Cluster.step, List.length_append, List.length_singleton] at hlength
        omega
      subst hnew
      rw [Cluster.step, List.getElem?_concat_length] at hget
      cases hget
      have hfree : cluster.db.holder ≠ some cluster.replicas.length :=
        fun hheld => absurd (h.holder _ hheld) (lt_irrefl _)
      refine ⟨fun _ => ⟨rfl, hfree⟩, fun halive => ?_, fun halive => ?_, fun halive => ?_, rfl⟩
        <;> cases halive
  · have hlt := h.holder index hheld
    rw [Cluster.step, List.length_append]
    omega

theorem Cluster.Sound.answer {cluster : Cluster} (h : cluster.Sound) (index : ℕ) (reply : Reply) :
    (cluster.step (.answer index reply)).Sound := by
  rw [Cluster.step]
  cases hget : cluster.replicas[index]? with
  | none => exact h
  | some replica =>
    cases hrequest : replica.phase.request with
    | none =>
      simp only [hrequest]
      exact h
    | some request =>
      simp only [hrequest]
      by_cases hwaits : Waits cluster.db replica reply
      · rw [if_pos hwaits]
        exact h
      · rw [if_neg hwaits]
        have hlt : index < cluster.replicas.length := (List.getElem?_eq_some_iff.mp hget).1
        have hfiles : replica.files ∈ cluster.replicas.map Replica.files :=
          List.mem_map_of_mem (List.mem_of_getElem? hget)
        obtain ⟨hreplica, hframe, hdb⟩ :=
          (h.replicas index replica hget).served h.db hfiles hrequest reply hwaits
        have hcatalogs : ∀ replica' : Replica, replica'.files = replica.files →
            (cluster.replicas.set index replica').map Replica.files
              = cluster.replicas.map Replica.files := by
          intro replica' hsame
          refine List.ext_getElem? fun i => ?_
          rw [List.map_set, List.getElem?_set, hsame]
          split
          · rename_i heq
            subst heq
            rw [List.length_map, if_pos hlt, List.getElem?_map, hget]
            rfl
          · rfl
        refine ⟨?_, fun other replica' hother => ?_, fun other hheld => ?_⟩
        · show Db.Sound ((cluster.replicas.set index (replica.answered _ _)).map Replica.files) _
          rw [hcatalogs (replica.answered _ _) rfl]
          exact hdb
        · by_cases hne : other = index
          · subst hne
            have hself : some (replica.answered _ _) = some replica' :=
              (List.getElem?_set_self hlt).symm.trans hother
            cases hself
            exact hreplica
          · have hget' : cluster.replicas[other]? = some replica' :=
              (List.getElem?_set_ne (Ne.symm hne)).symm.trans hother
            exact (h.replicas other replica' hget').frame hframe hne
        · show other < (cluster.replicas.set index (replica.answered _ _)).length
          rw [List.length_set]
          by_cases hne : other = index
          · rw [hne]
            exact hlt
          · exact h.holder other ((hframe.holder other hne).mp hheld)

theorem Cluster.Sound.exec (ops : List Op) : (Runs.exec Cluster.step .empty ops).Sound := by
  have hempty : Cluster.empty.Sound := by
    refine ⟨⟨rfl, List.nodup_nil, fun before file after heq => ?_⟩, fun index replica hget => ?_,
      fun _ hheld => by cases hheld⟩
    · cases before <;> cases heq
    · cases hget
  refine Runs.exec_invariant (fun cluster op h => ?_) hempty ops
  cases op with
  | start directory => exact h.start directory
  | answer index reply => exact h.answer index reply

/-! ### What a run of replicas comes to -/

/-- Versions in the order of one directory, if all are of it. -/
theorem InOrder.starts {catalogs : List (List File)} {ledger files : List File}
    (h : InOrder catalogs ledger) (hledger : ledger.Nodup) (hfiles : files.Nodup)
    (hcatalogs : ∀ catalog ∈ catalogs, catalog = files) : ledger <+: files := by
  induction ledger using List.reverseRecOn with
  | nil => exact List.nil_prefix
  | append_singleton before file ih =>
    have hbefore : before <+: files := by
      refine ih (fun front version back heq => ?_) (List.nodup_append.mp hledger).1
      refine h front version (back ++ [file]) ?_
      rw [heq, List.append_assoc, List.cons_append]
    have hnew : file ∉ before := fun hmem =>
      (List.nodup_append.mp hledger).2.2 file hmem file List.mem_cons_self rfl
    obtain ⟨catalog, hcatalog, earlier, later, hsplit, hearlier⟩ := h before file [] rfl
    rw [hcatalogs catalog hcatalog] at hsplit
    -- the versions before the new one are all that is in front of it in the directory
    have hsame : earlier = before := by
      have hfront : earlier <+: files := hsplit ▸ List.prefix_append _ _
      have hnodup : earlier.Nodup := hfiles.sublist hfront.sublist
      rcases List.prefix_or_prefix_of_prefix hfront hbefore with hle | hle
      · obtain ⟨rest, rfl⟩ := hle
        cases rest with
        | nil => rw [List.append_nil]
        | cons next rest =>
          exfalso
          obtain ⟨tail, htail⟩ := hbefore
          rw [hsplit, List.append_assoc, List.append_cancel_left_eq] at htail
          cases htail
          exact hnew (List.mem_append_right _ List.mem_cons_self)
      · refine (hle.eq_of_length_le ?_).symm
        exact (hnodup.subperm hearlier).length_le
    subst hsame
    rw [hsplit]
    exact ⟨later, by rw [List.append_assoc, List.cons_append, List.nil_append]⟩

/-- What is applied: every version with its script, once and in order; all of a directory by a run
    that has returned; and a part of it from the front, if all replicas have the same. -/
structure Applied (cluster : Cluster) : Prop where
  executed : cluster.db.executed.map Prod.fst = cluster.db.ledger
  once : cluster.db.ledger.Nodup
  order : InOrder (cluster.replicas.map Replica.files) cluster.db.ledger
  complete : ∀ replica ∈ cluster.replicas, replica.phase = .ended none →
    replica.files ⊆ cluster.db.ledger
  agreed : ∀ directory, (∀ replica ∈ cluster.replicas, replica.files = sqlFiles directory) →
    cluster.db.ledger <+: sqlFiles directory

/-- **Every migration once, in order.**  Replicas are started at any time with any directories, and
    their statements are interleaved in any way; statements fail, connections are lost, and commits
    are carried out without an answer. -/
theorem migrations_in_order (ops : List Op) : Applied (Runs.exec Cluster.step .empty ops) := by
  have h := Cluster.Sound.exec ops
  refine ⟨h.db.executed, h.db.nodup, h.db.order, fun replica hmem hended => ?_,
    fun directory hsame => ?_⟩
  · obtain ⟨index, hget⟩ := List.mem_iff_getElem?.mp hmem
    have hprogress := (h.replicas index replica hget).progress
    rw [hended] at hprogress
    exact hprogress
  · refine h.db.order.starts h.db.nodup (nodup_sqlFiles directory) fun catalog hcatalog => ?_
    obtain ⟨replica, hreplica, rfl⟩ := List.mem_map.mp hcatalog
    exact hsame replica hreplica

/-- The answer to the first commit is lost; the other replica waits for the lock and goes on. -/
example :
    (Runs.exec Cluster.step .empty
      (.start ⟨["002_b.sql", "README.md", "001_a.sql"], by decide⟩
        :: .start ⟨["001_a.sql", "002_b.sql"], by decide⟩
        :: (List.replicate 8 (.answer 0 ⟨.done, false, "CREATE TABLE a ()"⟩)
          ++ List.replicate 3 (.answer 1 ⟨.done, false, ""⟩)
          ++ .answer 0 ⟨.lost, true, ""⟩
          :: List.replicate 13 (.answer 1 ⟨.done, false, "CREATE TABLE b ()"⟩)))).db
      = ⟨none, true, ["001_a.sql", "002_b.sql"],
        [("001_a.sql", "CREATE TABLE a ()"), ("002_b.sql", "CREATE TABLE b ()")]⟩ := by
  decide +kernel

/-- One replica writes at a time, and has the lock; a run that has ended has neither the lock nor an
    open transaction, so that the lock is with one that goes on. -/
structure Exclusive (cluster : Cluster) : Prop where
  writing : ∀ (index : ℕ) (replica : Replica), cluster.replicas[index]? = some replica →
    replica.connection.pending ≠ [] → cluster.db.holder = some index
  ended : ∀ (index : ℕ) (replica : Replica) (result : Option MigrationError),
    cluster.replicas[index]? = some replica → replica.phase = .ended result →
    cluster.db.holder ≠ some index ∧ replica.connection.tx = none
  holder : ∀ index, cluster.db.holder = some index → ∃ replica,
    cluster.replicas[index]? = some replica ∧ replica.connection.alive = true
      ∧ ∀ result, replica.phase ≠ .ended result

theorem Replica.Sound.writes {db : Db} {index : ℕ} {replica : Replica} (h : replica.Sound db index)
    (hpending : replica.connection.pending ≠ []) : db.holder = some index := by
  cases halive : replica.connection.alive with
  | false =>
    exact absurd (Connection.pending_eq_nil (.inl (h.closed halive).1)) hpending
  | true =>
    have hwriting := h.writing halive
    have hheld := h.held halive
    obtain ⟨files, phase, connection⟩ := replica
    cases phase with
    | connecting _ => exact hwriting.elim
    | locking _ => exact absurd (Connection.pending_eq_nil (.inl hwriting)) hpending
    | ended _ => exact absurd (Connection.pending_eq_nil (.inl hwriting)) hpending
    | releasing _ _ => exact absurd hwriting.1 hpending
    | _ => exact hheld rfl

/-- **One at a time.**  Whatever fails on the way, uncommitted scripts are those of the connection
    with the lock, and no run that has ended keeps the lock from the others. -/
theorem migrations_exclusive (ops : List Op) : Exclusive (Runs.exec Cluster.step .empty ops) := by
  have h := Cluster.Sound.exec ops
  refine ⟨fun index replica hget hpending => (h.replicas index replica hget).writes hpending,
    fun index replica result hget hended => ?_, fun index hheld => ?_⟩
  · have hreplica := h.replicas index replica hget
    cases halive : replica.connection.alive with
    | false => exact ⟨(hreplica.closed halive).2, (hreplica.closed halive).1⟩
    | true =>
      have hwriting := hreplica.writing halive
      rw [hended] at hwriting
      exact ⟨hreplica.free halive (by rw [hended]; rfl), hwriting⟩
  · obtain ⟨replica, hget⟩ : ∃ replica, _ = some replica :=
      ⟨_, List.getElem?_eq_getElem (h.holder index hheld)⟩
    have hreplica := h.replicas index replica hget
    have halive : replica.connection.alive = true := by
      by_contra hdead
      exact (hreplica.closed ((Bool.not_eq_true _).mp hdead)).2 hheld
    refine ⟨replica, hget, halive, fun result hended => ?_⟩
    exact hreplica.free halive (by rw [hended]; rfl) hheld

end ComposeBastion.Migrations
