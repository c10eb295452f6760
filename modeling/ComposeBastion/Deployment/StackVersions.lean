import ComposeBastion.Jobs.Model
import ComposeBastion.Lib.Serial
import Mathlib.Logic.Relation

namespace ComposeBastion.StackVersions

open Serial

/-!
# Versions of a Compose stack

`services/stackVersions.ts` and its callers: every change of a stack is recorded as a version, with
the number after the highest one.  All transactions that write a stack or its versions hold the
row lock of the stack (`SELECT … FOR UPDATE`), so they are transactions of `Serial` with the stack
as their key.

* `recordStackVersion` — the statements that allocate, insert and publish a version;
* `StackEdit`, `StackRequest` — the transactions that use them, and the one that removes a stack;
* `Numbered` — the versions are numbered from one without gaps, and the current one is among them;
* `Extends` — versions are only added;
* `diffText` — the differences between two versions.
-/

/-! ### Rows -/

/-- `StackVersionSource`. -/
inductive StackVersionSource
  | ui | catalog | github | hostFiles | rollback | deploy | proxyLabels
  deriving DecidableEq, Repr

/-- A row of `compose_stacks`, as far as its versions are concerned. -/
structure StackRow where
  composeYaml : String
  env : String
  sourceWorkingDir : Option String
  sourceComposePath : Option String
  currentVersionId : Option Id
  deriving DecidableEq, Repr

/-- A row of `compose_stack_versions`. -/
structure StackVersion where
  id : Id
  versionNumber : ℕ
  composeYaml : String
  env : String
  source : StackVersionSource
  note : Option String
  createdBy : Option Id
  deriving DecidableEq, Repr

/-- A stack and its versions, in the order of their insertion. -/
structure StackDb where
  stack : Option StackRow
  versions : List StackVersion
  deriving DecidableEq, Repr

/-- `StackVersionInput`. -/
structure StackVersionInput where
  composeYaml : String
  env : String
  source : StackVersionSource
  note : Option String
  createdBy : Option Id
  deriving DecidableEq, Repr

/-! ### Statements -/

/-- `COALESCE(MAX(version_number), 0) + 1`. -/
def nextVersionNumber (versions : List StackVersion) : ℕ :=
  (versions.map StackVersion.versionNumber).foldl max 0 + 1

def versionRow (id : Id) (versionNumber : ℕ) (input : StackVersionInput) : StackVersion where
  id := id
  versionNumber := versionNumber
  composeYaml := input.composeYaml
  env := input.env
  source := input.source
  note := input.note
  createdBy := input.createdBy

/-- The primary key or `UNIQUE (stack_id, version_number)` refuses the row. -/
def conflicts (versions : List StackVersion) (version : StackVersion) : Bool :=
  versions.any fun v => v.id = version.id || v.versionNumber = version.versionNumber

def insertVersion (version : StackVersion) (db : StackDb) : StackDb :=
  { db with versions := db.versions ++ [version] }

/-- An `UPDATE compose_stacks … WHERE id = $1`. -/
def updateStack (assign : StackRow → StackRow) (db : StackDb) : StackDb :=
  { db with stack := db.stack.map assign }

/-- `SET current_version_id = $2`. -/
def setCurrentVersion (id : Id) : StackDb → StackDb :=
  updateStack fun stack => { stack with currentVersionId := some id }

/-- `INSERT INTO compose_stack_versions`, and the statement after it. -/
def insertStatement (version : StackVersion) (next : Tx StackDb) : Tx StackDb :=
  .read fun db => if conflicts db.versions version then .rollback
    else .write (insertVersion version) next

/-- `recordStackVersionInTransaction`, with the id that it draws, and what comes after it. -/
def recordStackVersion (input : StackVersionInput) (id : Id) (next : Tx StackDb) : Tx StackDb :=
  .read fun db => match db.stack with
    -- "Compose stack not found"
    | none => .rollback
    | some _ =>
      .read fun db =>
        insertStatement (versionRow id (nextVersionNumber db.versions) input)
          (.write (setCurrentVersion id) next)

/-! ### Transactions -/

/-- What comes after the versions: the enqueueing of a job and the audit event, which may fail. -/
def finish (accepted : Bool) : Tx StackDb := if accepted then .commit else .rollback

/-- `lockComposeStackForMutation`, which refuses a stack with unfinished work. -/
def lockedStack (allowed : Bool) (next : StackRow → Tx StackDb) : Tx StackDb :=
  .read fun db => match db.stack with
    | none => .commit
    | some stack => if allowed then next stack else .rollback

/-- A stack is created with its first version. -/
def createStack (stack : StackRow) (input : StackVersionInput) (id : Id) (accepted : Bool) :
    Tx StackDb :=
  .read fun db => if db.stack.isSome then .rollback
    else .write (fun db => { db with stack := some { stack with currentVersionId := none } })
      (recordStackVersion input id (finish accepted))

/-- A stack is edited: its text is written, and then recorded. -/
def editStack (assign : StackRow → StackRow) (source : StackVersionSource) (note : Option String)
    (createdBy : Option Id) (id : Id) (allowed accepted : Bool) : Tx StackDb :=
  lockedStack allowed fun stack =>
    let edited := { assign stack with currentVersionId := stack.currentVersionId }
    .write (updateStack fun _ => edited)
      (recordStackVersion ⟨edited.composeYaml, edited.env, source, note, createdBy⟩ id
        (finish accepted))

/-- A deployment records what it deploys. -/
def snapshotStack (source : StackVersionSource) (note : Option String) (createdBy : Option Id)
    (id : Id) (allowed accepted : Bool) : Tx StackDb :=
  lockedStack allowed fun stack =>
    recordStackVersion ⟨stack.composeYaml, stack.env, source, note, createdBy⟩ id (finish accepted)

/-- `rollbackStackVersion`: `version` was read before the lock was taken, and `ids` are drawn. -/
def rollbackStackVersion (version : StackVersion) (note : Option String) (createdBy : Option Id)
    (ids : Id × Id) (allowed accepted : Bool) : Tx StackDb :=
  .read fun db => match db.stack with
    -- "Compose stack not found"
    | none => .rollback
    | some stack =>
      if !allowed then .rollback
      -- "Rollback is unavailable for folder-backed Compose stacks …"
      else if stack.sourceWorkingDir.any (· ≠ "") || stack.sourceComposePath.any (· ≠ "") then
        .rollback
      else
        recordStackVersion ⟨stack.composeYaml, stack.env, .rollback,
            some (note.getD ("Snapshot before rollback to v" ++ toString version.versionNumber)), createdBy⟩
          ids.1
          (.write (updateStack fun stack =>
              { stack with composeYaml := version.composeYaml, env := version.env })
            (recordStackVersion ⟨version.composeYaml, version.env, .rollback,
                some (note.getD ("Rolled back to v" ++ toString version.versionNumber)), createdBy⟩ ids.2
              (finish accepted)))

/-- `validateExistingVersion`. -/
def matchesIntent (version : StackVersion) (input : StackVersionInput) : Bool :=
  0 < version.versionNumber && version.composeYaml = input.composeYaml && version.env = input.env
    && version.source = input.source && version.note = input.note
    && version.createdBy = input.createdBy

/-- `finalizeComposeStackDeploymentIntent`: the stack is written with the text of the intent, and
    the intent's version is inserted, unless it is there from an earlier call. -/
def finalizeIntent (stack : StackRow) (input : StackVersionInput) (candidateVersionId : Id)
    (accepted : Bool) : Tx StackDb :=
  .write (fun db => { db with stack := some { stack with
      currentVersionId := db.stack.bind StackRow.currentVersionId } })
    (.read fun db => match db.versions.find? (·.id = candidateVersionId) with
      | some version =>
        if matchesIntent version input then
          .write (setCurrentVersion candidateVersionId) (finish accepted)
        else .rollback
      | none =>
        .read fun db =>
          insertStatement (versionRow candidateVersionId (nextVersionNumber db.versions) input)
            (.write (setCurrentVersion candidateVersionId) (finish accepted)))

/-- The writes of `finalizeDeploymentExecutionInTransaction`: the environment of the stack and of
    its current version is replaced. -/
def protectEnvironment (env : String) (accepted : Bool) : Tx StackDb :=
  .read fun db => match db.stack.bind StackRow.currentVersionId with
    -- "The completed remote deployment no longer matches its durable analysis."
    | none => .rollback
    | some current =>
      .write (updateStack fun stack => { stack with env := env })
        (.write (fun db => { db with versions := db.versions.map fun version =>
            if version.id = current then { version with env := env } else version })
          (finish accepted))

/-- `DELETE FROM compose_stacks`; the versions go with the stack. -/
def removeStack (allowed accepted : Bool) : Tx StackDb :=
  lockedStack allowed fun _ => .write (fun _ => ⟨none, []⟩) (finish accepted)

/-- A transaction on a stack that leaves it there. -/
inductive StackEdit
  | create (stack : StackRow) (input : StackVersionInput) (id : Id) (accepted : Bool)
  | edit (assign : StackRow → StackRow) (source : StackVersionSource) (note : Option String)
      (createdBy : Option Id) (id : Id) (allowed accepted : Bool)
  | snapshot (source : StackVersionSource) (note : Option String) (createdBy : Option Id) (id : Id)
      (allowed accepted : Bool)
  | rollback (version : StackVersion) (note : Option String) (createdBy : Option Id)
      (ids : Id × Id) (allowed accepted : Bool)
  | finalize (stack : StackRow) (input : StackVersionInput) (candidateVersionId : Id)
      (accepted : Bool)
  | protect (env : String) (accepted : Bool)

def StackEdit.tx : StackEdit → Tx StackDb
  | create stack input id accepted => createStack stack input id accepted
  | edit assign source note createdBy id allowed accepted =>
    editStack assign source note createdBy id allowed accepted
  | snapshot source note createdBy id allowed accepted =>
    snapshotStack source note createdBy id allowed accepted
  | rollback version note createdBy ids allowed accepted =>
    rollbackStackVersion version note createdBy ids allowed accepted
  | finalize stack input candidateVersionId accepted =>
    finalizeIntent stack input candidateVersionId accepted
  | protect env accepted => protectEnvironment env accepted

/-- A transaction on a stack. -/
inductive StackRequest
  | edit (stackId : Id) (request : StackEdit)
  | remove (stackId : Id) (allowed accepted : Bool)

/-- The transaction of a request, under the row lock of its stack. -/
def StackRequest.tx : StackRequest → Id × Tx StackDb
  | edit stackId request => (stackId, request.tx)
  | remove stackId allowed accepted => (stackId, removeStack allowed accepted)

/-! ### What a transaction can do -/

/-- A change of a stack within a transaction. -/
inductive StackStep (db : StackDb) : StackDb → Prop
  | text (stack : StackRow) (h : stack.currentVersionId = db.stack.bind StackRow.currentVersionId) :
    StackStep db { db with stack := some stack }
  | record (stack : StackRow) (version : StackVersion) (hstack : db.stack = some stack)
      (hnumber : version.versionNumber = nextVersionNumber db.versions)
      (hfresh : ∀ v ∈ db.versions, v.id ≠ version.id) :
    StackStep db ⟨some { stack with currentVersionId := some version.id }, db.versions ++ [version]⟩
  | publish (stack : StackRow) (version : StackVersion) (hstack : db.stack = some stack)
      (hmem : version ∈ db.versions) :
    StackStep db ⟨some { stack with currentVersionId := some version.id }, db.versions⟩
  | protect (env : String) (current : Id) :
    StackStep db ⟨db.stack.map fun stack => { stack with env := env },
      db.versions.map fun version =>
        if version.id = current then { version with env := env } else version⟩

/-- Some changes, one after the other. -/
abbrev Steps : StackDb → StackDb → Prop := Relation.ReflTransGen StackStep

/-- What is left of a transaction makes such changes only, or ends where it began. -/
def Proceeds (rest : Tx StackDb) : Prop := ∀ base view, Steps base view → Steps base (rest.run base view)

theorem proceeds_finish (accepted : Bool) : Proceeds (finish accepted) := by
  intro base view h
  cases accepted with
  | true => exact h
  | false => exact .refl

theorem proceeds_rollback : Proceeds .rollback := fun _ _ _ => .refl

theorem proceeds_commit : Proceeds .commit := fun _ _ h => h

theorem proceeds_write {f : StackDb → StackDb} {next : Tx StackDb} (hf : ∀ view, Steps view (f view))
    (h : Proceeds next) : Proceeds (.write f next) :=
  fun base view hview => h base (f view) (hview.trans (hf view))

theorem proceeds_read {next : StackDb → Tx StackDb} (h : ∀ view, Proceeds (next view)) :
    Proceeds (.read next) :=
  fun base view hview => h view base view hview

theorem proceeds_lockedStack {allowed : Bool} {next : StackRow → Tx StackDb}
    (h : ∀ stack, Proceeds (next stack)) : Proceeds (lockedStack allowed next) := by
  apply proceeds_read
  intro view
  cases view.stack with
  | none => exact proceeds_commit
  | some stack =>
    cases allowed with
    | true => exact h stack
    | false => exact proceeds_rollback

/-- The statements that insert a version and publish it are one change. -/
theorem steps_insert {base view : StackDb} {stack : StackRow} {version : StackVersion}
    {next : Tx StackDb} (hview : Steps base view) (hstack : view.stack = some stack)
    (hnumber : version.versionNumber = nextVersionNumber view.versions) (hnext : Proceeds next) :
    Steps base ((insertStatement version (.write (setCurrentVersion version.id) next)).run base view)
    := by
  simp only [insertStatement, Tx.run]
  split
  · exact .refl
  · rename_i hconflict
    simp only [conflicts, List.any_eq_true, Bool.or_eq_true, decide_eq_true_eq, not_exists,
      not_and, not_or] at hconflict
    have hrecord : StackStep view (setCurrentVersion version.id (insertVersion version view)) := by
      rw [setCurrentVersion, updateStack, insertVersion, hstack]
      exact .record stack version hstack hnumber fun v hv => (hconflict v hv).1
    exact hnext base _ (hview.tail hrecord)

theorem proceeds_recordStackVersion {input : StackVersionInput} {id : Id} {next : Tx StackDb}
    (h : Proceeds next) : Proceeds (recordStackVersion input id next) := by
  intro base view hview
  cases hstack : view.stack with
  | none =>
    simp only [recordStackVersion, Tx.run, hstack]
    exact .refl
  | some stack =>
    simp only [recordStackVersion, Tx.run, hstack]
    exact steps_insert hview hstack rfl h

theorem steps_updateStack {assign : StackRow → StackRow}
    (h : ∀ stack, (assign stack).currentVersionId = stack.currentVersionId) (view : StackDb) :
    Steps view (updateStack assign view) := by
  cases hstack : view.stack with
  | none =>
    have hsame : updateStack assign view = view := by
      rw [updateStack, hstack, Option.map_none, ← hstack]
    rw [hsame]
  | some stack =>
    rw [updateStack, hstack, Option.map_some]
    exact .single (.text _ (by rw [h, hstack]; rfl))

/-- **What an edit commits.** -/
theorem StackEdit.steps (request : StackEdit) (db : StackDb) : Steps db (request.tx.apply db) := by
  suffices h : Proceeds request.tx from h db db .refl
  cases request with
  | create stack input id accepted =>
    intro base view hview
    simp only [tx, createStack, Tx.run]
    cases hstack : view.stack with
    | some old => exact .refl
    | none =>
      have htext : StackStep view
          { view with stack := some { stack with currentVersionId := none } } :=
        .text _ (by rw [hstack]; rfl)
      exact proceeds_recordStackVersion (proceeds_finish accepted) base _ (hview.tail htext)
  | edit assign source note createdBy id allowed accepted =>
    intro base view hview
    cases hstack : view.stack with
    | none =>
      simp only [tx, editStack, lockedStack, Tx.run, hstack]
      exact hview
    | some stack =>
      simp only [tx, editStack, lockedStack, Tx.run, hstack]
      cases allowed with
      | false => exact .refl
      | true =>
        have htext : StackStep view (updateStack (fun _ =>
            { assign stack with currentVersionId := stack.currentVersionId }) view) := by
          rw [updateStack, hstack, Option.map_some]
          exact .text _ (by rw [hstack]; rfl)
        exact proceeds_recordStackVersion (proceeds_finish accepted) base _ (hview.tail htext)
  | snapshot source note createdBy id allowed accepted =>
    exact proceeds_lockedStack fun stack => proceeds_recordStackVersion (proceeds_finish accepted)
  | rollback version note createdBy ids allowed accepted =>
    apply proceeds_read
    intro view
    split
    · exact proceeds_rollback
    · split
      · exact proceeds_rollback
      · split
        · exact proceeds_rollback
        · apply proceeds_recordStackVersion
          refine proceeds_write ?_ (proceeds_recordStackVersion (proceeds_finish accepted))
          exact steps_updateStack fun _ => rfl
  | finalize stack input candidateVersionId accepted =>
    intro base view hview
    have htext : StackStep view { view with stack := some { stack with
        currentVersionId := view.stack.bind StackRow.currentVersionId } } := .text _ rfl
    simp only [tx, finalizeIntent, Tx.run]
    cases hfind : view.versions.find? (·.id = candidateVersionId) with
    | none => exact steps_insert (hview.tail htext) rfl rfl (proceeds_finish accepted)
    | some version =>
      have hid : version.id = candidateVersionId := by simpa using List.find?_some hfind
      simp only
      split
      · rw [← hid]
        exact proceeds_finish accepted base _ ((hview.tail htext).tail
          (.publish _ version rfl (List.mem_of_find?_eq_some hfind)))
      · exact .refl
  | protect env accepted =>
    intro base view hview
    simp only [tx, protectEnvironment, Tx.run]
    cases view.stack.bind StackRow.currentVersionId with
    | none => exact .refl
    | some current =>
      exact proceeds_finish accepted base _ (hview.tail (.protect env current))

/-! ### Numbers -/

/-- The versions are numbered from one without gaps, in the order of their insertion, and the
    current version of the stack is one of them. -/
structure Numbered (db : StackDb) : Prop where
  numbers : db.versions.map StackVersion.versionNumber = List.range' 1 db.versions.length
  ids : (db.versions.map StackVersion.id).Nodup
  current : ∀ stack ∈ db.stack, ∀ id ∈ stack.currentVersionId, ∃ v ∈ db.versions, v.id = id
  gone : db.stack = none → db.versions = []

theorem numbered_empty : Numbered ⟨none, []⟩ where
  numbers := rfl
  ids := List.nodup_nil
  current := by simp
  gone := fun _ => rfl

theorem foldl_max_range' (n : ℕ) : (List.range' 1 n).foldl max 0 = n := by
  induction n with
  | zero => rfl
  | succ n ih =>
    rw [List.range'_concat, List.foldl_append, ih]
    simp
    omega

/-- The highest number is that of the last version. -/
theorem Numbered.nextVersionNumber_eq {db : StackDb} (h : Numbered db) :
    nextVersionNumber db.versions = db.versions.length + 1 := by
  rw [nextVersionNumber, h.numbers, foldl_max_range']

theorem Numbered.step {db db' : StackDb} (h : Numbered db) (hstep : StackStep db db') :
    Numbered db' := by
  cases hstep with
  | text stack hcurrent =>
    refine ⟨h.numbers, h.ids, ?_, fun hnone => nomatch hnone⟩
    rintro _ ⟨⟩ id hid
    rw [hcurrent] at hid
    obtain ⟨old, hold, hid⟩ := Option.bind_eq_some_iff.mp hid
    exact h.current old hold id hid
  | record stack version hstack hnumber hfresh =>
    refine ⟨?_, ?_, ?_, fun hnone => nomatch hnone⟩
    · show (db.versions ++ [version]).map StackVersion.versionNumber
        = List.range' 1 (db.versions ++ [version]).length
      rw [List.map_append, List.map_singleton, h.numbers, hnumber, h.nextVersionNumber_eq,
        List.length_append, List.length_singleton, List.range'_concat]
      congr 2
      omega
    · show ((db.versions ++ [version]).map StackVersion.id).Nodup
      rw [List.map_append, List.map_singleton, List.nodup_append]
      refine ⟨h.ids, List.nodup_singleton _, ?_⟩
      intro id hid other hother heq
      obtain ⟨v, hv, rfl⟩ := List.mem_map.mp hid
      rw [List.mem_singleton] at hother
      exact hfresh v hv (heq.trans hother)
    · rintro _ ⟨⟩ id ⟨⟩
      exact ⟨version, by simp, rfl⟩
  | publish stack version hstack hmem =>
    refine ⟨h.numbers, h.ids, ?_, fun hnone => nomatch hnone⟩
    rintro _ ⟨⟩ id ⟨⟩
    exact ⟨version, hmem, rfl⟩
  | protect env current =>
    have hnumbers : ∀ version : StackVersion,
        (if version.id = current then { version with env := env } else version).versionNumber
          = version.versionNumber := by
      intro version
      split <;> rfl
    have hids : ∀ version : StackVersion,
        (if version.id = current then { version with env := env } else version).id = version.id := by
      intro version
      split <;> rfl
    refine ⟨?_, ?_, ?_, ?_⟩
    · simp only [List.map_map, Function.comp_def, hnumbers, List.length_map]
      exact h.numbers
    · simp only [List.map_map, Function.comp_def, hids]
      exact h.ids
    · intro stack hstack id hid
      obtain ⟨old, hold, rfl⟩ := Option.map_eq_some_iff.mp hstack
      obtain ⟨v, hv, rfl⟩ := h.current old hold id hid
      exact ⟨_, List.mem_map_of_mem hv, hids v⟩
    · intro hnone
      rw [h.gone (Option.map_eq_none_iff.mp hnone)]
      rfl

theorem Numbered.steps {db db' : StackDb} (h : Numbered db) (hsteps : Steps db db') :
    Numbered db' := by
  induction hsteps with
  | refl => exact h
  | tail _ hstep ih => exact ih.step hstep

theorem Numbered.apply {db : StackDb} (h : Numbered db) (request : StackRequest) :
    Numbered (request.tx.2.apply db) := by
  cases request with
  | edit stackId request => exact h.steps (request.steps db)
  | remove stackId allowed accepted =>
    simp only [StackRequest.tx, removeStack, lockedStack, Tx.apply, Tx.run]
    cases db.stack with
    | none => exact h
    | some stack =>
      cases allowed with
      | false => exact h
      | true =>
        cases accepted with
        | false => exact h
        | true => exact numbered_empty

/-- **Versions are numbered without gaps.**  In every interleaving of the statements of any number
    of transactions on stacks, with commits, rollbacks and lost connections anywhere, the committed
    versions of every stack are numbered 1, 2, 3, … in the order of their insertion, their ids are
    distinct, and the current version of the stack is one of them. -/
theorem stack_versions_numbered (ops : List (Op StackRequest)) (stackId : Id) :
    Numbered ((Runs.exec (Serial.step StackRequest.tx)
      (Serial.initial fun _ => ⟨none, []⟩) ops).db stackId) :=
  Serial.exec_invariant (I := fun _ => Numbered) (fun request _ h => h.apply request)
    (fun _ => numbered_empty) ops stackId

/-! ### Only additions -/

/-- A version without its environment, which `protectEnvironment` replaces. -/
def StackVersion.fixed (version : StackVersion) : StackVersion := { version with env := "" }

/-- The versions are still there, in their places, and new ones come after them. -/
def Extends (db db' : StackDb) : Prop :=
  db.versions.map StackVersion.fixed <+: db'.versions.map StackVersion.fixed

theorem extends_step {db db' : StackDb} (h : StackStep db db') : Extends db db' := by
  cases h with
  | text stack hcurrent => exact List.prefix_rfl
  | record stack version hstack hnumber hfresh =>
    show db.versions.map _ <+: (db.versions ++ [version]).map _
    rw [List.map_append]
    exact List.prefix_append _ _
  | publish stack version hstack hmem => exact List.prefix_rfl
  | protect env current =>
    have hfixed : ∀ version : StackVersion,
        (if version.id = current then { version with env := env } else version).fixed
          = version.fixed := by
      intro version
      split <;> rfl
    unfold Extends
    simp only [List.map_map, Function.comp_def, hfixed]
    exact List.prefix_rfl

theorem extends_steps {db db' : StackDb} (h : Steps db db') : Extends db db' := by
  induction h with
  | refl => exact List.prefix_rfl
  | tail _ hstep ih => exact ih.trans (extends_step hstep)

/-- **History is only added to.**  Between any two points of any interleaving of transactions that
    remove no stack, every version of a stack keeps its place, its number, its text and its
    author, and new versions come after it. -/
theorem stack_versions_extend (ops ops' : List (Op (Id × StackEdit))) (stackId : Id) :
    Extends
      ((Runs.exec (Serial.step fun r => (r.1, r.2.tx)) (Serial.initial fun _ => ⟨none, []⟩)
        ops).db stackId)
      ((Runs.exec (Serial.step fun r => (r.1, r.2.tx)) (Serial.initial fun _ => ⟨none, []⟩)
        (ops ++ ops')).db stackId) :=
  Serial.exec_preorder (R := fun _ => Extends) (fun _ _ => List.prefix_rfl)
    (fun _ _ _ _ h h' => h.trans h') (fun request db => extends_steps (request.2.steps db)) _
    ops ops' stackId

/-! ### Rolling back -/

/-- Ids that no version has. -/
def Fresh (db : StackDb) (ids : Id × Id) : Prop :=
  ids.1 ≠ ids.2 ∧ ∀ v ∈ db.versions, v.id ≠ ids.1 ∧ v.id ≠ ids.2

/-- The stack has no folder of its own on the host. -/
def NotFolderBacked (stack : StackRow) : Prop :=
  (stack.sourceWorkingDir.any (· ≠ "") || stack.sourceComposePath.any (· ≠ "")) = false

/-- A version under a new id gets the next number. -/
theorem run_recordStackVersion {base view : StackDb} {stack : StackRow} (h : Numbered view)
    (hstack : view.stack = some stack) {id : Id} (hid : ∀ v ∈ view.versions, v.id ≠ id)
    (input : StackVersionInput) (next : Tx StackDb) :
    (recordStackVersion input id next).run base view
      = next.run base ⟨some { stack with currentVersionId := some id },
          view.versions ++ [versionRow id (view.versions.length + 1) input]⟩ := by
  have hnumber : ∀ v ∈ view.versions, v.versionNumber ≠ view.versions.length + 1 := by
    intro v hv heq
    have hmem : v.versionNumber ∈ List.range' 1 view.versions.length := by
      rw [← h.numbers]
      exact List.mem_map_of_mem hv
    rw [List.mem_range'_1] at hmem
    omega
  have hconflicts : conflicts view.versions
      (versionRow id (view.versions.length + 1) input) = false := by
    rw [conflicts, List.any_eq_false]
    intro v hv hconflict
    rcases Bool.or_eq_true _ _ ▸ hconflict with heq | heq
    · exact hid v hv (of_decide_eq_true heq)
    · exact hnumber v hv (of_decide_eq_true heq)
  simp only [recordStackVersion, insertStatement, Tx.run, hstack, h.nextVersionNumber_eq,
    hconflicts, Bool.false_eq_true, if_false]
  rw [setCurrentVersion, updateStack, insertVersion, hstack, Option.map_some]

/-- What a rollback leaves behind: the stack with the text of the version, a version that keeps
    the text the stack had, and one with the text it has now. -/
theorem rollback_apply {db : StackDb} {stack : StackRow} (h : Numbered db)
    (hstack : db.stack = some stack) (hfolder : NotFolderBacked stack) {ids : Id × Id}
    (hids : Fresh db ids) (version : StackVersion) (note : Option String)
    (createdBy : Option Id) :
    (rollbackStackVersion version note createdBy ids true true).apply db
      = ⟨some { stack with
            composeYaml := version.composeYaml
            env := version.env
            currentVersionId := some ids.2 },
          db.versions
            ++ [versionRow ids.1 (db.versions.length + 1) ⟨stack.composeYaml, stack.env, .rollback,
                some (note.getD ("Snapshot before rollback to v" ++ toString version.versionNumber)),
                createdBy⟩]
            ++ [versionRow ids.2 (db.versions.length + 2) ⟨version.composeYaml, version.env,
                .rollback, some (note.getD ("Rolled back to v" ++ toString version.versionNumber)),
                createdBy⟩]⟩ := by
  obtain ⟨hne, hfresh⟩ := hids
  have hrun : ∀ next base, (recordStackVersion ⟨stack.composeYaml, stack.env, .rollback,
      some (note.getD ("Snapshot before rollback to v" ++ toString version.versionNumber)),
      createdBy⟩ ids.1 next).run base db = _ := fun next base =>
    run_recordStackVersion h hstack (fun v hv => (hfresh v hv).1) _ next
  simp only [NotFolderBacked] at hfolder
  simp only [rollbackStackVersion, Tx.apply, Tx.run, hstack, hfolder, Bool.not_true,
    Bool.false_eq_true, if_false]
  rw [hrun]
  simp only [Tx.run, updateStack, Option.map_some]
  -- the second version is recorded on what the first one left
  have hsteps : Steps db ⟨some { stack with
      composeYaml := version.composeYaml, env := version.env, currentVersionId := some ids.1 },
      db.versions ++ [versionRow ids.1 (db.versions.length + 1) ⟨stack.composeYaml, stack.env,
        .rollback,
        some (note.getD ("Snapshot before rollback to v" ++ toString version.versionNumber)),
        createdBy⟩]⟩ := by
    refine (Relation.ReflTransGen.single (.record stack (versionRow ids.1 (db.versions.length + 1)
      ⟨stack.composeYaml, stack.env, .rollback, some (note.getD ("Snapshot before rollback to v"
        ++ toString version.versionNumber)), createdBy⟩) hstack h.nextVersionNumber_eq.symm
        fun v hv => (hfresh v hv).1)).tail ?_
    exact .text _ rfl
  rw [run_recordStackVersion (h.steps hsteps) rfl ?_]
  · simp [finish, Tx.run]
  · intro v hv
    rcases List.mem_append.mp hv with hmem | hmem
    · exact (hfresh v hmem).2
    · rw [List.mem_singleton.mp hmem]
      exact hne

/-- The text of a stack. -/
def StackRow.content (stack : StackRow) : String × String := (stack.composeYaml, stack.env)

/-- **A rollback can be undone.**  It gives the stack the text of the version, and leaves a version
    behind to which the stack can be rolled back to have the text that it had before. -/
theorem rollback_undone {db : StackDb} {stack : StackRow} (h : Numbered db)
    (hstack : db.stack = some stack) (hfolder : NotFolderBacked stack) {ids : Id × Id}
    (hids : Fresh db ids) (version : StackVersion) (note : Option String)
    (createdBy : Option Id) :
    let after := (rollbackStackVersion version note createdBy ids true true).apply db
    after.stack.map StackRow.content = some (version.composeYaml, version.env)
    ∧ ∃ snapshot ∈ after.versions, ∀ note' createdBy' ids', Fresh after ids' →
      ((rollbackStackVersion snapshot note' createdBy' ids' true true).apply after).stack.map
        StackRow.content = some stack.content := by
  intro after
  have hafter : after = _ := rollback_apply h hstack hfolder hids version note createdBy
  have hnumbered : Numbered after :=
    h.steps ((StackEdit.rollback version note createdBy ids true true).steps db)
  refine ⟨by rw [hafter]; rfl, versionRow ids.1 (db.versions.length + 1) ⟨stack.composeYaml,
    stack.env, .rollback,
    some (note.getD ("Snapshot before rollback to v" ++ toString version.versionNumber)),
    createdBy⟩, by simp [hafter], ?_⟩
  intro note' createdBy' ids' hids'
  have hrolled : after.stack = some { stack with
      composeYaml := version.composeYaml, env := version.env, currentVersionId := some ids.2 } := by
    rw [hafter]
  rw [rollback_apply hnumbered hrolled hfolder hids']
  rfl

/-- A stack with its first version. -/
def firstStack : StackDb where
  stack := some ⟨"services:", "TAG=1", none, none, some "v1"⟩
  versions := [⟨"v1", 1, "services:", "TAG=1", .ui, some "Initial stack create", none⟩]

theorem numbered_firstStack : Numbered firstStack where
  numbers := rfl
  ids := by decide
  current := by
    rintro _ ⟨⟩ id ⟨⟩
    exact ⟨_, List.mem_cons_self, rfl⟩
  gone := fun hnone => nomatch hnone

theorem rollback_undone_firstStack :
    let after := (rollbackStackVersion ⟨"v1", 1, "services:", "TAG=0", .ui, none, none⟩ none none
      ("v2", "v3") true true).apply firstStack
    after.stack.map StackRow.content = some ("services:", "TAG=0")
    ∧ ∃ snapshot ∈ after.versions, ∀ note' createdBy' ids', Fresh after ids' →
      ((rollbackStackVersion snapshot note' createdBy' ids' true true).apply after).stack.map
        StackRow.content = some ("services:", "TAG=1") :=
  rollback_undone numbered_firstStack rfl rfl ⟨by decide, by decide⟩ _ none none

/-! ### Differences -/

/-- `DiffLine["type"]`. -/
inductive DiffType
  | add | remove | change
  deriving DecidableEq, Repr

structure DiffLine where
  type : DiffType
  line : ℕ
  text : String
  deriving DecidableEq, Repr

/-- One round of the loop of `diffText`, with the lines of both texts at `index`. -/
def diffLine (index : ℕ) (left right : Option String) : Option DiffLine :=
  if left = right then none
  else match left, right with
    | none, right => some ⟨.add, index + 1, right.getD ""⟩
    | some left, none => some ⟨.remove, index + 1, left⟩
    | some left, some right => some ⟨.change, index + 1, left ++ " -> " ++ right⟩

/-- `text.split("\n")`. -/
def textLines (text : String) : List String :=
  (text.toList.splitOn '\n').map String.ofList

def diffText (before after : String) : List DiffLine :=
  let beforeLines := textLines before
  let afterLines := textLines after
  (List.range (max beforeLines.length afterLines.length)).filterMap fun index =>
    diffLine index beforeLines[index]? afterLines[index]?

theorem line_diffLine {index : ℕ} {left right : Option String} {change : DiffLine}
    (h : diffLine index left right = some change) : change.line = index + 1 := by
  unfold diffLine at h
  split at h
  · cases h
  · split at h
    all_goals
      cases h
      rfl

/-- The changes of a line are found by its number. -/
theorem find_changes (f : ℕ → Option DiffLine)
    (hf : ∀ index change, f index = some change → change.line = index + 1) (n index : ℕ) :
    ((List.range n).filterMap f).find? (fun change => change.line = index + 1)
      = if index < n then f index else none := by
  induction n with
  | zero => rfl
  | succ n ih =>
    rw [List.range_succ, List.filterMap_append, List.find?_append, ih]
    by_cases hlt : index < n
    · rw [if_pos hlt, if_pos (by omega)]
      cases hindex : f index with
      | some change => rfl
      | none =>
        rw [Option.none_or, List.find?_eq_none]
        intro change hchange
        obtain ⟨i, hi, hsome⟩ := List.mem_filterMap.mp hchange
        rw [List.mem_singleton.mp hi] at hsome
        have hline := hf n change hsome
        simp only [decide_eq_true_eq]
        omega
    · rw [if_neg hlt, Option.none_or]
      by_cases heq : index = n
      · subst heq
        rw [if_pos (by omega)]
        cases hindex : f index with
        | none => simp [hindex]
        | some change => simp [hindex, hf index change hindex]
      · rw [if_neg (by omega), List.find?_eq_none]
        intro change hchange
        obtain ⟨i, hi, hsome⟩ := List.mem_filterMap.mp hchange
        rw [List.mem_singleton.mp hi] at hsome
        have hline := hf n change hsome
        simp only [decide_eq_true_eq]
        omega

theorem find_diffText (before after : String) (index : ℕ) :
    (diffText before after).find? (fun change => change.line = index + 1)
      = diffLine index (textLines before)[index]? (textLines after)[index]? := by
  rw [diffText, find_changes _ fun i change h => line_diffLine h]
  split
  · rfl
  · rename_i hge
    have hlength := not_lt.mp hge
    rw [List.getElem?_eq_none (by omega), List.getElem?_eq_none (by omega)]
    rfl

theorem append_cancel_left {front back back' : String} (h : front ++ back = front ++ back') :
    back = back' := by
  have hlist := congrArg String.toList h
  rw [String.toList_append, String.toList_append] at hlist
  exact String.toList_inj.mp (List.append_cancel_left hlist)

/-- The change of a line and the line before it tell the line after it. -/
theorem diffLine_inj {index : ℕ} {left right right' : Option String}
    (h : diffLine index left right = diffLine index left right') : right = right' := by
  cases left with
  | none =>
    cases right with
    | none =>
      cases right' with
      | none => rfl
      | some r' => simp [diffLine] at h
    | some r =>
      cases right' with
      | none => simp [diffLine] at h
      | some r' => simpa [diffLine] using h
  | some l =>
    cases right with
    | none =>
      cases right' with
      | none => rfl
      | some r' =>
        by_cases hr' : l = r'
        · simp [diffLine, hr'] at h
        · simp [diffLine, hr'] at h
    | some r =>
      cases right' with
      | none =>
        by_cases hr : l = r
        · simp [diffLine, hr] at h
        · simp [diffLine, hr] at h
      | some r' =>
        by_cases hr : l = r
        · subst hr
          by_cases hr' : l = r'
          · rw [hr']
          · simp [diffLine, hr'] at h
        · by_cases hr' : l = r'
          · subst hr'
            simp [diffLine, hr] at h
          · simp only [diffLine, Option.some.injEq, hr, hr', if_false, DiffLine.mk.injEq,
              true_and] at h
            rw [append_cancel_left h]

theorem textLines_inj {text text' : String} (h : textLines text = textLines text') :
    text = text' := by
  have hlines := (List.map_injective_iff.mpr fun _ _ => String.ofList_inj.mp) h
  have hlist := congrArg (['\n'].intercalate ·) hlines
  rw [List.intercalate_splitOn, List.intercalate_splitOn] at hlist
  exact String.toList_inj.mp hlist

/-- **The differences are complete.**  The text before and the differences tell the text after, so
    there are none exactly when the texts are equal. -/
theorem diffText_complete (before : String) :
    (∀ after after', diffText before after = diffText before after' → after = after')
    ∧ ∀ after, diffText before after = [] ↔ after = before := by
  have hinj : ∀ after after', diffText before after = diffText before after' → after = after' := by
    intro after after' h
    apply textLines_inj
    apply List.ext_getElem?
    intro index
    have hline : diffLine index (textLines before)[index]? (textLines after)[index]?
        = diffLine index (textLines before)[index]? (textLines after')[index]? := by
      rw [← find_diffText, ← find_diffText, h]
    exact diffLine_inj hline
  refine ⟨hinj, fun after => ⟨fun h => ?_, ?_⟩⟩
  · apply hinj
    rw [h]
    symm
    rw [diffText, List.filterMap_eq_nil_iff]
    intro index _
    exact if_pos rfl
  · rintro rfl
    rw [diffText, List.filterMap_eq_nil_iff]
    intro index _
    exact if_pos rfl

end ComposeBastion.StackVersions
