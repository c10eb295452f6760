import ComposeBastion.Recovery.RestoreAttempts
import ComposeBastion.Lib.Runs
import Mathlib

namespace ComposeBastion

open Runs

/-!
# The restore-attempt reconciler

`reconcileRecoveryRestoreAttempts` claims attempts whose restore was abandoned, removes what they
left on the target host, and ends them as cleaned.  A cleanup is a program of database statements
and remote commands; `runClaimedRemoteCommand` renews the claim before and after each command.

* `Cleanup`, `cleanupAttemptResources` — the program of one cleanup;
* `RestoreState`, `RestoreOp`, `RestoreState.step` — restore executors, the completion of jobs and
  any number of reconcilers, interleaved statement by statement;
* `restore_attempt_dispositions` — dispositions are final, writes under a claim need the current
  token, and no command is started for an attempt that was retained at the renewal before it.
-/

/-! ### Cleanup programs -/

/-- `RestoreDockerResourceKind`. -/
inductive RestoreDockerKind
  | container | network | volume
  deriving DecidableEq, Repr

/-- The kind of a resource that Docker manages. -/
def RestoreResourceKind.docker : RestoreResourceKind → Option RestoreDockerKind
  | container => some .container
  | network => some .network
  | volume => some .volume
  | directory | composeProject | database => none

def RestoreDockerKind.resourceKind : RestoreDockerKind → RestoreResourceKind
  | container => .container
  | network => .network
  | volume => .volume

/-- What a remote command returns. -/
structure CommandResult where
  code : ℤ
  stdout : String
  stderr : String

/-- The remote commands of a cleanup. -/
inductive CleanupCommand
  | inspect (kind : RestoreDockerKind) (resourceReference : String)
  | remove (kind : RestoreDockerKind) (resourceId : String)
  | listProject (kind : RestoreDockerKind) (projectName : String)
  | cleanupOwnedDirectory (targetPath ownerValue attemptToken : String)
  deriving DecidableEq, Repr

/-- What is left to do of a cleanup. -/
inductive Cleanup
  | done
  | fail (error : String)
  | renew (next : Cleanup)
  | claimed (command : CleanupCommand) (next : CommandResult → Cleanup)
  | disposition (resource : ResourceRow) (status : ResourceStatus) (next : Cleanup)

/-- Whether a text is found at some place of another. -/
def containsChars (text : List Char) : List Char → Bool
  | [] => text.isEmpty
  | c :: cs => text.isPrefixOf (c :: cs) || containsChars text cs

/-- `isAlreadyMissingOutput`. -/
def isAlreadyMissingOutput (result : CommandResult) : Bool :=
  let output := (result.stderr ++ "\n" ++ result.stdout).toList.map Char.toLower
  ["no such container", "no such network", "no such volume", "no such file", "not found",
    "does not exist"].any fun text => containsChars text.toList output

/-- `stderr || stdout || fallback`. -/
def commandError (result : CommandResult) (fallback : String) : String :=
  if result.stderr ≠ "" then result.stderr
  else if result.stdout ≠ "" then result.stdout else fallback

def RestoreDockerKind.text : RestoreDockerKind → String
  | container => "container"
  | network => "network"
  | volume => "volume"

/-- `restoreOwnershipValue`. -/
def restoreOwnershipValue (attempt : AttemptRow) : String :=
  attempt.id ++ "|" ++ attempt.restoreScope

/-- `parseOwnedDockerResourceBoundary`: the id before the first bar, and the ownership after it. -/
def parseOwnedDockerResourceBoundary (value : String) : Option (String × String) :=
  let id := value.toList.takeWhile (· ≠ '|')
  if id = [] || id.length = value.toList.length then none
  else some (Js.trim (String.ofList id), Js.trim (String.ofList (value.toList.drop (id.length + 1))))

/-- `cleanupDockerResource`: the resource is inspected by name and again by the id found, and it is
    removed only when both times it carries the labels of the attempt. -/
def cleanupDockerResource (attempt : AttemptRow) (kind : RestoreDockerKind)
    (resourceName : String) (next : ResourceStatus → Cleanup) : Cleanup :=
  .claimed (.inspect kind resourceName) fun inspect =>
    if inspect.code ≠ 0 then
      if isAlreadyMissingOutput inspect then next .cleaned
      else .fail (commandError inspect ("Failed to inspect restore " ++ kind.text))
    else match parseOwnedDockerResourceBoundary (Js.trim inspect.stdout) with
      | none => next .preservedUnrelated
      | some (id, ownership) =>
        if id = "" || ownership ≠ restoreOwnershipValue attempt then next .preservedUnrelated
        else .claimed (.inspect kind id) fun boundary =>
          if boundary.code ≠ 0 && isAlreadyMissingOutput boundary then next .cleaned
          else if boundary.code ≠ 0 || Js.trim boundary.stdout ≠ Js.trim inspect.stdout then
            next .preservedUnrelated
          else .claimed (.remove kind id) fun removed =>
            if removed.code ≠ 0 && !isAlreadyMissingOutput removed then
              .fail (commandError removed ("Failed to remove restore " ++ kind.text))
            else next .cleaned

/-- `value.replace(/\/+$/, "")`. -/
def stripSlashes (value : String) : String :=
  String.ofList (value.toList.reverse.dropWhile (· = '/')).reverse

/-- `isSafeAbsoluteNonRootPath`. -/
def isSafeAbsoluteNonRootPath (value : String) : Bool :=
  Js.startsWith value "/" && value ≠ "/" && !(value.splitOn "/").contains ".."
    && Js.posixNormalize value = stripSlashes value && Js.posixNormalize value ≠ "/"

/-- `pathIsWithin`. -/
def pathIsWithin (parent child : String) : Bool :=
  child = parent || Js.startsWith child (stripSlashes parent ++ "/")

/-- `allowedPathRoots`. -/
def allowedPathRoots (attempt : AttemptRow) : List String :=
  ((attempt.allowedPathRoots.map fun value => stripSlashes (Js.trim value)).filter
    isSafeAbsoluteNonRootPath).eraseDups

/-- `assertAttemptDirectoryIsSafe`. -/
def assertAttemptDirectoryIsSafe (attempt : AttemptRow) (targetPath : String) :
    Except String String :=
  let raw := stripSlashes (Js.trim targetPath)
  if !isSafeAbsoluteNonRootPath raw then
    .error "Restore directory ledger contains an unsafe, non-absolute, traversing, or root target"
  else if !(allowedPathRoots attempt).any (pathIsWithin · raw) then
    .error ("Restore directory ledger target is outside this attempt's durable allowed path roots")
  else .ok raw

/-- `isOwnedRemoteDirectorySafetyRefusal`. -/
def isOwnedRemoteDirectorySafetyRefusal (code : ℤ) : Bool :=
  [73, 74, 75, 76, 77, 78, 79].contains code

/-- The host a cleanup runs on: whether it is a demo host, and whether it is reached by SSH. -/
structure CleanupHost where
  demo : Bool
  ssh : Bool

/-- `cleanupOwnedDirectory`. -/
def cleanupOwnedDirectory (host : CleanupHost) (attempt : AttemptRow) (targetPath : String)
    (next : ResourceStatus → Cleanup) : Cleanup :=
  if !host.ssh then
    .fail "Owned restore directory cleanup requires the original SSH host mode"
  else match assertAttemptDirectoryIsSafe attempt targetPath with
    | .error error => .fail error
    | .ok normalizedTargetPath =>
      .claimed (.cleanupOwnedDirectory normalizedTargetPath (restoreOwnershipValue attempt)
        attempt.id) fun result =>
        if isOwnedRemoteDirectorySafetyRefusal result.code then next .preservedUnrelated
        else if result.code ≠ 0 then
          .fail (commandError result "Failed to clean restore directory")
        else next .cleaned

/-- `outputNames`. -/
def outputNames (stdout : String) : List String :=
  ((stdout.splitOn "\n").map Js.trim |>.filter (· ≠ "")).eraseDups

/-- `listComposeProjectResources`, over the kinds that are left. -/
def listComposeProjectResources (projectName : String)
    (next : List (RestoreDockerKind × String) → Cleanup) :
    List RestoreDockerKind → List (RestoreDockerKind × String) → Cleanup
  | [], resources => next resources
  | kind :: kinds, resources =>
    .claimed (.listProject kind projectName) fun result =>
      if result.code ≠ 0 then
        .fail (commandError result
          ("Failed to inspect restore Compose " ++ kind.text ++ " resources"))
      else listComposeProjectResources projectName next kinds
        (resources ++ (outputNames result.stdout).map fun name => (kind, name))

/-- `composeResources.set(…)`: a key that is there keeps its place. -/
def setComposeResource (resources : List ResourceRow) (item : ResourceRow) : List ResourceRow :=
  if resources.any fun row => row.kind = item.kind && row.resourceName = item.resourceName then
    resources.map fun row =>
      if row.kind = item.kind && row.resourceName = item.resourceName then item else row
  else resources ++ [item]

/-- The resources of the compose projects of an attempt are listed. -/
def discoverComposeResources (next : List ResourceRow → Cleanup) :
    List ResourceRow → List ResourceRow → Cleanup
  | [], discovered => next discovered
  | project :: projects, discovered =>
    listComposeProjectResources project.resourceName
      (fun items => discoverComposeResources next projects
        (items.foldl (fun rows item => setComposeResource rows
          { project with kind := item.1.resourceKind, resourceName := item.2 }) discovered))
      [.container, .network, .volume] []

/-- Containers go before networks, and networks before volumes. -/
def RestoreResourceKind.removalOrder : RestoreResourceKind → ℕ
  | container => 0
  | network => 1
  | volume => 2
  | directory | composeProject | database => 3

/-- The loop over the Docker resources; `seen` are the keys it has handled. -/
def cleanupDockerResources (attempt : AttemptRow) (stored : List ResourceRow) (next : Cleanup) :
    List ResourceRow → List (RestoreResourceKind × String) → Cleanup
  | [], _ => next
  | resource :: rest, seen =>
    if seen.contains (resource.kind, resource.resourceName) then
      cleanupDockerResources attempt stored next rest seen
    else match resource.kind.docker with
      | none => cleanupDockerResources attempt stored next rest seen
      | some kind =>
        cleanupDockerResource attempt kind resource.resourceName fun disposition =>
          let rest := cleanupDockerResources attempt stored next rest
            ((resource.kind, resource.resourceName) :: seen)
          if resource.attemptId = attempt.id && resource.status ≠ .cleaned then
            match stored.find? fun row =>
              row.kind = resource.kind && row.resourceName = resource.resourceName with
            | some row => .disposition row disposition rest
            | none => rest
          else rest

/-- `resource_name.length`, in UTF-16 code units. -/
def resourceNameLength (text : String) : ℕ :=
  (text.toList.map fun c => if 0x10000 ≤ c.toNat then 2 else 1).sum

/-- The loop over the directories, from the longest path on. -/
def cleanupDirectories (host : CleanupHost) (attempt : AttemptRow) (next : Cleanup) :
    List ResourceRow → Cleanup
  | [] => next
  | resource :: rest =>
    cleanupOwnedDirectory host attempt resource.resourceName fun disposition =>
      .disposition resource disposition (cleanupDirectories host attempt next rest)

/-- Rows that are marked as cleaned one after the other. -/
def markAllCleaned (renew : Bool) (next : Cleanup) : List ResourceRow → Cleanup
  | [] => next
  | resource :: rest =>
    let mark := Cleanup.disposition resource .cleaned (markAllCleaned renew next rest)
    if renew then .renew mark else mark

/-- `cleanupAttemptResources`, once the host and the open resources have been read. -/
def cleanupAttemptResources (host : CleanupHost) (attempt : AttemptRow)
    (resources : List ResourceRow) : Cleanup :=
  if host.demo then markAllCleaned true .done resources
  else
    let ofKind := fun kind => resources.filter fun row => decide (row.kind = kind)
    discoverComposeResources (fun composeResources =>
      let dockerResources := (composeResources
        ++ resources.filter fun row => row.kind.docker.isSome).mergeSort fun left right =>
          left.kind.removalOrder ≤ right.kind.removalOrder
      cleanupDockerResources attempt resources
        (markAllCleaned false
          (cleanupDirectories host attempt (markAllCleaned true .done (ofKind .database))
            ((ofKind .directory).mergeSort fun left right =>
              resourceNameLength right.resourceName ≤ resourceNameLength left.resourceName))
          (ofKind .composeProject))
        dockerResources [])
      (ofKind .composeProject) []

/-- The `SELECT` of `cleanupAttemptResources`. -/
def openResources (t : ResourceTable) (attempt : AttemptRow) : List ResourceRow :=
  (t.rows.filter fun row => row.attemptId = attempt.id
    && !(row.status = .cleaned || row.status = .preservedUnrelated)).mergeSort
    fun left right => right.createdAt ≤ left.createdAt

/-! ### Reconcilers -/

/-- Where a reconciler stands with the attempt it is cleaning up. -/
inductive ReconcilerPhase
  | idle
  | claimed (attempt : AttemptRow)
  | running (attempt : AttemptRow) (program : Cleanup)
  | renewed (attempt : AttemptRow) (command : CleanupCommand) (next : CommandResult → Cleanup)
  | commanding (attempt : AttemptRow) (next : CommandResult → Cleanup)
  | returned (attempt : AttemptRow) (program : Cleanup)
  | failing (attempt : AttemptRow) (remoteOutcomeUnknown : Bool) (error : String)

/-- The attempt a reconciler is cleaning up. -/
def ReconcilerPhase.attempt : ReconcilerPhase → Option AttemptRow
  | idle => none
  | claimed attempt | running attempt _ | renewed attempt _ _ | commanding attempt _
  | returned attempt _ | failing attempt _ _ => some attempt

/-- A run of `reconcileRecoveryRestoreAttempts`: the claimed attempts it has not begun, and the
    one it is at. -/
structure AttemptReconciler where
  queue : List AttemptRow
  phase : ReconcilerPhase

/-- The tables, and the reconcilers. -/
structure RestoreState where
  attempts : AttemptTable
  resources : ResourceTable
  jobs : JobTable
  migrations : List MigrationLink
  reconcilers : ℕ → AttemptReconciler

/-- A statement or a remote event of the system. -/
inductive RestoreOp
  -- the executor of a restore
  | begin (context : AttemptContext) (now : Time)
  | register (attemptToken : Id) (kind : RestoreResourceKind) (resourceName : String) (now : Time)
  | observed (attemptToken : Id) (kind : RestoreResourceKind) (resourceName : String)
  | heartbeat (attemptToken : Id) (now : Time)
  | awaitingDisposition (attemptToken : Id) (now : Time)
  | cleanupPending (attemptToken : Id) (error : String) (remoteOutcomeUnknown : Bool) (now : Time)
  | retained (attemptToken : Id) (now : Time)
  | cleaned (attemptToken : Id) (now : Time)
  -- the jobs: any change of theirs, and the completion of one that binds an attempt
  | jobs (jobs : JobTable) (migrations : List MigrationLink)
  | completeJob (job : JobRow) (migrationIdentity : Option MigrationCompletionIdentity)
      (backupRestoreIdentity : Option BackupRestoreCompletionIdentity) (demo : Option Bool)
      (now : Time) (jobs : JobTable)
  -- the reconcilers
  | retainCompleted (now : Time)
  | releaseCompleted (now : Time)
  | claim (worker : ℕ) (now : Time) (selected : List (Id × Id))
  | next (worker : ℕ)
  | load (worker : ℕ) (host : CleanupHost)
  | proceed (worker : ℕ) (now : Time)
  | start (worker : ℕ)
  | result (worker : ℕ) (result : CommandResult)
  | commandFailed (worker : ℕ)
  | fault (worker : ℕ) (error : String)
  | crash (worker : ℕ)

namespace RestoreState

/-- A reconciler moves. -/
def setPhase (s : RestoreState) (worker : ℕ) (phase : ReconcilerPhase) : RestoreState :=
  { s with reconcilers :=
      Function.update s.reconcilers worker { s.reconcilers worker with phase := phase } }

/-- An `UPDATE` of the attempts. -/
def update (s : RestoreState) (u : AttemptUpdate) : RestoreState :=
  { s with attempts := u.apply s.attempts }

/-- The claim of the selected attempts, each under its token: the table, and the claimed rows. -/
def claimSelected (jobs : JobTable) (migrations : List MigrationLink) (now : Time) :
    List (Id × Id) → AttemptTable → AttemptTable × List AttemptRow
  | [], t => (t, [])
  | (id, token) :: rest, t =>
    let u := claimAttempt jobs migrations now id token
    let claimed := claimSelected jobs migrations now rest (u.apply t)
    (claimed.1, (t.rows.filter u.guard).map u.assign ++ claimed.2)

/-- A renewal of the claim, and what follows when it is held and when it is lost. -/
def renew (s : RestoreState) (worker : ℕ) (attempt : AttemptRow) (now : Time)
    (held : ReconcilerPhase) : RestoreState :=
  let u := renewRestoreAttemptClaim attempt now
  if u.hits s.attempts then (s.update u).setPhase worker held
  else s.setPhase worker (.failing attempt false
    "Recovery restore reconciliation lost its durable cleanup claim")

/-- The next database statement of a reconciler. -/
def proceed (s : RestoreState) (worker : ℕ) (now : Time) : RestoreState :=
  match (s.reconcilers worker).phase with
  | .running attempt .done =>
    let u := completeClaimedAttempt attempt now
    if u.hits s.attempts then (s.update u).setPhase worker .idle
    else s.setPhase worker (.failing attempt false
      "Recovery restore reconciliation lost its durable claim")
  | .running attempt (.fail error) => s.setPhase worker (.failing attempt false error)
  | .running attempt (.renew next) => s.renew worker attempt now (.running attempt next)
  | .running attempt (.claimed command next) =>
    s.renew worker attempt now (.renewed attempt command next)
  | .running attempt (.disposition resource status next) =>
    match markResourceDisposition s.resources s.attempts attempt resource status with
    | some resources => { s with resources := resources }.setPhase worker (.running attempt next)
    | none => s.setPhase worker (.failing attempt false
        "Recovery restore reconciliation lost its durable cleanup claim")
  | .returned attempt program => s.renew worker attempt now (.running attempt program)
  | .failing attempt remoteOutcomeUnknown error =>
    (s.update (failClaimedAttempt attempt remoteOutcomeUnknown error now)).setPhase worker .idle
  | .idle | .claimed _ | .renewed _ _ _ | .commanding _ _ => s

/-- One step of the system. -/
def step (s : RestoreState) : RestoreOp → RestoreState
  | .begin context now =>
    match beginRecoveryRestoreAttempt s.attempts context now with
    | .ok attempts => { s with attempts := attempts }
    | .error _ => s
  | .register attemptToken kind resourceName now =>
    let resources :=
      registerRecoveryRestoreResource s.resources s.attempts attemptToken kind resourceName now
    { s with resources := resources }
  | .observed attemptToken kind resourceName =>
    let resources :=
      markRecoveryRestoreResourceObserved s.resources attemptToken kind resourceName
    { s with resources := resources }
  | .heartbeat attemptToken now => s.update (attemptHeartbeat attemptToken now)
  | .awaitingDisposition attemptToken now =>
    s.update (markRecoveryRestoreAttemptAwaitingDisposition attemptToken now)
  | .cleanupPending attemptToken error remoteOutcomeUnknown now =>
    s.update (markRecoveryRestoreAttemptCleanupPending attemptToken error remoteOutcomeUnknown now)
  | .retained attemptToken now => s.update (markRecoveryRestoreAttemptRetained attemptToken now)
  | .cleaned attemptToken now => s.update (markRecoveryRestoreAttemptCleaned attemptToken now)
  | .jobs jobs migrations => { s with jobs := jobs, migrations := migrations }
  | .completeJob job migrationIdentity backupRestoreIdentity demo now jobs =>
    match finalizeSuccessfulRestoreAttempt s.attempts job migrationIdentity backupRestoreIdentity
        demo now with
    | .ok attempts => { s with attempts := attempts, jobs := jobs }
    | .error _ => s
  | .retainCompleted now => s.update (retainCompletedAttempts s.jobs now)
  | .releaseCompleted now => s.update (releaseCompletedAttempts s.jobs now)
  | .claim worker now selected =>
    match s.reconcilers worker with
    | ⟨[], .idle⟩ =>
      let claimed := claimSelected s.jobs s.migrations now selected s.attempts
      { s with
        attempts := claimed.1
        reconcilers := Function.update s.reconcilers worker ⟨claimed.2, .idle⟩ }
    | _ => s
  | .next worker =>
    match s.reconcilers worker with
    | ⟨attempt :: queue, .idle⟩ =>
      { s with reconcilers := Function.update s.reconcilers worker ⟨queue, .claimed attempt⟩ }
    | _ => s
  | .load worker host =>
    match (s.reconcilers worker).phase with
    | .claimed attempt => s.setPhase worker (.running attempt
        (cleanupAttemptResources host attempt (openResources s.resources attempt)))
    | _ => s
  | .proceed worker now => s.proceed worker now
  | .start worker =>
    match (s.reconcilers worker).phase with
    | .renewed attempt _ next => s.setPhase worker (.commanding attempt next)
    | _ => s
  | .result worker result =>
    match (s.reconcilers worker).phase with
    | .commanding attempt next => s.setPhase worker (.returned attempt (next result))
    | _ => s
  | .commandFailed worker =>
    match (s.reconcilers worker).phase with
    | .commanding attempt _ => s.setPhase worker (.failing attempt true
        ("Recovery restore cleanup command outcome is unknown; retry is deferred until the "
          ++ "command is quiescent"))
    | _ => s
  | .fault worker error =>
    match (s.reconcilers worker).phase with
    | .claimed attempt | .running attempt _ | .returned attempt _ =>
      s.setPhase worker (.failing attempt false error)
    | _ => s
  | .crash worker => { s with reconcilers := Function.update s.reconcilers worker ⟨[], .idle⟩ }

/-- The state in which no reconciler runs. -/
def initial (attempts : AttemptTable) (resources : ResourceTable) (jobs : JobTable)
    (migrations : List MigrationLink) : RestoreState :=
  ⟨attempts, resources, jobs, migrations, fun _ => ⟨[], .idle⟩⟩

/-! ### Dispositions are final -/

theorem claimSelected_leads (jobs : JobTable) (migrations : List MigrationLink) (now : Time)
    (selected : List (Id × Id)) (t : AttemptTable) :
    AttemptsLead t (claimSelected jobs migrations now selected t).1 := by
  induction selected generalizing t with
  | nil => exact .refl t
  | cons pair rest ih =>
    obtain ⟨id, token⟩ := pair
    exact ((claimAttempt_sound jobs migrations now id token).apply t).trans (ih _)

theorem renew_leads (s : RestoreState) (worker : ℕ) (attempt : AttemptRow) (now : Time)
    (held : ReconcilerPhase) : AttemptsLead s.attempts (s.renew worker attempt now held).attempts := by
  simp only [renew]
  split
  · exact (renewRestoreAttemptClaim_sound attempt now).apply s.attempts
  · exact .refl _

theorem proceed_leads (s : RestoreState) (worker : ℕ) (now : Time) :
    AttemptsLead s.attempts (s.proceed worker now).attempts := by
  unfold proceed
  split
  · rename_i attempt _
    dsimp only
    split
    · exact (completeClaimedAttempt_sound attempt now).apply s.attempts
    · exact .refl _
  · exact .refl _
  · apply s.renew_leads
  · apply s.renew_leads
  · split <;> exact .refl _
  · apply s.renew_leads
  · rename_i attempt remoteOutcomeUnknown error _
    exact (failClaimedAttempt_sound attempt remoteOutcomeUnknown error now).apply s.attempts
  all_goals exact .refl _

/-- **One step** lets the statuses of the attempts go on as they may. -/
theorem step_leads (s : RestoreState) (op : RestoreOp) :
    AttemptsLead s.attempts (s.step op).attempts := by
  cases op with
  | begin context now =>
    simp only [step]
    split
    · rename_i attempts hbegin
      unfold beginRecoveryRestoreAttempt at hbegin
      split at hbegin
      · cases hbegin
      · cases hbegin
        exact fun id row hrow => ⟨row, Table.find_insert_of_some hrow, .refl _⟩
    · exact .refl _
  | register attemptToken kind resourceName now => exact .refl _
  | observed attemptToken kind resourceName => exact .refl _
  | heartbeat attemptToken now => exact (attemptHeartbeat_sound attemptToken now).apply _
  | awaitingDisposition attemptToken now =>
    exact (markAwaitingDisposition_sound attemptToken now).apply _
  | cleanupPending attemptToken error remoteOutcomeUnknown now =>
    exact (markCleanupPending_sound attemptToken error remoteOutcomeUnknown now).apply _
  | retained attemptToken now => exact (markRetained_sound attemptToken now).apply _
  | cleaned attemptToken now => exact (markCleaned_sound attemptToken now).apply _
  | jobs jobs migrations => exact .refl _
  | completeJob job migrationIdentity backupRestoreIdentity demo now jobs =>
    simp only [step]
    split
    · rename_i attempts hfinal
      exact finalizeSuccessfulRestoreAttempt_leads hfinal
    · exact .refl _
  | retainCompleted now => exact (retainCompletedAttempts_sound s.jobs now).apply _
  | releaseCompleted now => exact (releaseCompletedAttempts_sound s.jobs now).apply _
  | claim worker now selected =>
    simp only [step]
    split
    · apply claimSelected_leads
    · exact .refl _
  | proceed worker now => exact s.proceed_leads worker now
  | next worker => simp only [step]; split <;> exact .refl _
  | load worker host => simp only [step]; split <;> exact .refl _
  | start worker => simp only [step]; split <;> exact .refl _
  | result worker result => simp only [step]; split <;> exact .refl _
  | commandFailed worker => simp only [step]; split <;> exact .refl _
  | fault worker error => simp only [step]; split <;> exact .refl _
  | crash worker => exact .refl _

/-- **Every run** does. -/
theorem exec_leads (s : RestoreState) (ops : List RestoreOp) :
    AttemptsLead s.attempts (exec step s ops).attempts :=
  exec_invariant (I := fun s' : RestoreState => AttemptsLead s.attempts s'.attempts)
    (fun s' op h => h.trans (s'.step_leads op)) (.refl _) ops

/-! ### Writes under a claim -/

/-- An update that changes the table meets a row. -/
theorem exists_guard_of_apply_ne {u : AttemptUpdate} {t : AttemptTable} (h : u.apply t ≠ t) :
    ∃ row ∈ t, u.guard row = true := by
  by_contra hnone
  refine h (Table.update_eq_self fun row hrow => ?_)
  by_contra hguard
  exact hnone ⟨row, hrow, by simpa using hguard⟩

/-- The row of the attempt carries the token of the claim. -/
def TokenCurrent (s : RestoreState) (attempt : AttemptRow) : Prop :=
  ∃ row, s.attempts.find attempt.id = some row ∧ row.reconciliationToken.isSome = true
    ∧ row.reconciliationToken = attempt.reconciliationToken ∧ row.status = .reconciling

theorem tokenCurrent_of_guard {s : RestoreState} {attempt row : AttemptRow} (hrow : row ∈ s.attempts)
    (h : holdsClaim attempt row = true) : s.TokenCurrent attempt := by
  simp only [holdsClaim, Bool.and_eq_true, decide_eq_true_eq] at h
  obtain ⟨⟨⟨hid, hsome⟩, htoken⟩, hstatus⟩ := h
  exact ⟨row, Table.find_eq_some.mpr ⟨hrow, hid⟩, hsome, htoken, hstatus⟩

theorem tokenCurrent_of_apply {s : RestoreState} {attempt : AttemptRow} {u : AttemptUpdate}
    (hu : u.guard = holdsClaim attempt) (h : (s.update u).attempts ≠ s.attempts) :
    s.TokenCurrent attempt := by
  obtain ⟨row, hrow, hguard⟩ := exists_guard_of_apply_ne (t := s.attempts) h
  exact tokenCurrent_of_guard hrow (hu ▸ hguard)

theorem tokenCurrent_of_renew {s : RestoreState} {worker : ℕ} {attempt : AttemptRow} {now : Time}
    {held : ReconcilerPhase} (h : (s.renew worker attempt now held).attempts ≠ s.attempts) :
    s.TokenCurrent attempt := by
  simp only [renew] at h
  split at h
  · exact tokenCurrent_of_apply (u := renewRestoreAttemptClaim attempt now) rfl h
  · exact absurd rfl h

/-- **Writes under a claim.**  A renewal, a completion or a failure that changes the attempts was
    made under the current token of its attempt. -/
theorem proceed_tokenCurrent {s : RestoreState} {worker : ℕ} {now : Time} {attempt : AttemptRow}
    (hattempt : (s.reconcilers worker).phase.attempt = some attempt)
    (h : (s.proceed worker now).attempts ≠ s.attempts) : s.TokenCurrent attempt := by
  unfold proceed at h
  cases hphase : (s.reconcilers worker).phase with
  | idle => simp [hphase] at h
  | claimed attempt' => simp [hphase] at h
  | renewed attempt' command next => simp [hphase] at h
  | commanding attempt' next => simp [hphase] at h
  | returned attempt' program =>
    rw [hphase] at hattempt h
    cases hattempt
    exact tokenCurrent_of_renew h
  | failing attempt' remoteOutcomeUnknown error =>
    rw [hphase] at hattempt h
    cases hattempt
    exact tokenCurrent_of_apply (u := failClaimedAttempt attempt remoteOutcomeUnknown error now) rfl h
  | running attempt' program =>
    rw [hphase] at hattempt h
    cases hattempt
    cases program with
    | done =>
      dsimp only at h
      split at h
      · exact tokenCurrent_of_apply (u := completeClaimedAttempt attempt now) rfl h
      · exact absurd rfl h
    | fail error => exact absurd rfl h
    | renew next => exact tokenCurrent_of_renew h
    | claimed command next => exact tokenCurrent_of_renew h
    | disposition resource status next =>
      dsimp only at h
      split at h <;> exact absurd rfl h

/-! ### Commands follow a renewal -/

/-- What is seen of the reconcilers: a renewal, with the status of the row at that moment, and the
    start of a remote command. -/
inductive RestoreEvent
  | renewal (worker : ℕ) (attemptId : Id) (status : Option AttemptStatus)
  | command (worker : ℕ) (attemptId : Id) (command : CleanupCommand)

/-- The attempt whose claim a reconciler renews with its next statement. -/
def renewing : ReconcilerPhase → Option AttemptRow
  | .running attempt (.renew _) | .running attempt (.claimed _ _) | .returned attempt _ =>
    some attempt
  | _ => none

/-- What is seen of one step. -/
def events (s : RestoreState) (op : RestoreOp) (_ : RestoreState) : List RestoreEvent :=
  match op with
  | .proceed worker _ =>
    match renewing (s.reconcilers worker).phase with
    | some attempt =>
      [.renewal worker attempt.id ((s.attempts.find attempt.id).map AttemptRow.status)]
    | none => []
  | .start worker =>
    match (s.reconcilers worker).phase with
    | .renewed attempt command _ => [.command worker attempt.id command]
    | _ => []
  | _ => []

/-- A renewal of the reconciler. -/
def RestoreEvent.renewalOf (worker : ℕ) : RestoreEvent → Option (Id × Option AttemptStatus)
  | .renewal worker' attemptId status => if worker' = worker then some (attemptId, status) else none
  | .command _ _ _ => none

/-- The last renewal of a reconciler. -/
def lastRenewal (worker : ℕ) (trace : List RestoreEvent) : Option (Id × Option AttemptStatus) :=
  (trace.filterMap (RestoreEvent.renewalOf worker)).getLast?

/-- The last renewal of a reconciler was of this attempt, which was not retained then. -/
def RenewedUnretained (trace : List RestoreEvent) (worker : ℕ) (attemptId : Id) : Prop :=
  ∃ status, lastRenewal worker trace = some (attemptId, status) ∧ status ≠ some .retained

/-- Every command was started for an attempt that was not retained at the renewal before it. -/
def CommandsGuarded (trace : List RestoreEvent) : Prop :=
  ∀ before worker attemptId command after,
    trace = before ++ .command worker attemptId command :: after →
      RenewedUnretained before worker attemptId

theorem commandsGuarded_snoc {trace : List RestoreEvent} {e : RestoreEvent}
    (h : CommandsGuarded trace)
    (he : ∀ worker attemptId command, e = .command worker attemptId command →
      RenewedUnretained trace worker attemptId) : CommandsGuarded (trace ++ [e]) := by
  intro before worker attemptId command after heq
  rcases List.eq_nil_or_concat after with rfl | ⟨after', e', rfl⟩
  · obtain ⟨rfl, hlast⟩ := List.append_inj_left' heq rfl, (List.append_inj_right' heq rfl)
    exact he worker attemptId command (List.head_eq_of_cons_eq hlast)
  · rw [List.concat_eq_append, ← List.cons_append, ← List.append_assoc] at heq
    exact h before worker attemptId command after' (List.append_inj_left' heq rfl)

theorem lastRenewal_snoc (worker : ℕ) (trace : List RestoreEvent) (e : RestoreEvent) :
    lastRenewal worker (trace ++ [e]) = (e.renewalOf worker).or (lastRenewal worker trace) := by
  unfold lastRenewal
  rw [List.filterMap_append]
  cases h : e.renewalOf worker with
  | none => simp [h]
  | some renewal => simp [h]

/-- A reconciler whose phase is set. -/
theorem setPhase_phase (s : RestoreState) (worker worker' : ℕ) (phase : ReconcilerPhase) :
    ((s.setPhase worker phase).reconcilers worker').phase
      = if worker' = worker then phase else (s.reconcilers worker').phase := by
  unfold setPhase
  by_cases h : worker' = worker
  · subst h
    simp
  · simp [h]

/-- What a renewal leaves of the phase of a reconciler. -/
theorem renew_phase {s : RestoreState} {worker worker' : ℕ} {attempt : AttemptRow} {now : Time}
    {held : ReconcilerPhase} {attempt' : AttemptRow} {command : CleanupCommand}
    {next : CommandResult → Cleanup}
    (h : ((s.renew worker attempt now held).reconcilers worker').phase
      = .renewed attempt' command next) :
    (worker' ≠ worker ∧ (s.reconcilers worker').phase = .renewed attempt' command next)
      ∨ (worker' = worker ∧ held = .renewed attempt' command next ∧ s.TokenCurrent attempt) := by
  simp only [renew] at h
  split at h
  · rename_i hhits
    rw [setPhase_phase] at h
    split at h
    · rename_i hworker
      obtain ⟨row, hrow, hguard⟩ := List.any_eq_true.mp hhits
      exact Or.inr ⟨hworker, h, tokenCurrent_of_guard hrow hguard⟩
    · rename_i hworker
      exact Or.inl ⟨hworker, h⟩
  · rw [setPhase_phase] at h
    split at h
    · cases h
    · rename_i hworker
      exact Or.inl ⟨hworker, h⟩

/-- A phase that was not there before is set. -/
theorem setPhase_renewed {s : RestoreState} {worker worker' : ℕ} {phase : ReconcilerPhase}
    {attempt : AttemptRow} {command : CleanupCommand} {next : CommandResult → Cleanup}
    (hphase : ∀ attempt command next, phase ≠ .renewed attempt command next)
    (h : ((s.setPhase worker phase).reconcilers worker').phase = .renewed attempt command next) :
    worker' ≠ worker ∧ (s.reconcilers worker').phase = .renewed attempt command next := by
  rw [setPhase_phase] at h
  split at h
  · exact absurd h (hphase _ _ _)
  · rename_i hworker
    exact ⟨hworker, h⟩

/-- A reconciler is about to start a command: it was so before, or it has just renewed its
    claim. -/
theorem proceed_renewed {s : RestoreState} {worker worker' : ℕ} {now : Time}
    {attempt : AttemptRow} {command : CleanupCommand} {next : CommandResult → Cleanup}
    (h : ((s.proceed worker now).reconcilers worker').phase = .renewed attempt command next) :
    ((s.reconcilers worker').phase = .renewed attempt command next
        ∧ (worker' = worker → renewing (s.reconcilers worker).phase = none))
      ∨ (worker' = worker ∧ renewing (s.reconcilers worker).phase = some attempt
          ∧ s.TokenCurrent attempt) := by
  unfold proceed at h
  cases hphase : (s.reconcilers worker).phase with
  | idle =>
    rw [hphase] at h
    exact Or.inl ⟨h, fun _ => rfl⟩
  | claimed attempt' =>
    rw [hphase] at h
    exact Or.inl ⟨h, fun _ => rfl⟩
  | renewed attempt' command' next' =>
    rw [hphase] at h
    exact Or.inl ⟨h, fun _ => rfl⟩
  | commanding attempt' next' =>
    rw [hphase] at h
    exact Or.inl ⟨h, fun _ => rfl⟩
  | returned attempt' program =>
    rw [hphase] at h
    rcases renew_phase h with ⟨hne, h⟩ | ⟨_, hheld, _⟩
    · exact Or.inl ⟨h, fun heq => absurd heq hne⟩
    · cases hheld
  | failing attempt' remoteOutcomeUnknown error =>
    rw [hphase] at h
    obtain ⟨hne, h⟩ := setPhase_renewed (fun _ _ _ h => by cases h) h
    exact Or.inl ⟨h, fun heq => absurd heq hne⟩
  | running attempt' program =>
    rw [hphase] at h
    cases program with
    | done =>
      dsimp only at h
      split at h
      · obtain ⟨hne, h⟩ := setPhase_renewed (fun _ _ _ h => by cases h) h
        exact Or.inl ⟨h, fun _ => rfl⟩
      · obtain ⟨hne, h⟩ := setPhase_renewed (fun _ _ _ h => by cases h) h
        exact Or.inl ⟨h, fun _ => rfl⟩
    | fail error =>
      obtain ⟨hne, h⟩ := setPhase_renewed (fun _ _ _ h => by cases h) h
      exact Or.inl ⟨h, fun _ => rfl⟩
    | renew next' =>
      rcases renew_phase h with ⟨hne, h⟩ | ⟨_, hheld, _⟩
      · exact Or.inl ⟨h, fun heq => absurd heq hne⟩
      · cases hheld
    | claimed command' next' =>
      rcases renew_phase h with ⟨hne, h⟩ | ⟨hworker, hheld, hcurrent⟩
      · exact Or.inl ⟨h, fun heq => absurd heq hne⟩
      · cases hheld
        exact Or.inr ⟨hworker, rfl, hcurrent⟩
    | disposition resource status next' =>
      dsimp only at h
      split at h
      · obtain ⟨hne, h⟩ := setPhase_renewed (fun _ _ _ h => by cases h) h
        exact Or.inl ⟨h, fun _ => rfl⟩
      · obtain ⟨hne, h⟩ := setPhase_renewed (fun _ _ _ h => by cases h) h
        exact Or.inl ⟨h, fun _ => rfl⟩

/-- The reconcilers that stand before a command have renewed their claim last. -/
structure CommandInv (trace : List RestoreEvent) (s : RestoreState) : Prop where
  guarded : CommandsGuarded trace
  renewed : ∀ worker attempt command next,
    (s.reconcilers worker).phase = .renewed attempt command next →
      RenewedUnretained trace worker attempt.id

/-- A queue that is replaced. -/
theorem queue_renewed {s : RestoreState} {worker worker' : ℕ} {queue : List AttemptRow}
    {phase : ReconcilerPhase} {attempt : AttemptRow} {command : CleanupCommand}
    {next : CommandResult → Cleanup}
    (hphase : ∀ attempt command next, phase ≠ .renewed attempt command next)
    (h : (Function.update s.reconcilers worker ⟨queue, phase⟩ worker').phase
      = .renewed attempt command next) :
    (s.reconcilers worker').phase = .renewed attempt command next := by
  by_cases hworker : worker' = worker
  · subst hworker
    rw [Function.update_self] at h
    exact absurd h (hphase _ _ _)
  · rwa [Function.update_of_ne hworker] at h

/-- No step other than a database statement of the reconciler itself brings it before a
    command. -/
theorem step_renewed {s : RestoreState} {op : RestoreOp} (hop : ∀ worker now, op ≠ .proceed worker now)
    {worker' : ℕ} {attempt : AttemptRow} {command : CleanupCommand}
    {next : CommandResult → Cleanup}
    (h : ((s.step op).reconcilers worker').phase = .renewed attempt command next) :
    (s.reconcilers worker').phase = .renewed attempt command next := by
  cases op with
  | proceed worker now => exact absurd rfl (hop worker now)
  | begin context now =>
    simp only [step] at h
    split at h <;> exact h
  | completeJob job migrationIdentity backupRestoreIdentity demo now jobs =>
    simp only [step] at h
    split at h <;> exact h
  | claim worker now selected =>
    simp only [step] at h
    split at h
    · exact queue_renewed (fun _ _ _ h => by cases h) h
    · exact h
  | next worker =>
    simp only [step] at h
    split at h
    · exact queue_renewed (fun _ _ _ h => by cases h) h
    · exact h
  | crash worker => exact queue_renewed (fun _ _ _ h => by cases h) h
  | load worker host =>
    simp only [step] at h
    split at h
    · exact (setPhase_renewed (fun _ _ _ h => by cases h) h).2
    · exact h
  | start worker =>
    simp only [step] at h
    split at h
    · exact (setPhase_renewed (fun _ _ _ h => by cases h) h).2
    · exact h
  | result worker result =>
    simp only [step] at h
    split at h
    · exact (setPhase_renewed (fun _ _ _ h => by cases h) h).2
    · exact h
  | commandFailed worker =>
    simp only [step] at h
    split at h
    · exact (setPhase_renewed (fun _ _ _ h => by cases h) h).2
    · exact h
  | fault worker error =>
    simp only [step] at h
    split at h
    · exact (setPhase_renewed (fun _ _ _ h => by cases h) h).2
    · exact (setPhase_renewed (fun _ _ _ h => by cases h) h).2
    · exact (setPhase_renewed (fun _ _ _ h => by cases h) h).2
    · exact h
  | register attemptToken kind resourceName now => exact h
  | observed attemptToken kind resourceName => exact h
  | heartbeat attemptToken now => exact h
  | awaitingDisposition attemptToken now => exact h
  | cleanupPending attemptToken error remoteOutcomeUnknown now => exact h
  | retained attemptToken now => exact h
  | cleaned attemptToken now => exact h
  | jobs jobs migrations => exact h
  | retainCompleted now => exact h
  | releaseCompleted now => exact h

/-- What is seen besides the last renewal of a reconciler does not matter to it. -/
theorem RenewedUnretained.snoc {trace : List RestoreEvent} {worker : ℕ} {attemptId : Id}
    (h : RenewedUnretained trace worker attemptId) {e : RestoreEvent}
    (he : e.renewalOf worker = none) : RenewedUnretained (trace ++ [e]) worker attemptId := by
  obtain ⟨status, hlast, hstatus⟩ := h
  refine ⟨status, ?_, hstatus⟩
  rw [lastRenewal_snoc, he]
  exact hlast

theorem CommandInv.proceed {trace : List RestoreEvent} {s : RestoreState} (h : CommandInv trace s)
    (worker : ℕ) (now : Time) :
    CommandInv (trace ++ events s (.proceed worker now) (s.proceed worker now))
      (s.proceed worker now) := by
  cases hrenewing : renewing (s.reconcilers worker).phase with
  | none =>
    have hevents : events s (.proceed worker now) (s.proceed worker now) = [] := by
      simp [events, hrenewing]
    rw [hevents, List.append_nil]
    refine ⟨h.guarded, fun worker' attempt command next hphase => ?_⟩
    rcases proceed_renewed hphase with ⟨hbefore, _⟩ | ⟨_, hsome, _⟩
    · exact h.renewed worker' attempt command next hbefore
    · rw [hrenewing] at hsome
      cases hsome
  | some renewed =>
    have hevents : events s (.proceed worker now) (s.proceed worker now)
        = [.renewal worker renewed.id ((s.attempts.find renewed.id).map AttemptRow.status)] := by
      simp [events, hrenewing]
    rw [hevents]
    refine ⟨commandsGuarded_snoc h.guarded fun _ _ _ he => (by cases he),
      fun worker' attempt command next hphase => ?_⟩
    rcases proceed_renewed hphase with ⟨hbefore, hworker⟩ | ⟨rfl, hsome, hcurrent⟩
    · -- another reconciler: this renewal is not its own
      refine (h.renewed worker' attempt command next hbefore).snoc (if_neg ?_)
      rintro rfl
      rw [hworker rfl] at hrenewing
      cases hrenewing
    · -- its own renewal met the row in `reconciling`
      rw [hrenewing] at hsome
      cases hsome
      obtain ⟨row, hrow, -, -, hstatus⟩ := hcurrent
      refine ⟨some .reconciling, ?_, by decide⟩
      rw [lastRenewal_snoc, hrow, RestoreEvent.renewalOf, if_pos rfl, Option.map_some, hstatus]
      rfl

/-- **One step** keeps every command behind a renewal. -/
theorem CommandInv.step {trace : List RestoreEvent} {s : RestoreState} (h : CommandInv trace s)
    (op : RestoreOp) : CommandInv (trace ++ events s op (s.step op)) (s.step op) := by
  by_cases hop : ∃ worker now, op = .proceed worker now
  · obtain ⟨worker, now, rfl⟩ := hop
    exact h.proceed worker now
  have hsilent : ∀ worker now, op ≠ .proceed worker now := fun worker now heq =>
    hop ⟨worker, now, heq⟩
  have hrenewed : ∀ worker attempt command next,
      ((s.step op).reconcilers worker).phase = .renewed attempt command next →
        RenewedUnretained trace worker attempt.id := fun worker attempt command next hphase =>
    h.renewed worker attempt command next (step_renewed hsilent hphase)
  cases hevents : events s op (s.step op) with
  | nil =>
    rw [List.append_nil]
    exact ⟨h.guarded, hrenewed⟩
  | cons e rest =>
    -- the only other step that is seen is the start of a command
    obtain ⟨worker, attempt, command, next, hphase, rfl, rfl⟩ :
        ∃ worker attempt command next, (s.reconcilers worker).phase = .renewed attempt command next
          ∧ e = .command worker attempt.id command ∧ rest = [] := by
      unfold events at hevents
      split at hevents
      · exact absurd rfl (hsilent _ _)
      · rename_i worker
        split at hevents
        · rename_i attempt command next hphase
          obtain ⟨rfl, rfl⟩ := List.cons.inj hevents
          exact ⟨worker, attempt, command, next, hphase, rfl, rfl⟩
        · cases hevents
      · cases hevents
    refine ⟨commandsGuarded_snoc h.guarded ?_, fun worker' attempt' command' next' hphase' =>
      (hrenewed worker' attempt' command' next' hphase').snoc rfl⟩
    intro worker' attemptId command' heq
    cases heq
    exact h.renewed worker attempt command next hphase

end RestoreState

open RestoreState in
/-- **Restore-attempt dispositions.**  After every run of restore executors, job completions and
    reconcilers, and whatever follows it: a retained or cleaned attempt stays so; one that waits
    for its cleanup or is being cleaned up is never retained; a renewal, completion or failure of a
    reconciler that changes the attempts was made under the current token; and every command that
    was started followed a renewal that did not find its attempt retained. -/
theorem restore_attempt_dispositions (attempts : AttemptTable) (resources : ResourceTable)
    (jobs : JobTable) (migrations : List MigrationLink) (ops : List RestoreOp) :
    (∀ later id row,
        (exec step (initial attempts resources jobs migrations) ops).attempts.find id = some row →
        ∃ row', (exec step (initial attempts resources jobs migrations) (ops ++ later)).attempts.find
              id = some row'
          ∧ (row.status = .retained ∨ row.status = .cleaned → row'.status = row.status)
          ∧ (row.status = .cleanupPending ∨ row.status = .reconciling →
              row'.status ≠ .retained))
      ∧ (∀ worker now attempt,
          ((exec step (initial attempts resources jobs migrations) ops).reconcilers
              worker).phase.attempt = some attempt →
          (proceed (exec step (initial attempts resources jobs migrations) ops) worker now).attempts
              ≠ (exec step (initial attempts resources jobs migrations) ops).attempts →
          TokenCurrent (exec step (initial attempts resources jobs migrations) ops) attempt)
      ∧ CommandsGuarded
          (observe events step (initial attempts resources jobs migrations) ops) := by
  refine ⟨?_, fun worker now attempt => proceed_tokenCurrent, ?_⟩
  · intro later id row hrow
    rw [exec_append]
    obtain ⟨row', hrow', hleads⟩ := exec_leads _ later id row hrow
    refine ⟨row', hrow', ?_, ?_⟩
    · rintro (hstatus | hstatus) <;> rw [hstatus] at hleads ⊢ <;> exact hleads
    · rintro (hstatus | hstatus) hretained <;> rw [hstatus, hretained] at hleads <;>
        simp [AttemptStatus.Leads] at hleads
  · have hinitial : CommandInv [] (initial attempts resources jobs migrations) := by
      refine ⟨fun before _ _ _ _ heq => ?_, fun _ _ _ _ hphase => ?_⟩
      · cases before <;> cases heq
      · cases hphase
    have hinv : CommandInv
        ([] ++ observe events step (initial attempts resources jobs migrations) ops)
        (exec step (initial attempts resources jobs migrations) ops) :=
      observe_invariant (J := CommandInv) (fun _ _ op h => h.step op) hinitial ops
    exact hinv.guarded

end ComposeBastion
