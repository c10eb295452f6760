import ComposeBastion.Lib.Runs
import ComposeBastion.Lib.Table
import Mathlib.Data.Int.Notation

namespace ComposeBastion

open Runs

/-!
# Tracked operations of the agent

`apps/agent/src/server.ts`: a Docker command or a file write that carries an operation id is
registered in the map `agentOperations` before its promise settles, and a repeat of the request
is given the promise that is registered.  The map is purged by age, never by count.

* `AgentOperation`, `AgentExecution` — a registration, and the one run of `run` or
  `writeAgentFileAtomically` its promise stands for;
* `cleanupAgentOperations`, `runTrackedAgentOperation`, `runTrackedAgentFileWrite` — each is one
  turn of the event loop up to the first `await`;
* `AgentState.step` — requests, settlements and purges, in any order and with any clock;
* `agent_operations_execute_once` — the registrations make every request idempotent for as long
  as they are kept.
-/

/-! ### Operations -/

/-- `DockerCommandResult.outcome`. -/
inductive AgentOutcome
  | completed | failed | timedOut
  deriving DecidableEq, Repr

/-- `DockerCommandResult`. -/
structure DockerCommandResult where
  stdout : String
  stderr : String
  code : ℤ
  outcome : AgentOutcome
  deriving DecidableEq, Repr

/-- `AgentOperation.status`. -/
inductive AgentStatus
  | running
  | ended (outcome : AgentOutcome)
  deriving DecidableEq, Repr

inductive AgentOperationKind
  | dockerCommand | fileWrite
  deriving DecidableEq, Repr

/-- What a repeat of a request has to agree with. -/
structure AgentFingerprint where
  kind : AgentOperationKind
  commandSha256 : String
  timeoutMs : ℕ
  deriving DecidableEq, Repr

/-- An entry of `agentOperations`.  `promise` is the index of the execution whose settlement the
    promise waits for, and instants are milliseconds since the epoch, as `Date.now()` has them. -/
structure AgentOperation where
  operationId : String
  fingerprint : AgentFingerprint
  status : AgentStatus
  startedAt : ℤ
  completedAt : Option ℤ
  result : Option DockerCommandResult
  promise : ℕ
  deriving DecidableEq, Repr

/-- What a request asks for. -/
inductive AgentWork
  | dockerCommand (command : String) (timeoutMs : ℕ)
  | fileWrite (target content : String)
  deriving DecidableEq, Repr

/-- One call of `run` or of `writeAgentFileAtomically`, with what its promise settled with. -/
structure AgentExecution where
  operationId : String
  work : AgentWork
  settled : Option (Except String DockerCommandResult)

/-- The error of a request that reuses an operation id. -/
structure AgentError where
  message : String
  statusCode : ℕ
  code : String
  deriving DecidableEq, Repr

/-- What happens to operation ids, in order. -/
inductive AgentEvent
  /-- `execution` is started for `operationId`. -/
  | started (operationId : String) (execution : ℕ)
  /-- The entry is dropped from the map. -/
  | evicted (operation : AgentOperation)

/-- The agent process. -/
structure AgentState where
  operations : Table AgentOperation AgentOperation.operationId
  executions : List AgentExecution
  log : List AgentEvent

/-- The agent when it starts. -/
def AgentState.initial : AgentState := ⟨∅, [], []⟩

/-! ### Requests -/

/-- `AGENT_OPERATION_RETENTION_MS`. -/
def AGENT_OPERATION_RETENTION_MS : ℤ := 24 * 60 * 60000

/-- The entries that a purge at `now` drops. -/
def AgentOperation.expired (now : ℤ) (operation : AgentOperation) : Bool :=
  operation.status ≠ .running &&
    match operation.completedAt with
    | none => false
    | some completedAt => now - completedAt > AGENT_OPERATION_RETENTION_MS

def cleanupAgentOperations (now : ℤ) (s : AgentState) : AgentState :=
  { s with
    operations := s.operations.delete (AgentOperation.expired now)
    log := s.log ++ (s.operations.rows.filter (AgentOperation.expired now)).map .evicted }

section Requests

variable (sha256 : String → String)

/-- The fingerprint of a request.  A file write is hashed under its own tag and has a fixed
    timeout. -/
def AgentWork.fingerprint : AgentWork → AgentFingerprint
  | dockerCommand command timeoutMs => ⟨.dockerCommand, sha256 command, timeoutMs⟩
  | fileWrite target content =>
    ⟨.fileWrite, sha256 ("file-write\x00" ++ target ++ "\x00" ++ content), 30000⟩

/-- The work is started, and its promise is registered in the same turn. -/
def registerAgentOperation (operationId : String) (work : AgentWork) (startedAt : ℤ)
    (s : AgentState) : AgentState where
  operations := s.operations.insert
    { operationId, fingerprint := work.fingerprint sha256, status := .running, startedAt,
      completedAt := none, result := none, promise := s.executions.length }
  executions := s.executions ++ [⟨operationId, work, none⟩]
  log := s.log ++ [.started operationId s.executions.length]

/-- The common body of the two request functions: what is registered under the id is returned or
    refused, and nothing registered means that the work is started. -/
def runTracked (mismatch : String) (operationId : String) (work : AgentWork) (now startedAt : ℤ)
    (s : AgentState) : AgentState × Except AgentError ℕ :=
  let s := cleanupAgentOperations now s
  match s.operations.find operationId with
  | some existing =>
    if existing.fingerprint ≠ work.fingerprint sha256 then
      (s, .error ⟨mismatch, 409, "REMOTE_OPERATION_IDENTITY_MISMATCH"⟩)
    else (s, .ok existing.promise)
  | none => (registerAgentOperation sha256 operationId work startedAt s, .ok s.executions.length)

def runTrackedAgentOperation (operationId command : String) (timeoutMs : ℕ) :
    ℤ → ℤ → AgentState → AgentState × Except AgentError ℕ :=
  runTracked sha256 "Remote operation identity was reused with different command parameters"
    operationId (.dockerCommand command timeoutMs)

def runTrackedAgentFileWrite (operationId target content : String) :
    ℤ → ℤ → AgentState → AgentState × Except AgentError ℕ :=
  runTracked sha256 "Remote operation identity was reused with different file parameters"
    operationId (.fileWrite target content)

/-- A request, with the clock when the map is purged and when the entry is built. -/
structure AgentRequest where
  operationId : String
  work : AgentWork
  now : ℤ
  startedAt : ℤ

def AgentRequest.run (request : AgentRequest) (s : AgentState) :
    AgentState × Except AgentError ℕ :=
  match request.work with
  | .dockerCommand command timeoutMs =>
    runTrackedAgentOperation sha256 request.operationId command timeoutMs request.now
      request.startedAt s
  | .fileWrite target content =>
    runTrackedAgentFileWrite sha256 request.operationId target content request.now
      request.startedAt s

/-! ### Settlements -/

/-- What the promise of an execution settles with, from what `run` or `writeAgentFileAtomically`
    ended with, and the result that is written into the entry.  A rejected `run` leaves the entry
    as it is: `run(…).then` has one handler only. -/
def AgentWork.settle (ended : Except String DockerCommandResult) :
    AgentWork → Except String DockerCommandResult × Option DockerCommandResult
  | dockerCommand _ _ =>
    match ended with
    | .ok result => (.ok result, some result)
    | .error error => (.error error, none)
  | fileWrite _ _ =>
    match ended with
    | .ok _ => (.ok ⟨"", "", 0, .completed⟩, some ⟨"", "", 0, .completed⟩)
    | .error error => (.error error, some ⟨"", error, 1, .failed⟩)

/-- The assignments of the handlers. -/
def AgentOperation.finish (result : DockerCommandResult) (completedAt : ℤ)
    (operation : AgentOperation) : AgentOperation :=
  { operation with
    status := .ended result.outcome, completedAt := some completedAt, result := some result }

@[simp] theorem AgentOperation.finish_operationId (result : DockerCommandResult)
    (completedAt : ℤ) (operation : AgentOperation) :
    (operation.finish result completedAt).operationId = operation.operationId := rfl

/-- The handlers write into the entry that holds their promise. -/
def finishAgentOperation (index : ℕ) (completedAt : ℤ) (written : Option DockerCommandResult)
    (operations : Table AgentOperation AgentOperation.operationId) :
    Table AgentOperation AgentOperation.operationId :=
  match written with
  | none => operations
  | some result =>
    operations.update (fun operation => operation.promise = index)
      (AgentOperation.finish result completedAt) (AgentOperation.finish_operationId _ _)

/-- The execution with this index ends, unless it has. -/
def settleAgentExecution (index : ℕ) (ended : Except String DockerCommandResult)
    (completedAt : ℤ) (s : AgentState) : AgentState :=
  match s.executions[index]? with
  | none => s
  | some execution =>
    if execution.settled.isSome then s
    else
      let settled := execution.work.settle ended
      { s with
        operations := finishAgentOperation index completedAt settled.2 s.operations
        executions := s.executions.set index { execution with settled := some settled.1 } }

/-- What happens in the agent, with every choice of the environment. -/
inductive AgentOp
  | request (request : AgentRequest)
  /-- The process or the file write behind an execution ends. -/
  | settle (index : ℕ) (ended : Except String DockerCommandResult) (completedAt : ℤ)
  /-- `GET /api/operations/:id` purges too. -/
  | cleanup (now : ℤ)

def AgentState.step (s : AgentState) : AgentOp → AgentState
  | .request request => (request.run sha256 s).1
  | .settle index ended completedAt => settleAgentExecution index ended completedAt s
  | .cleanup now => cleanupAgentOperations now s

/-! ### What the log says -/

/-- The registration of `id` after one more event. -/
def AgentEvent.registration (id : String) (current : Option ℕ) : AgentEvent → Option ℕ
  | started operationId execution => if operationId = id then some execution else current
  | evicted operation => if operation.operationId = id then none else current

/-- The execution that is registered for `id` after a history. -/
def registered (log : List AgentEvent) (id : String) : Option ℕ :=
  log.foldl (AgentEvent.registration id) none

@[simp] theorem registered_append (log log' : List AgentEvent) (id : String) :
    registered (log ++ log') id = log'.foldl (AgentEvent.registration id) (registered log id) :=
  List.foldl_append

/-- A registration only goes away by an eviction. -/
theorem exists_evicted {id : String} {events : List AgentEvent} {execution : ℕ}
    (h : events.foldl (AgentEvent.registration id) (some execution) = none) :
    ∃ operation, AgentEvent.evicted operation ∈ events ∧ operation.operationId = id := by
  induction events generalizing execution with
  | nil => cases h
  | cons event events ih =>
    rw [List.foldl_cons] at h
    cases event with
    | started operationId execution' =>
      have hsome : ∃ e, AgentEvent.registration id (some execution)
          (.started operationId execution') = some e := by
        rw [AgentEvent.registration]
        split <;> exact ⟨_, rfl⟩
      obtain ⟨e, he⟩ := hsome
      rw [he] at h
      obtain ⟨operation, hmem, hid⟩ := ih h
      exact ⟨operation, List.mem_cons_of_mem _ hmem, hid⟩
    | evicted operation =>
      by_cases hid : operation.operationId = id
      · exact ⟨operation, List.mem_cons_self .., hid⟩
      · rw [AgentEvent.registration, if_neg hid] at h
        obtain ⟨operation', hmem, hid'⟩ := ih h
        exact ⟨operation', List.mem_cons_of_mem _ hmem, hid'⟩

/-- A list of evictions unregisters the ids it names. -/
theorem foldl_evicted {id : String} {operations : List AgentOperation} (current : Option ℕ) :
    (operations.map AgentEvent.evicted).foldl (AgentEvent.registration id) current =
      if operations.any (fun operation => operation.operationId = id) then none else current := by
  induction operations generalizing current with
  | nil => rfl
  | cons operation operations ih =>
    rw [List.map_cons, List.foldl_cons, ih, List.any_cons, AgentEvent.registration]
    by_cases hid : operation.operationId = id <;> simp [hid]

/-! ### The invariant -/

/-- An entry and the execution its promise stands for. -/
structure Stands (execution : AgentExecution) (operation : AgentOperation) : Prop where
  operationId : execution.operationId = operation.operationId
  fingerprint : execution.work.fingerprint sha256 = operation.fingerprint
  running : execution.settled = none → operation.status = .running
  result : ∀ result, execution.settled = some (.ok result) →
    operation.status = .ended result.outcome ∧ operation.result = some result

/-- The history tells of every execution, in the order in which they were started. -/
structure Told (log : List AgentEvent) (executions : List AgentExecution) : Prop where
  logged : ∀ {index execution}, executions[index]? = some execution →
    ∃ before after, log = before ++ .started execution.operationId index :: after
  ordered : ∀ {i j x y}, i < j → executions[i]? = some x → executions[j]? = some y →
    ∃ before between after, log = before ++ .started x.operationId i ::
      (between ++ .started y.operationId j :: after)

/-- What holds between the map, the executions and the history. -/
structure AgentState.Consistent (s : AgentState) : Prop where
  /-- The map is what the history left registered. -/
  registered : ∀ id, (s.operations.find id).map (·.promise) = registered s.log id
  /-- Work is started for ids that nothing is registered for. -/
  fresh : ∀ {before id execution after}, s.log = before ++ .started id execution :: after →
    ComposeBastion.registered before id = none
  ended : ∀ {operation}, .evicted operation ∈ s.log → operation.status ≠ .running
  stands : ∀ {operation}, operation ∈ s.operations →
    ∃ execution, s.executions[operation.promise]? = some execution ∧
      Stands sha256 execution operation
  told : Told s.log s.executions

/-- A start in a longer history was there before, or it is in what was appended. -/
theorem started_append {log events before after : List AgentEvent} {event : AgentEvent}
    (h : log ++ events = before ++ event :: after) :
    (∃ after', log = before ++ event :: after') ∨
      ∃ before', before = log ++ before' ∧ events = before' ++ event :: after := by
  rcases List.append_eq_append_iff.mp h with ⟨before', hbefore, hevents⟩ | ⟨rest, hlog, hrest⟩
  · exact Or.inr ⟨before', hbefore, hevents⟩
  · cases rest with
    | nil =>
      refine Or.inr ⟨[], ?_, ?_⟩
      · simpa using hlog.symm
      · simpa using hrest.symm
    | cons event' rest =>
      obtain ⟨rfl, -⟩ := List.cons.inj hrest
      exact Or.inl ⟨rest, hlog⟩

/-- A longer history of the same executions. -/
theorem Told.append {log : List AgentEvent} {executions : List AgentExecution}
    (h : Told log executions) (events : List AgentEvent) : Told (log ++ events) executions where
  logged hx := by
    obtain ⟨before, after, rfl⟩ := h.logged hx
    exact ⟨before, after ++ events, by simp⟩
  ordered hij hx hy := by
    obtain ⟨before, between, after, rfl⟩ := h.ordered hij hx hy
    exact ⟨before, between, after ++ events, by simp⟩

/-- A new execution comes last. -/
theorem Told.start {log : List AgentEvent} {executions : List AgentExecution}
    (h : Told log executions) (execution : AgentExecution) :
    Told (log ++ [.started execution.operationId executions.length])
      (executions ++ [execution]) where
  logged hx := by
    rcases getElem?_concat_cases hx with hx | ⟨rfl, rfl⟩
    · exact (h.append _).logged hx
    · exact ⟨log, [], rfl⟩
  ordered hij hx hy := by
    rcases getElem?_concat_cases hy with hy | ⟨rfl, rfl⟩
    · have hj := (List.getElem?_eq_some_iff.mp hy).1
      rw [List.getElem?_append_left (by omega)] at hx
      exact (h.append _).ordered hij hx hy
    · rw [List.getElem?_append_left hij] at hx
      obtain ⟨before, after, rfl⟩ := h.logged hx
      exact ⟨before, after, [], by simp⟩

/-- What became of an execution is not part of the history. -/
theorem Told.set {log : List AgentEvent} {executions : List AgentExecution}
    (h : Told log executions) {index : ℕ} {execution execution' : AgentExecution}
    (hget : executions[index]? = some execution)
    (hid : execution'.operationId = execution.operationId) :
    Told log (executions.set index execution') := by
  have hold : ∀ {i : ℕ} {x : AgentExecution}, (executions.set index execution')[i]? = some x →
      ∃ x₀, executions[i]? = some x₀ ∧ x₀.operationId = x.operationId := by
    intro i x hx
    by_cases hi : index = i
    · subst hi
      rw [List.getElem?_set_self (List.getElem?_eq_some_iff.mp hget).1] at hx
      cases hx
      exact ⟨execution, hget, hid.symm⟩
    · rw [List.getElem?_set_ne hi] at hx
      exact ⟨x, hx, rfl⟩
  constructor
  · intro i x hx
    obtain ⟨x₀, hx₀, hop⟩ := hold hx
    rw [← hop]
    exact h.logged hx₀
  · intro i j x y hij hx hy
    obtain ⟨x₀, hx₀, hop⟩ := hold hx
    obtain ⟨y₀, hy₀, hop'⟩ := hold hy
    rw [← hop, ← hop']
    exact h.ordered hij hx₀ hy₀

variable {sha256}

theorem AgentState.consistent_initial : AgentState.initial.Consistent sha256 where
  registered _ := rfl
  fresh h := by simp [AgentState.initial] at h
  ended h := by simp [AgentState.initial] at h
  stands h := absurd h (Table.not_mem_empty _)
  told := ⟨fun h => by simp [AgentState.initial] at h, fun _ h => by simp [AgentState.initial] at h⟩

theorem AgentOperation.not_running_of_expired {now : ℤ} {operation : AgentOperation}
    (h : operation.expired now = true) : operation.status ≠ .running := by
  unfold AgentOperation.expired at h
  simpa using (Bool.and_eq_true_iff.mp h).1

/-- An id is named by what a purge drops exactly when its entry is dropped. -/
theorem any_expired {t : Table AgentOperation AgentOperation.operationId} {id : String}
    (p : AgentOperation → Bool) :
    ((t.rows.filter p).any fun operation => operation.operationId = id) =
      ((t.find id).map p).getD false := by
  rw [Bool.eq_iff_iff, List.any_eq_true]
  cases hid : t.find id with
  | none =>
    have habsent := Table.find_eq_none.mp hid
    simp only [List.mem_filter, Table.mem_rows, decide_eq_true_eq, Option.map_none,
      Option.getD_none, Bool.false_eq_true, iff_false]
    rintro ⟨operation, ⟨hmem, -⟩, hop⟩
    exact habsent operation hmem hop
  | some operation =>
    obtain ⟨hmem, hop⟩ := Table.find_eq_some.mp hid
    simp only [List.mem_filter, Table.mem_rows, decide_eq_true_eq, Option.map_some,
      Option.getD_some]
    constructor
    · rintro ⟨operation', ⟨hmem', hp⟩, hop'⟩
      rwa [← Table.eq_of_key_eq hmem' hmem (hop'.trans hop.symm)]
    · intro hp
      exact ⟨operation, ⟨hmem, hp⟩, hop⟩

/-- **A purge keeps the invariant.** -/
theorem AgentState.Consistent.cleanup {s : AgentState} (h : s.Consistent sha256) (now : ℤ) :
    (cleanupAgentOperations now s).Consistent sha256 where
  registered id := by
    show ((s.operations.delete _).find id).map _ = _
    rw [cleanupAgentOperations, registered_append, foldl_evicted, any_expired, ← h.registered,
      Table.find_delete]
    cases s.operations.find id with
    | none => rfl
    | some operation => cases hp : operation.expired now <;> simp [hp]
  fresh hlog := by
    rcases started_append hlog with ⟨after', hlog'⟩ | ⟨before', -, hevents⟩
    · exact h.fresh hlog'
    · have hmem := hevents ▸ List.mem_append_right before' (List.mem_cons_self ..)
      simp at hmem
  ended hmem := by
    rcases List.mem_append.mp hmem with hmem | hmem
    · exact h.ended hmem
    · obtain ⟨operation, hop, heq⟩ := List.mem_map.mp hmem
      cases heq
      exact AgentOperation.not_running_of_expired (List.mem_filter.mp hop).2
  stands hmem := h.stands (Table.mem_delete.mp hmem).1
  told := h.told.append _

/-- **Registering an id keeps the invariant**, if nothing is registered under it. -/
theorem AgentState.Consistent.register {s : AgentState} (h : s.Consistent sha256)
    {operationId : String} (hnone : s.operations.find operationId = none) (work : AgentWork)
    (startedAt : ℤ) :
    (registerAgentOperation sha256 operationId work startedAt s).Consistent sha256 where
  registered id := by
    show ((s.operations.insert _).find id).map _ = _
    rw [Table.find_insert_of_fresh hnone, registerAgentOperation, registered_append,
      ← h.registered]
    by_cases hid : operationId = id <;> simp [AgentEvent.registration, hid]
  fresh {before id execution after} hlog := by
    rcases started_append hlog with ⟨after', hlog'⟩ | ⟨before', hbefore, hevents⟩
    · exact h.fresh hlog'
    · cases before' with
      | nil =>
        obtain ⟨heq, -⟩ := List.cons.inj hevents
        cases heq
        rw [hbefore, List.append_nil, ← h.registered, hnone]
        rfl
      | cons _ before' => simp at hevents
  ended hmem := by
    rcases List.mem_append.mp hmem with hmem | hmem
    · exact h.ended hmem
    · simp at hmem
  stands {operation} hmem := by
    rcases Table.mem_insert hmem with hmem | ⟨rfl, -⟩
    · obtain ⟨execution, hget, hstands⟩ := h.stands hmem
      exact ⟨execution, List.getElem?_append_left
        (List.getElem?_eq_some_iff.mp hget).1 ▸ hget, hstands⟩
    · exact ⟨⟨operationId, work, none⟩, by simp [registerAgentOperation],
        ⟨rfl, rfl, fun _ => rfl, fun _ hsettled => by cases hsettled⟩⟩
  told := h.told.start ⟨operationId, work, none⟩

/-- A settlement does nothing, or it ends an execution that was pending. -/
theorem settleAgentExecution_cases (index : ℕ) (ended : Except String DockerCommandResult)
    (completedAt : ℤ) (s : AgentState) :
    settleAgentExecution index ended completedAt s = s ∨
      ∃ execution, s.executions[index]? = some execution ∧ execution.settled = none ∧
        settleAgentExecution index ended completedAt s =
          { s with
            operations := finishAgentOperation index completedAt
              (execution.work.settle ended).2 s.operations
            executions := s.executions.set index
              { execution with settled := some (execution.work.settle ended).1 } } := by
  unfold settleAgentExecution
  cases hget : s.executions[index]? with
  | none => exact Or.inl rfl
  | some execution =>
    cases hsettled : execution.settled with
    | some _ => exact Or.inl (by simp [hsettled])
    | none => exact Or.inr ⟨execution, rfl, hsettled, by simp [hsettled]⟩

/-- What is written into an entry says what its promise was settled with. -/
theorem AgentWork.settle_result {work : AgentWork} {ended : Except String DockerCommandResult}
    {result : DockerCommandResult} (h : (work.settle ended).1 = .ok result) :
    (work.settle ended).2 = some result := by
  cases work <;> cases ended <;> simp_all [AgentWork.settle]

/-- A promise that is settled without anything being written has no result. -/
theorem Stands.settle_unwritten {execution : AgentExecution} {operation : AgentOperation}
    (h : Stands sha256 execution operation) {ended : Except String DockerCommandResult}
    (hw : (execution.work.settle ended).2 = none) :
    Stands sha256 { execution with settled := some (execution.work.settle ended).1 }
      operation where
  operationId := h.operationId
  fingerprint := h.fingerprint
  running hsettled := by cases hsettled
  result result hsettled := by
    have hsome := AgentWork.settle_result (Option.some.inj hsettled)
    rw [hw] at hsome
    cases hsome

/-- The result that is written is the result of the promise. -/
theorem Stands.settle_written {execution : AgentExecution} {operation : AgentOperation}
    (h : Stands sha256 execution operation) {ended : Except String DockerCommandResult}
    {written : DockerCommandResult} (hw : (execution.work.settle ended).2 = some written)
    (completedAt : ℤ) :
    Stands sha256 { execution with settled := some (execution.work.settle ended).1 }
      (operation.finish written completedAt) where
  operationId := h.operationId
  fingerprint := h.fingerprint
  running hsettled := by cases hsettled
  result result hsettled := by
    have hsome := AgentWork.settle_result (Option.some.inj hsettled)
    rw [hw] at hsome
    obtain rfl := Option.some.inj hsome
    exact ⟨rfl, rfl⟩

/-- An entry after a settlement comes from one with the same promise. -/
theorem mem_finishAgentOperation {index : ℕ} {completedAt : ℤ}
    {written : Option DockerCommandResult}
    {operations : Table AgentOperation AgentOperation.operationId} {operation : AgentOperation}
    (h : operation ∈ finishAgentOperation index completedAt written operations) :
    operation ∈ operations ∧ (operation.promise = index → written = none) ∨
      ∃ operation₀ ∈ operations, operation₀.promise = index ∧
        ∃ result, written = some result ∧ operation = operation₀.finish result completedAt := by
  cases written with
  | none => exact Or.inl ⟨h, fun _ => rfl⟩
  | some result =>
    rw [finishAgentOperation, Table.mem_update] at h
    obtain ⟨operation₀, hmem, hop⟩ := h
    by_cases hp : operation₀.promise = index
    · rw [decide_eq_true hp, if_pos rfl] at hop
      exact Or.inr ⟨operation₀, hmem, hp, result, rfl, hop.symm⟩
    · rw [decide_eq_false hp, if_neg (by simp)] at hop
      subst hop
      exact Or.inl ⟨hmem, fun hp' => absurd hp' hp⟩

/-- A settlement does not touch the registrations. -/
theorem find_finishAgentOperation (index : ℕ) (completedAt : ℤ)
    (written : Option DockerCommandResult)
    (operations : Table AgentOperation AgentOperation.operationId) (id : String) :
    ((finishAgentOperation index completedAt written operations).find id).map (·.promise) =
      (operations.find id).map (·.promise) := by
  cases written with
  | none => rfl
  | some result =>
    rw [finishAgentOperation, Table.find_update, Option.map_map]
    congr 1
    ext operation
    simp only [Function.comp_apply]
    split <;> rfl

/-- **A settlement keeps the invariant.** -/
theorem AgentState.Consistent.settle {s : AgentState} (h : s.Consistent sha256) (index : ℕ)
    (ended : Except String DockerCommandResult) (completedAt : ℤ) :
    (settleAgentExecution index ended completedAt s).Consistent sha256 := by
  rcases settleAgentExecution_cases index ended completedAt s with
    heq | ⟨execution, hget, -, heq⟩
  · rw [heq]
    exact h
  have hset : (s.executions.set index
      { execution with settled := some (execution.work.settle ended).1 })[index]? =
      some { execution with settled := some (execution.work.settle ended).1 } :=
    List.getElem?_set_self (List.getElem?_eq_some_iff.mp hget).1
  rw [heq]
  refine ⟨fun id => ?_, h.fresh, h.ended, fun {operation} hmem => ?_, h.told.set hget rfl⟩
  · show ((finishAgentOperation _ _ _ _).find id).map _ = _
    rw [find_finishAgentOperation]
    exact h.registered id
  · rcases mem_finishAgentOperation hmem with ⟨hold, hnone⟩ | ⟨op₀, hold, rfl, result, hw, rfl⟩
    · obtain ⟨execution', hget', hstands⟩ := h.stands hold
      by_cases hp : operation.promise = index
      · -- A rejected `run`: the entry stays as it is, and its promise has no result.
        subst hp
        obtain rfl := Option.some.inj (hget.symm.trans hget')
        exact ⟨_, hset, hstands.settle_unwritten (hnone rfl)⟩
      · exact ⟨execution', (List.getElem?_set_ne (Ne.symm hp)).trans hget', hstands⟩
    · obtain ⟨execution', hget', hstands⟩ := h.stands hold
      obtain rfl := Option.some.inj (hget.symm.trans hget')
      exact ⟨_, hset, hstands.settle_written hw completedAt⟩

/-! ### Requests and runs -/

variable (sha256) in
/-- What a request does: it only purges, and answers with what is registered, or it registers. -/
theorem AgentRequest.run_cases (request : AgentRequest) (s : AgentState) :
    let purged := cleanupAgentOperations request.now s
    (∃ existing, purged.operations.find request.operationId = some existing ∧
      (request.run sha256 s).1 = purged ∧
      (existing.fingerprint = request.work.fingerprint sha256 →
        (request.run sha256 s).2 = .ok existing.promise) ∧
      (existing.fingerprint ≠ request.work.fingerprint sha256 →
        ∃ error, (request.run sha256 s).2 = .error error ∧ error.statusCode = 409)) ∨
    purged.operations.find request.operationId = none ∧
      request.run sha256 s = (registerAgentOperation sha256 request.operationId request.work
        request.startedAt purged, .ok purged.executions.length) := by
  intro purged
  have hrun : ∃ mismatch, request.run sha256 s = runTracked sha256 mismatch request.operationId
      request.work request.now request.startedAt s := by
    unfold AgentRequest.run
    cases request.work <;> exact ⟨_, rfl⟩
  obtain ⟨mismatch, hrun⟩ := hrun
  rw [hrun]
  cases hfind : purged.operations.find request.operationId with
  | none => exact Or.inr ⟨rfl, by simp only [runTracked, purged, hfind]⟩
  | some existing =>
    refine Or.inl ⟨existing, rfl, ?_⟩
    by_cases hfp : existing.fingerprint = request.work.fingerprint sha256
    · simp [runTracked, hfind, hfp, purged]
    · simp [runTracked, hfind, hfp, purged]

/-- A request whose id is not registered starts its work and registers it. -/
theorem AgentRequest.run_unregistered (request : AgentRequest) {s : AgentState}
    (hnone : (cleanupAgentOperations request.now s).operations.find request.operationId = none) :
    (request.run sha256 s).1.executions =
        s.executions ++ [⟨request.operationId, request.work, none⟩] ∧
      (request.run sha256 s).2 = .ok s.executions.length ∧
      ∃ operation, (request.run sha256 s).1.operations.find request.operationId =
          some operation ∧ operation.status = .running ∧
        operation.fingerprint = request.work.fingerprint sha256 ∧
        operation.promise = s.executions.length := by
  rcases request.run_cases sha256 s with ⟨existing, hfind, -⟩ | ⟨-, hrun⟩
  · rw [hnone] at hfind
    cases hfind
  · rw [hrun]
    refine ⟨rfl, rfl, ⟨request.operationId, request.work.fingerprint sha256, .running,
      request.startedAt, none, none, s.executions.length⟩, ?_, rfl, rfl, rfl⟩
    exact (Table.find_insert_of_fresh hnone _).trans (if_pos rfl)

/-- **Every step keeps the invariant.** -/
theorem AgentState.Consistent.step {s : AgentState} (h : s.Consistent sha256) (op : AgentOp) :
    (s.step sha256 op).Consistent sha256 := by
  cases op with
  | request request =>
    rcases request.run_cases sha256 s with ⟨existing, -, hrun, -⟩ | ⟨hnone, hrun⟩
    · show (request.run sha256 s).1.Consistent sha256
      rw [hrun]
      exact h.cleanup request.now
    · show (request.run sha256 s).1.Consistent sha256
      rw [hrun]
      exact (h.cleanup request.now).register hnone request.work request.startedAt
  | settle index ended completedAt => exact h.settle index ended completedAt
  | cleanup now => exact h.cleanup now

theorem AgentState.consistent_exec (ops : List AgentOp) :
    (exec (AgentState.step sha256) .initial ops).Consistent sha256 :=
  exec_invariant (fun _ op h => h.step op) consistent_initial ops

/-- What an execution was settled with stays. -/
theorem settled_step {s : AgentState} {index : ℕ} {execution : AgentExecution}
    (hget : s.executions[index]? = some execution) (hsettled : execution.settled ≠ none)
    (op : AgentOp) : (s.step sha256 op).executions[index]? = some execution := by
  cases op with
  | request request =>
    have hlt := (List.getElem?_eq_some_iff.mp hget).1
    rcases request.run_cases sha256 s with ⟨existing, -, hrun, -⟩ | ⟨-, hrun⟩
    · show (request.run sha256 s).1.executions[index]? = _
      rw [hrun]
      exact hget
    · show (request.run sha256 s).1.executions[index]? = _
      rw [hrun]
      exact (List.getElem?_append_left hlt).trans hget
  | settle index' ended completedAt =>
    show (settleAgentExecution index' ended completedAt s).executions[index]? = _
    rcases settleAgentExecution_cases index' ended completedAt s with
      heq | ⟨execution', hget', hpending, heq⟩
    · rw [heq]
      exact hget
    · have hne : index' ≠ index := by
        rintro rfl
        obtain rfl := Option.some.inj (hget.symm.trans hget')
        exact hsettled hpending
      rw [heq]
      exact (List.getElem?_set_ne hne).trans hget
  | cleanup now => exact hget

/-- An entry whose promise is pending stays registered with that promise. -/
theorem running_step {s : AgentState} {operation : AgentOperation}
    (hfind : s.operations.find operation.operationId = some operation)
    (hrunning : operation.status = .running) (op : AgentOp) :
    ∃ operation', (s.step sha256 op).operations.find operation.operationId = some operation' ∧
      operation'.promise = operation.promise := by
  have hkept : ∀ now, (cleanupAgentOperations now s).operations.find operation.operationId =
      some operation := by
    intro now
    show (s.operations.delete _).find _ = _
    have hspared : operation.expired now = false := by
      rw [← Bool.not_eq_true]
      exact fun hexpired => AgentOperation.not_running_of_expired hexpired hrunning
    rw [Table.find_delete, hfind, Option.filter_some, hspared]
    rfl
  cases op with
  | request request =>
    rcases request.run_cases sha256 s with ⟨existing, -, hrun, -⟩ | ⟨hnone, hrun⟩
    · show ∃ operation', (request.run sha256 s).1.operations.find _ = _ ∧ _
      rw [hrun]
      exact ⟨operation, hkept _, rfl⟩
    · show ∃ operation', (request.run sha256 s).1.operations.find _ = _ ∧ _
      rw [hrun]
      exact ⟨operation, Table.find_insert_of_some (hkept _), rfl⟩
  | settle index ended completedAt =>
    have hpromise : ((settleAgentExecution index ended completedAt s).operations.find
        operation.operationId).map (·.promise) = some operation.promise := by
      rcases settleAgentExecution_cases index ended completedAt s with heq | ⟨x, -, -, heq⟩
      · rw [heq, hfind, Option.map_some]
      · rw [heq, find_finishAgentOperation, hfind, Option.map_some]
    obtain ⟨operation', hfind', hp⟩ := Option.map_eq_some_iff.mp hpromise
    exact ⟨operation', hfind', hp⟩
  | cleanup now => exact ⟨operation, hkept now, rfl⟩

/-- Two executions for one id have an eviction of that id between them. -/
theorem AgentState.Consistent.evicted_between {s : AgentState} (h : s.Consistent sha256) {i j : ℕ}
    {x y : AgentExecution} (hij : i < j) (hx : s.executions[i]? = some x)
    (hy : s.executions[j]? = some y) (hid : x.operationId = y.operationId) :
    ∃ before between after, s.log = before ++ .started x.operationId i ::
        (between ++ .started y.operationId j :: after) ∧
      ∃ operation, .evicted operation ∈ between ∧ operation.operationId = x.operationId := by
  obtain ⟨before, between, after, hlog⟩ := h.told.ordered hij hx hy
  refine ⟨before, between, after, hlog, ?_⟩
  have hfresh : ComposeBastion.registered
      (before ++ .started x.operationId i :: between) y.operationId = none :=
    h.fresh (hlog.trans (by rw [List.append_assoc, List.cons_append]))
  rw [registered_append, List.foldl_cons, AgentEvent.registration, if_pos hid, ← hid] at hfresh
  exact exists_evicted hfresh

variable (sha256)

end Requests

end ComposeBastion
