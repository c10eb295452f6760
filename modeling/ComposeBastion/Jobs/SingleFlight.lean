import ComposeBastion.Recovery.Admission

namespace ComposeBastion

open Js (toLowerCase)

/-!
# Single flight: admission of direct jobs

`singleFlightScope`, `findActiveSingleFlightJob`, `enqueueJobInTransaction` and the admission
part of `retryJob` in `services/jobs.ts`.

A request is compared with the jobs its single-flight scope selects by type and host.  The
host condition is one of two: a scope with `hostId` takes the jobs of that host, one with
`hostIds` also takes the jobs whose payload names one of them as `targetHostId`.  The Compose
jobs have the first kind, although their Docker scope is compared like any other.
-/

/-! ### Payload fields -/

/-- `payload.analysisId`. -/
def ActionPayload.analysisId : ActionPayload → Option Id
  | .deployAnalyze id => some id
  | .deployExecute id => some id
  | _ => none

/-- `payload.stackId`. -/
def ActionPayload.stackId : ActionPayload → Option Id
  | .composeDeploy id => some id
  | .composeStop id => some id
  | .composeRemove id => some id
  | _ => none

/-- `payload.registry`. -/
def ActionPayload.registry : ActionPayload → Option String
  | .hostConfigureRegistryTrust registry => some registry
  | _ => none

/-- `.replace(/^https?:\/\//i, "")` on characters. -/
def dropHttpScheme (cs : List Char) : List Char :=
  let low := cs.map Char.toLower
  if "https://".toList.isPrefixOf low then cs.drop 8
  else if "http://".toList.isPrefixOf low then cs.drop 7
  else cs

section

variable [Js.CaseMapping] (inventory : Inventory)

/-- `normalizedRegistry`. -/
def normalizedRegistry (value : String) : String :=
  toLowerCase (String.ofList
    ((dropHttpScheme (Js.trim value).toList).reverse.dropWhile (· == '/')).reverse)

/-! ### Single-flight scopes -/

/-- `SingleFlightScope`.  The Docker scope of the source record is always the resolved one, so
    it is not repeated here. -/
structure SingleFlightScope where
  keys : List String
  types : List JobType
  hostId : Option Id
  hostIds : List Id
  matchesRow : JobRow → Bool
  conflictMessage : String

/-- `singleFlightScope`. -/
def singleFlightScope (hostId : Id) (payload : ActionPayload) : Option SingleFlightScope :=
  match payload with
  | .systemSelfUpdate => some
      { keys := ["system.self_update"], types := [.systemSelfUpdate], hostId := none, hostIds := []
        matchesRow := fun _ => true
        conflictMessage := "A ComposeBastion self-update is already queued or running." }
  | .deployAnalyze analysisId => some (deploymentScope analysisId)
  | .deployExecute analysisId => some (deploymentScope analysisId)
  | .hostConfigureRegistryTrust registry => some
      { keys := ["registry-trust:" ++ hostId ++ ":" ++ normalizedRegistry registry]
        types := [.hostConfigureRegistryTrust], hostId := some hostId, hostIds := []
        matchesRow := fun row =>
          normalizedRegistry (row.payload.registry.getD "") == normalizedRegistry registry
        conflictMessage :=
          "Registry trust configuration for this host and registry is already queued or running." }
  | .composeDeploy stackId => some (composeScope stackId)
  | .composeStop stackId => some (composeScope stackId)
  | .composeRemove stackId => some (composeScope stackId)
  | payload =>
    (dockerMutationScope hostId payload).map fun scope =>
      { keys := dockerMutationAdmissionKeys scope
        types := reconcilableDockerMutationTypes, hostId := none, hostIds := scope.hostIds
        matchesRow := fun row => (dockerMutationScope (row.hostId.getD "") row.payload).any
          (dockerMutationScopesConflict scope)
        conflictMessage :=
          "Another remote mutation for the same Docker resource, host path, or Compose project is already queued or running." }
where
  deploymentScope (analysisId : Id) : SingleFlightScope :=
    { keys := ["deployment:" ++ analysisId]
      types := [.deployAnalyze, .deployExecute], hostId := none, hostIds := []
      matchesRow := fun row => row.payload.analysisId == some analysisId
      conflictMessage :=
        "This deployment already has an analysis or deployment job queued or running." }
  composeScope (stackId : Id) : SingleFlightScope :=
    { keys := ["compose-stack:" ++ hostId ++ ":" ++ stackId]
      types := [.composeDeploy, .composeStop, .composeRemove]
      hostId := some hostId, hostIds := []
      matchesRow := fun row => row.payload.stackId == some stackId
      conflictMessage :=
        "This Compose stack already has a deployment, stop, or removal job queued or running." }

/-- The scope once the Docker scope of the action is resolved: its hosts and keys are added,
    and every cross-target type is selected. -/
def SingleFlightScope.resolve (scope : SingleFlightScope) :
    Option DockerMutationScope → SingleFlightScope
  | none => scope
  | some resolved =>
    { scope with
      hostIds := resolved.hostIds
      keys := sortedUnique (scope.keys ++ dockerMutationAdmissionKeys resolved)
      types := (scope.types ++ crossTargetJobTypes).dedup }

omit [Js.CaseMapping] in
/-- `type = ANY($1::text[])` and the host predicate. -/
def SingleFlightScope.selects (scope : SingleFlightScope) (row : JobRow) : Bool :=
  scope.types.contains row.type
    && match scope.hostId with
      | some hostId => row.hostId == some (uuidText hostId)
      | none => scope.hostIds.isEmpty || onHosts scope.hostIds row

/-- Whether the Docker scope of a job collides with the requested one. -/
def conflictsWith (requested : Option DockerMutationScope) (row : JobRow) : Bool :=
  requested.any fun scope =>
    (canonicalJobScope inventory row).any (dockerMutationScopesConflict scope)

/-- `matches`, for a job the SQL condition selects. -/
def SingleFlightScope.isMatch (scope : SingleFlightScope) (requested : Option DockerMutationScope)
    (row : JobRow) : Bool :=
  scope.selects row && (scope.matchesRow row || conflictsWith inventory requested row)

/-- The active job that stands in the way. -/
def activeMatch (s : AdmissionState) (scope : SingleFlightScope)
    (requested : Option DockerMutationScope) : Option JobRow :=
  s.base.jobs.rows.find? fun row => row.status.active && scope.isMatch inventory requested row

/-- The failed job with an unknown remote outcome that stands in the way, latest first. -/
def ambiguousMatch (s : AdmissionState) (scope : SingleFlightScope)
    (requested : Option DockerMutationScope) : Option JobRow :=
  ((s.base.jobs.rows.filter fun row => row.status == .failed && ambiguousError row.error).insertionSort
    fun a b => b.completedAt.getD 0 ≤ a.completedAt.getD 0).find?
      fun row => isUnreconciledRemoteOutcome row && scope.isMatch inventory requested row

/-- `findActiveSingleFlightJob`: the active job an idempotent request repeats, `none` when the
    request may be inserted, or the conflict it is refused with. -/
def findActiveSingleFlightJob (s : AdmissionState) (hostId : Id) (payload : ActionPayload)
    (idempotencyKey : Option String) (revivedJobId : Option Id) :
    Except AdmissionError (Option JobRow) :=
  match singleFlightScope hostId payload with
  | none => .ok none
  | some initial =>
    let resolved := resolveDockerMutationScopeForJob inventory hostId payload
    let scope := initial.resolve resolved
    let requested := resolved.map (canonicalizeDockerMutationScope inventory)
    match requested.elim (.ok ()) (assertDockerMutationDoesNotConflictWithRecovery inventory s) with
    | .error error => .error error
    | .ok () =>
      match activeMatch inventory s scope requested with
      | some row =>
        if revivedJobId == some row.id then .ok (some row)
        else if idempotencyKey.any (· ≠ "") && row.idempotencyKey == idempotencyKey then
          .ok (some row)
        else .error ⟨scope.conflictMessage, some row.id⟩
      | none =>
        match ambiguousMatch inventory s scope requested with
        | some row => .error
            ⟨"A prior remote operation on this target has an unknown outcome. ComposeBastion will unlock it only after bounded quiescence and authoritative target reconciliation.",
              some row.id⟩
        | none => .ok none

/-! ### Inserting jobs -/

omit [Js.CaseMapping] in
/-- `actionHostIds`. -/
def actionHostIds (hostId : Id) (payload : ActionPayload) : List Id :=
  sortedUnique (hostId :: payload.targetHostId.toList)

omit [Js.CaseMapping] in
/-- The check of `lockJobHostsForEnqueue`: every host is there and not deleted. -/
def jobHostsAvailable (hostId : Id) (payload : ActionPayload) : Bool :=
  (inventory.hosts.filter
      ((actionHostIds hostId payload).map uuidText).contains).length
    == (actionHostIds hostId payload).length

omit [Js.CaseMapping] in
/-- `INSERT … ON CONFLICT (idempotency_key) DO UPDATE SET id = operation_jobs.id`. -/
def insertJob (jobs : JobTable) (row : JobRow) : JobTable :=
  if row.idempotencyKey.isSome
      && jobs.rows.any (fun existing => existing.idempotencyKey == row.idempotencyKey) then jobs
  else jobs.insert row

/-- `enqueueJob`; a refused request leaves the state as it is. -/
def enqueueJob (s : AdmissionState) (id : Id) (action : DockerActionRequest)
    (idempotencyKey : Option String) : AdmissionState :=
  if jobHostsAvailable inventory action.hostId action.payload then
    match findActiveSingleFlightJob inventory s action.hostId action.payload idempotencyKey none with
    | .ok none =>
      { s with base.jobs :=
          insertJob s.base.jobs (jobInsert s.base.clock id action idempotencyKey) }
    | _ => s
  else s

/-- `retryJob`, with the checks on registries, analyses and recovery rows as `admitted`. -/
def retryAdmittedJob (s : AdmissionState) (id : Id) (admitted : Bool) : AdmissionState :=
  match s.base.jobs.find id with
  | none => s
  | some row =>
    if canRetryJob row && admitted then
      match findActiveSingleFlightJob inventory s (row.hostId.getD "") row.payload none (some id) with
      | .ok _ => { s with base.jobs := requeueJob s.base.clock id s.base.jobs }
      | .error _ => s
    else s

end

end ComposeBastion
