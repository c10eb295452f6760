import ComposeBastion.Recovery.Executors

namespace ComposeBastion

open Program

/-!
# What an executor owes its source

The executors of `Executors.lean` stop containers and start them again, record the ids to start in
the recovery point and take them out of it.  Whether taking one out is in order depends on the
executor's own commands only:

* `RestartKnowledge` — the ids it has recorded, and those it owes a start: stopped by it, as far as
  it can tell, and not started since;
* `Asks` — a statement that takes ids out must leave every recorded id the executor owes;
* `runRecoveryCreate_asks`, `runMigrationExecute_asks` — both executors keep to that, whatever their
  awaits answer.
-/

/-- What the executor has recorded, and what it owes. -/
structure RestartKnowledge where
  recorded : List ContainerId
  owed : List ContainerId

/-- What an answer adds.  A stop whose outcome is open counts as one that took effect, a stop that
    Docker refused does not. -/
def RestartKnowledge.learn (k : RestartKnowledge) :
    (request : Request) → Answer request → RestartKnowledge
  | .statement _ statement, _ => { k with recorded := k.recorded ++ statement.records }
  | .stop _, .ok false => k
  | .stop id, _ => { k with owed := id :: k.owed }
  | .start id, .ok true => { k with owed := k.owed.filter (· ≠ id) }
  | _, _ => k

/-- Every recorded id that is owed is among `ids`. -/
def RestartKnowledge.OwesOnly (k : RestartKnowledge) (ids : List ContainerId) : Prop :=
  ∀ id ∈ k.recorded, id ∈ k.owed → id ∈ ids

/-- What a request asks for. -/
def Asks (k : RestartKnowledge) : Request → Prop
  | .statement _ (.recordObligation _ containerIds) => k.recorded = [] ∧ containerIds ≠ []
  | .statement _ (.resolve _ _ resolution _) =>
    resolution = .intentionallyLeftStopped ∨ k.OwesOnly []
  | .statement _ (.arm _ containerIds _ _ _) => containerIds ≠ [] ∧ k.OwesOnly containerIds
  | _ => True

/-- Requests that neither stop, start nor write to the point. -/
def Request.isNeutral : Request → Prop
  | .statement _ _ | .stop _ | .start _ => False
  | _ => True

/-- A part of an executor, from what it knows: `Q` where it returns, `E` where it throws. -/
abbrev AsksIn {ε α : Type} (p : Program Request Answer ε α) (Q : α → RestartKnowledge → Prop)
    (E : ε → RestartKnowledge → Prop) (k : RestartKnowledge) : Prop :=
  p.Holds Asks RestartKnowledge.learn Q E k

section Specs

variable {k : RestartKnowledge}

/-! ### Single requests -/

theorem learn_neutral {request : Request} (h : request.isNeutral) (answer : Answer request) :
    k.learn request answer = k := by
  cases request <;> first | rfl | exact h.elim

theorem asks_neutral {request : Request} (h : request.isNeutral) : Asks k request := by
  cases request <;> trivial

/-- A program that neither stops, starts nor writes to the point changes nothing that is known. -/
theorem asksIn_of_issues {ε α : Type} {p : Program Request Answer ε α}
    (h : p.Issues Request.isNeutral) : AsksIn p (fun _ k' => k' = k) (fun _ k' => k' = k) k :=
  h.holds (fun _ => asks_neutral) fun _ answer hok => learn_neutral hok answer

theorem issues_awaited {request : Request} (h : request.isNeutral) :
    (awaited request).Issues Request.isNeutral := by
  refine issues_await.mpr ⟨h, fun answer => ?_⟩
  cases answer <;> trivial

/-- A fault that names no container and no cleanup. -/
def Fault.isPlain (e : Fault) : Prop :=
  e.sourceStoppedIds = none ∧ e.restartFailedIds = none ∧ e.cleanupRequired = none

/-- An await of the neutral kind. -/
theorem asksIn_awaited {request : Request} (h : request.isNeutral)
    {Q : Value request → RestartKnowledge → Prop} {E : Fault → RestartKnowledge → Prop}
    (hQ : ∀ value, Q value k) (hE : ∀ e : Fault, e.isPlain → E e k) :
    AsksIn (awaited request) Q E k := by
  refine ⟨asks_neutral h, fun answer => ?_⟩
  rw [learn_neutral h]
  cases answer with
  | ok value => exact hQ value
  | error thrown => exact hE _ ⟨rfl, rfl, rfl⟩

/-- What is known once a statement was issued. -/
def RestartKnowledge.record (k : RestartKnowledge) (statement : RestartStatement) :
    RestartKnowledge :=
  { k with recorded := k.recorded ++ statement.records }

theorem record_eq_self {statement : RestartStatement} (h : statement.records = []) :
    k.record statement = k := by
  unfold RestartKnowledge.record
  rw [h, List.append_nil]

theorem statementUpdating_asks {fenced : Bool} {statement : RestartStatement}
    (h : Asks k (.statement fenced statement)) :
    AsksIn (statementUpdating fenced statement) (fun _ k' => k' = k.record statement)
      (fun e k' => k' = k.record statement ∧ e.isPlain) k := by
  refine ⟨h, fun answer => ?_⟩
  rcases answer with thrown | updated
  · exact ⟨rfl, rfl, rfl, rfl⟩
  · cases updated
    · exact ⟨rfl, rfl, rfl, rfl⟩
    · exact rfl

/-! ### Starting and stopping -/

/-- What is known after commands that only start containers. -/
def RestartKnowledge.Shrinks (k k' : RestartKnowledge) : Prop :=
  k'.recorded = k.recorded ∧ ∀ id ∈ k'.owed, id ∈ k.owed

theorem RestartKnowledge.Shrinks.refl (k : RestartKnowledge) : k.Shrinks k :=
  ⟨rfl, fun _ h => h⟩

theorem RestartKnowledge.Shrinks.owesOnly {k k' : RestartKnowledge} (h : k.Shrinks k')
    {ids : List ContainerId} (hk : k.OwesOnly ids) : k'.OwesOnly ids :=
  fun id hrecorded howed => hk id (h.1 ▸ hrecorded) (h.2 id howed)

theorem startEach_asks (ids : List ContainerId) :
    ∀ (failures : List ContainerId) (k : RestartKnowledge), AsksIn (startEach failures ids)
      (fun failed k' => k.Shrinks k' ∧ (∀ id ∈ failures, id ∈ failed)
        ∧ ∀ id ∈ ids, id ∈ k'.owed → id ∈ failed)
      (fun _ _ => False) k := by
  induction ids with
  | nil => exact fun failures k => ⟨.refl k, fun _ h => h, fun id hid => by cases hid⟩
  | cons id ids ih =>
    intro failures k
    -- the start failed: the id goes to the failures and nothing else is learned
    have hfailed : AsksIn (startEach (failures ++ [id]) ids)
        (fun failed k' => k.Shrinks k' ∧ (∀ id ∈ failures, id ∈ failed)
          ∧ ∀ id' ∈ id :: ids, id' ∈ k'.owed → id' ∈ failed) (fun _ _ => False) k := by
      refine (ih (failures ++ [id]) k).imp (fun failed k' h => ?_) fun _ _ h => h
      obtain ⟨hshrinks, hfailures, hids⟩ := h
      refine ⟨hshrinks, fun id' hid' => hfailures id' (List.mem_append_left _ hid'), ?_⟩
      intro id' hid' howed
      rcases List.mem_cons.mp hid' with rfl | hid'
      · exact hfailures id' (List.mem_append_right _ List.mem_cons_self)
      · exact hids id' hid' howed
    refine ⟨trivial, fun answer => ?_⟩
    rcases answer with thrown | succeeded
    · exact hfailed
    · cases succeeded
      · exact hfailed
      · refine (ih failures _).imp (fun failed k' h => ?_) fun _ _ h => h
        obtain ⟨hshrinks, hfailures, hids⟩ := h
        refine ⟨⟨hshrinks.1, fun id' hid' => (List.mem_filter.mp (hshrinks.2 id' hid')).1⟩,
          hfailures, ?_⟩
        intro id' hid' howed
        rcases List.mem_cons.mp hid' with rfl | hid'
        · have hne := (List.mem_filter.mp (hshrinks.2 id' howed)).2
          simp at hne
        · exact hids id' hid' howed

theorem startContainersOneByOne_asks (ids : List ContainerId) :
    AsksIn (startContainersOneByOne ids)
      (fun _ k' => k.Shrinks k' ∧ ∀ id ∈ ids, id ∉ k'.owed)
      (fun e k' => k.Shrinks k' ∧ ∃ failed, e = { restartFailedIds := some failed }
        ∧ failed ≠ [] ∧ ∀ id ∈ ids, id ∈ k'.owed → id ∈ failed) k := by
  refine holds_do.mpr ((startEach_asks ids [] k).imp (fun failed k' h => ?_) fun _ _ h => h.elim)
  obtain ⟨hshrinks, -, hids⟩ := h
  cases failed with
  | nil => exact ⟨hshrinks, fun id hid howed => by cases hids id hid howed⟩
  | cons id failed => exact ⟨hshrinks, id :: failed, rfl, List.cons_ne_nil _ _, hids⟩

theorem stopContainersOneByOne_asks (ids : List ContainerId) :
    ∀ (stopped : List ContainerId) (k : RestartKnowledge), (∀ id ∈ k.owed, id ∈ stopped) →
      AsksIn (stopContainersOneByOne stopped ids) (fun _ k' => k'.recorded = k.recorded)
        (fun e k' => k'.recorded = k.recorded ∧ ∃ stopped', e = { stoppedIds := some stopped' }
          ∧ ∀ id ∈ k'.owed, id ∈ stopped') k := by
  induction ids with
  | nil => exact fun _ _ _ => rfl
  | cons id ids ih =>
    intro stopped k howed
    have hnext : ∀ id' ∈ id :: k.owed, id' ∈ stopped ++ [id] := by
      intro id' hid'
      rcases List.mem_cons.mp hid' with rfl | hid'
      · exact List.mem_append_right _ List.mem_cons_self
      · exact List.mem_append_left _ (howed id' hid')
    refine ⟨trivial, fun answer => ?_⟩
    rcases answer with thrown | succeeded
    · exact ⟨rfl, stopped ++ [id], rfl, hnext⟩
    · cases succeeded
      · exact ⟨rfl, stopped, rfl, howed⟩
      · exact ih (stopped ++ [id]) { k with owed := id :: k.owed } hnext

/-- What a failed stop leaves: the containers of `restartIds` that are still owed a start are the
    ones the error names. -/
theorem stopContainersWithRestartOnFailure_asks (containerIds restartIds : List ContainerId)
    (howed : k.owed = []) :
    AsksIn (stopContainersWithRestartOnFailure containerIds restartIds)
      (fun _ k' => k'.recorded = k.recorded)
      (fun e k' => k'.recorded = k.recorded ∧ e.sourceStoppedIds = none ∧ e.cleanupRequired = none
        ∧ ∀ id ∈ restartIds, id ∈ k'.owed → id ∈ e.restartFailedIds.getD []) k := by
  refine holds_tryCatch.mpr ((stopContainersOneByOne_asks containerIds [] k (by simp [howed])).imp
    (fun _ _ h => h) fun error k₁ h => ?_)
  obtain ⟨hrecorded, stopped, rfl, hstopped⟩ := h
  show AsksIn (if _ then _ else _) _ _ _
  by_cases hempty : (restartIds.filter (· ∈ stopped)).isEmpty = true
  · -- nothing was stopped that has to be started
    rw [if_pos (by simpa using hempty)]
    refine ⟨hrecorded, rfl, rfl, fun id hid howed => ?_⟩
    have hmem : id ∈ restartIds.filter (· ∈ stopped) :=
      List.mem_filter.mpr ⟨hid, by simpa using hstopped id howed⟩
    rw [List.isEmpty_iff.mp hempty] at hmem
    cases hmem
  · rw [if_neg (by simpa using hempty)]
    have hrestart : ∀ {k₂ : RestartKnowledge}, k₁.Shrinks k₂ → ∀ id ∈ restartIds, id ∈ k₂.owed →
        id ∈ restartIds.filter (· ∈ stopped) := by
      intro k₂ hshrinks id hid howed
      exact List.mem_filter.mpr ⟨hid, by simpa using hstopped id (hshrinks.2 id howed)⟩
    refine holds_attempt.mpr ((startContainersOneByOne_asks _).imp (fun _ k₂ h => ?_)
      fun e k₂ h => ?_)
    · obtain ⟨hshrinks, hstarted⟩ := h
      exact ⟨hshrinks.1.trans hrecorded, rfl, rfl, fun id hid howed =>
        absurd howed (hstarted id (hrestart hshrinks id hid howed))⟩
    · obtain ⟨hshrinks, failed, rfl, -, hfailed⟩ := h
      exact ⟨hshrinks.1.trans hrecorded, rfl, rfl, fun id hid howed =>
        hfailed id (hrestart hshrinks id hid howed) howed⟩

/-! ### The capture -/

theorem resolve_asks {sourceLeftStopped : Bool} {containerIds : List ContainerId}
    {resolution : RestartResolution} {durable : Bool} {token : Option Id}
    (h : resolution = .intentionallyLeftStopped ∨ k.OwesOnly []) :
    AsksIn (resolveRecoverySourceRestartObligation sourceLeftStopped containerIds resolution durable
      token) (fun _ k' => k' = k) (fun e k' => k' = k ∧ e.isPlain) k := by
  have hrecord : k.record (.resolve sourceLeftStopped containerIds resolution token) = k :=
    record_eq_self rfl
  refine holds_tryCatch.mpr ((statementUpdating_asks (by exact h)).imp (fun _ _ hk => hk.trans hrecord)
    fun fencedError k₁ hk => ?_)
  obtain ⟨rfl, hplain⟩ := hk
  rw [hrecord]
  split
  · exact ⟨rfl, hplain⟩
  · refine holds_attempt.mpr ⟨h, fun answer => ?_⟩
    have hlearn : k.learn (.statement false (.resolve sourceLeftStopped containerIds resolution
        token)) answer = k := hrecord
    rw [hlearn]
    cases answer with
    | error thrown => exact ⟨rfl, rfl, rfl, rfl⟩
    | ok updated => exact ⟨rfl, hplain⟩

/-- A statement that records no id, outside of the fence and with what follows it. -/
theorem asksIn_statement {statement : RestartStatement} {fenced : Bool}
    (h : Asks k (.statement fenced statement)) (hrecords : statement.records = [])
    {Q : Bool → RestartKnowledge → Prop} {E : Fault → RestartKnowledge → Prop}
    (hQ : ∀ updated, Q updated k) (hE : ∀ e : Fault, e.isPlain → E e k) :
    AsksIn (awaited (.statement fenced statement)) Q E k := by
  refine ⟨h, fun answer => ?_⟩
  have hlearn : k.learn (.statement fenced statement) answer = k := record_eq_self hrecords
  rw [hlearn]
  cases answer with
  | error thrown => exact hE _ ⟨rfl, rfl, rfl⟩
  | ok updated => exact hQ updated

theorem stopForBackup_asks (token : Id) (containerIds : List ContainerId)
    {restartContainerIds : List ContainerId} (hids : restartContainerIds ≠ [])
    (hk : k.recorded = [] ∧ k.owed = []) :
    AsksIn (stopForBackup token containerIds restartContainerIds)
      (fun _ k' => k'.recorded = restartContainerIds)
      (fun e k' => (k'.recorded = [] ∨ k'.recorded = restartContainerIds)
        ∧ e.sourceStoppedIds = none ∧ e.cleanupRequired = none
        ∧ k'.OwesOnly (e.restartFailedIds.getD [])) k := by
  have hnothing : k.OwesOnly [] := fun id hid => by simp [hk.1] at hid
  -- a plain error of an await before anything is stopped
  have hplain : ∀ {e : Fault} {k' : RestartKnowledge}, e.isPlain → k'.owed = [] →
      k'.OwesOnly (e.restartFailedIds.getD []) := by
    intro e k' _ howed id _ hid
    simp [howed] at hid
  refine holds_do.mpr (asksIn_awaited (by trivial) (fun _ => ?_) fun e he =>
    ⟨.inl hk.1, he.1, he.2.2, hplain he hk.2⟩)
  have hrecord : (k.record (.recordObligation token restartContainerIds)).recorded
      = restartContainerIds := by
    show k.recorded ++ restartContainerIds = restartContainerIds
    rw [hk.1, List.nil_append]
  refine holds_do.mpr ((statementUpdating_asks (by exact ⟨hk.1, hids⟩)).imp (fun _ k₁ h => ?_)
    fun e k₁ h => ?_)
  · subst h
    refine holds_tryCatch.mpr ((stopContainersWithRestartOnFailure_asks
      (k := k.record (.recordObligation token restartContainerIds)) containerIds
      restartContainerIds hk.2).imp (fun _ _ h => h.trans hrecord) fun stopError k₂ h => ?_)
    obtain ⟨hrecorded, hstopped, hcleanup, howed⟩ := h
    have howes : k₂.OwesOnly (stopError.restartFailedIds.getD []) := by
      intro id hid
      rw [hrecorded, hrecord] at hid
      exact howed id hid
    have hend := hrecorded.trans hrecord
    show AsksIn (if _ then _ else _) _ _ _
    split
    · rename_i hempty
      rw [List.isEmpty_iff.mp hempty] at howes
      refine holds_do.mpr ((resolve_asks (.inr howes)).imp (fun _ _ h => ?_) fun e _ h => ?_)
      · subst h
        exact ⟨.inr hend, hstopped, hcleanup, fun id hid ho => by cases howes id hid ho⟩
      · obtain ⟨rfl, he⟩ := h
        exact ⟨.inr hend, he.1, he.2.2, fun id hid ho => by cases howes id hid ho⟩
    · exact ⟨.inr hend, hstopped, hcleanup, howes⟩
  · obtain ⟨rfl, he⟩ := h
    exact ⟨.inr hrecord, he.1, he.2.2, hplain he hk.2⟩

theorem captureArtifacts_asks (options : CaptureOptions) (token : Id)
    (restartContainerIds : List ContainerId) (stopped : Bool) :
    AsksIn (captureArtifacts options token restartContainerIds stopped)
      (fun capture k' => k' = k ∧ (stopped = true → options.restartAfterStopFirst = false →
        capture.stoppedContainerIds = restartContainerIds))
      (fun e k' => k' = k ∧ e.isPlain) k := by
  refine holds_do.mpr (asksIn_awaited (by trivial) (fun _ => ?_) fun e he => ⟨rfl, he⟩)
  refine holds_do.mpr (asksIn_awaited (by trivial) (fun _ => ?_) fun e he => ⟨rfl, he⟩)
  have hlast : AsksIn (k := k) (do
      awaited .work
      .ret
        { sourceLeftStopped := stopped && !options.restartAfterStopFirst
          stoppedContainerIds :=
            if (stopped && !options.restartAfterStopFirst) = true then restartContainerIds else [] })
      (fun (capture : CaptureResult) k' => k' = k ∧ (stopped = true →
        options.restartAfterStopFirst = false → capture.stoppedContainerIds = restartContainerIds))
      (fun e k' => k' = k ∧ e.isPlain) := by
    refine holds_do.mpr (asksIn_awaited (by trivial) (fun _ => ⟨rfl, fun hs hr => ?_⟩) fun e he =>
      ⟨rfl, he⟩)
    simp [hs, hr]
  split
  · refine holds_do.mpr ((resolve_asks (.inl rfl)).imp (fun _ k₁ h => ?_) fun _ _ h => h)
    subst h
    exact hlast
  · exact hlast

/-- An error of the capture that names stopped containers names all that are owed a start. -/
def Fault.Covers (e : Fault) (k : RestartKnowledge) : Prop :=
  ∀ ids, e.sourceStoppedIds = some ids → ids ≠ [] → k.OwesOnly ids

theorem Fault.isPlain.covers {e : Fault} (h : e.isPlain) : e.Covers k :=
  fun ids hids => by rw [h.1] at hids; cases hids

theorem captureFailed_asks (options : CaptureOptions) (token : Id)
    {restartContainerIds : List ContainerId} (stopped : Bool) {thrown : Fault}
    (hstopped : thrown.sourceStoppedIds = none) (hcleanup : thrown.cleanupRequired = none)
    (hfailed : thrown.restartFailedIds.getD [] ≠ [] →
      k.OwesOnly (thrown.restartFailedIds.getD []))
    (hids : k.OwesOnly restartContainerIds) :
    AsksIn (captureFailed options token restartContainerIds stopped thrown) (fun _ _ => False)
      (fun e k' => k' = k ∧ e.cleanupRequired = none ∧ e.Covers k') k := by
  unfold captureFailed
  split
  · exact ⟨rfl, hcleanup, fun ids h => by rw [hstopped] at h; cases h⟩
  · dsimp only
    generalize hsource : (if (!(thrown.restartFailedIds.getD []).isEmpty) = true then
      thrown.restartFailedIds.getD [] else _) = source
    have hcovered : source ≠ [] → k.OwesOnly source := by
      subst hsource
      split
      · rename_i h
        exact fun _ => hfailed (by simpa using h)
      · split
        · exact fun _ => hids
        · exact fun hne => absurd rfl hne
    -- what is thrown in the end names `source`, or nothing
    have hnames : ∀ fault : Fault, fault.sourceStoppedIds = none → fault.cleanupRequired = none →
        (if source.isEmpty = true then fault
            else { fault with sourceStoppedIds := some source }).cleanupRequired = none
          ∧ (if source.isEmpty = true then fault
            else { fault with sourceStoppedIds := some source }).Covers k := by
      intro fault hsource hfault
      split
      · exact ⟨hfault, fun ids h => by rw [hsource] at h; cases h⟩
      · exact ⟨hfault, fun ids h hne => by cases h; exact hcovered hne⟩
    refine holds_attempt.mpr ((statementUpdating_asks (by trivial)).imp (fun _ k₁ h => ?_)
      fun updateError k₁ h => ?_)
    · rw [record_eq_self rfl] at h
      subst h
      exact ⟨rfl, hnames thrown hstopped hcleanup⟩
    · rw [record_eq_self rfl] at h
      obtain ⟨rfl, he⟩ := h
      refine holds_attempt.mpr (asksIn_statement (by trivial) rfl (fun _ => ?_) fun e _ => ?_)
      · exact ⟨rfl, hnames updateError he.1 he.2.2⟩
      · exact ⟨rfl, rfl, fun ids h hne => by cases h; exact hcovered hne⟩

theorem restartAfterCapture_asks (token : Id) {restartContainerIds : List ContainerId}
    (hids : k.OwesOnly restartContainerIds) :
    AsksIn (restartAfterCapture token restartContainerIds) (fun _ _ => True)
      (fun e _ => e.cleanupRequired = none) k := by
  refine holds_attempt.mpr ((startContainersOneByOne_asks restartContainerIds).imp
    (fun _ k₁ h => ?_) fun e k₁ _ => ?_)
  · obtain ⟨hshrinks, hstarted⟩ := h
    have hnothing : k₁.OwesOnly [] := fun id hid howed =>
      absurd howed (hstarted id (hshrinks.owesOnly hids id hid howed))
    exact (resolve_asks (.inr hnothing)).imp (fun _ _ _ => trivial) fun e _ h => h.2.2.2
  · refine holds_attempt.mpr ((statementUpdating_asks (by trivial)).imp (fun _ _ _ => rfl)
      fun _ k₂ _ => ?_)
    exact holds_attempt.mpr (asksIn_statement (by trivial) rfl (fun _ => rfl) fun _ _ => rfl)

theorem captureStopFirst_asks (options : CaptureOptions) (token : Id)
    (containerIds restartContainerIds : List ContainerId) (hk : k.recorded = [] ∧ k.owed = []) :
    AsksIn (captureStopFirst options token containerIds restartContainerIds)
      (fun capture k' => options.restartAfterStopFirst = false →
        k'.OwesOnly capture.stoppedContainerIds)
      (fun e k' => e.cleanupRequired = none ∧ (options.restartAfterStopFirst = false → e.Covers k'))
      k := by
  -- after the stop, or without one, everything recorded is to be restarted
  have hrest : ∀ k₁ : RestartKnowledge, ∀ stopped : Bool,
      (if stopped then k₁.recorded = restartContainerIds else k₁.recorded = []) →
      AsksIn (k := k₁) (do
        let outcome ← ((captureArtifacts options token restartContainerIds stopped).tryCatch
          (captureFailed options token restartContainerIds stopped)).settled
        if stopped && options.restartAfterStopFirst then
          restartAfterCapture token restartContainerIds
        .ofExcept outcome)
        (fun capture k' => options.restartAfterStopFirst = false →
          k'.OwesOnly capture.stoppedContainerIds)
        (fun e k' => e.cleanupRequired = none
          ∧ (options.restartAfterStopFirst = false → e.Covers k')) := by
    intro k₁ stopped hrecorded
    have hids : k₁.OwesOnly restartContainerIds := by
      intro id hid _
      cases stopped
      · rw [if_neg (by decide)] at hrecorded
        rw [hrecorded] at hid
        cases hid
      · rw [if_pos rfl] at hrecorded
        exact hrecorded ▸ hid
    -- the `finally` that starts the containers does not run for a migration
    have hfinally : ∀ outcome : Except Fault CaptureResult,
        (∀ capture, outcome = .ok capture → options.restartAfterStopFirst = false →
          k₁.OwesOnly capture.stoppedContainerIds) →
        (∀ e, outcome = .error e → e.cleanupRequired = none ∧ e.Covers k₁) →
        AsksIn (k := k₁) (do
          if stopped && options.restartAfterStopFirst then
            restartAfterCapture token restartContainerIds
          .ofExcept outcome)
          (fun capture k' => options.restartAfterStopFirst = false →
            k'.OwesOnly capture.stoppedContainerIds)
          (fun e k' => e.cleanupRequired = none
            ∧ (options.restartAfterStopFirst = false → e.Covers k')) := by
      intro outcome hok herror
      by_cases hrestart : (stopped && options.restartAfterStopFirst) = true
      · have htrue : options.restartAfterStopFirst = true := (Bool.and_eq_true _ _ ▸ hrestart).2
        rw [if_pos hrestart]
        refine holds_do.mpr ((restartAfterCapture_asks token hids).imp (fun _ k₂ _ => ?_)
          fun e _ h => ⟨h, fun hfalse => by rw [htrue] at hfalse; cases hfalse⟩)
        cases outcome with
        | ok capture => exact fun hfalse => by rw [htrue] at hfalse; cases hfalse
        | error e =>
          exact ⟨(herror e rfl).1, fun hfalse => by rw [htrue] at hfalse; cases hfalse⟩
      · rw [if_neg hrestart]
        cases outcome with
        | ok capture => exact hok capture rfl
        | error e => exact ⟨(herror e rfl).1, fun _ => (herror e rfl).2⟩
    refine holds_do.mpr (holds_settled.mpr (holds_tryCatch.mpr
      ((captureArtifacts_asks options token restartContainerIds stopped).imp
        (fun capture k₂ h => ?_) fun e k₂ h => ?_)))
    · obtain ⟨rfl, hcapture⟩ := h
      refine hfinally _ (fun capture' heq hfalse => ?_) fun e heq => by cases heq
      cases heq
      cases stopped
      · intro id hid
        rw [if_neg (by decide)] at hrecorded
        rw [hrecorded] at hid
        cases hid
      · rw [hcapture rfl hfalse]
        exact hids
    · obtain ⟨rfl, he⟩ := h
      refine (captureFailed_asks options token stopped he.1 he.2.2 (fun hne => ?_) hids).imp
        (fun _ _ h => h.elim) fun e' k₃ h => ?_
      · rw [he.2.1] at hne
        exact absurd rfl hne
      · obtain ⟨rfl, hcleanup, hcovers⟩ := h
        refine hfinally _ (fun capture heq => by cases heq) fun e'' heq => ?_
        cases heq
        exact ⟨hcleanup, hcovers⟩
  unfold captureStopFirst
  by_cases hstop : (options.stopFirst && !restartContainerIds.isEmpty) = true
  · simp only [hstop, if_true]
    have hne : restartContainerIds ≠ [] := by
      have hnonempty := (Bool.and_eq_true _ _ ▸ hstop).2
      simpa using hnonempty
    refine holds_attempt.mpr ((stopForBackup_asks token containerIds hne hk).imp
      (fun _ k₁ h => hrest k₁ true (by rw [if_pos rfl]; exact h)) fun e k₁ h => ?_)
    obtain ⟨hrecorded, hstopped, hcleanup, howes⟩ := h
    have hids : k₁.OwesOnly restartContainerIds := by
      intro id hid _
      rcases hrecorded with hrecorded | hrecorded <;> rw [hrecorded] at hid
      · cases hid
      · exact hid
    refine (captureFailed_asks options token false hstopped hcleanup (fun _ => howes) hids).imp
      (fun _ _ h => h.elim) fun e' k₂ h => ?_
    obtain ⟨rfl, hcleanup', hcovers⟩ := h
    exact ⟨hcleanup', fun _ => hcovers⟩
  · have hfalse := Bool.eq_false_of_not_eq_true hstop
    simp only [hfalse, Bool.false_eq_true, if_false]
    exact holds_attempt.mpr (hrest k false (by rw [if_neg (by decide)]; exact hk.1))

/-- **The capture.**  It takes no recorded id out of the point that it owes a start; the error of
    one that leaves its source stopped names what it owes. -/
theorem runRecoveryCreate_asks (options : CaptureOptions) (hk : k.recorded = [] ∧ k.owed = []) :
    AsksIn (runRecoveryCreate options)
      (fun capture k' => options.restartAfterStopFirst = false →
        k'.OwesOnly capture.stoppedContainerIds)
      (fun e k' => e.cleanupRequired = none ∧ (options.restartAfterStopFirst = false → e.Covers k'))
      k := by
  have hplain : ∀ e : Fault, e.isPlain → e.cleanupRequired = none
      ∧ (options.restartAfterStopFirst = false → e.Covers k) := fun e he => ⟨he.2.2, fun _ => he.covers⟩
  refine holds_do.mpr (asksIn_awaited (by trivial) (fun _ => ?_) hplain)
  refine holds_do.mpr (asksIn_awaited (by trivial) (fun _ => ?_) hplain)
  refine holds_do.mpr (asksIn_awaited (by trivial) (fun token => ?_) hplain)
  refine holds_do.mpr (asksIn_awaited (by trivial) (fun _ => ?_) hplain)
  refine holds_do.mpr ((statementUpdating_asks (by trivial)).imp (fun _ k₁ h => ?_)
    fun e k₁ h => ?_)
  · rw [record_eq_self rfl] at h
    subst h
    refine holds_do.mpr (asksIn_awaited (by trivial) (fun inspected => ?_) hplain)
    exact captureStopFirst_asks options token inspected.1 inspected.2 hk
  · rw [record_eq_self rfl] at h
    obtain ⟨rfl, he⟩ := h
    exact hplain e he

/-! ### The restore of the target -/

theorem markCleanupPendingQuietly_issues (attemptToken : Id) (unknown : Bool) :
    (markCleanupPendingQuietly attemptToken unknown).Issues Request.isNeutral :=
  issues_attempt (issues_awaited trivial) (fun _ => trivial) fun _ => trivial

theorem cleanup_issues (cleanup : RestoreCleanup) : cleanup.cleanup.Issues Request.isNeutral := by
  refine issues_attempt (issues_awaited trivial) (fun _ => trivial) fun deferred => ?_
  split
  · trivial
  · refine issues_attempt (issues_awaited trivial) (fun _ => trivial) fun actions => ?_
    split
    · exact issues_attempt (issues_awaited trivial) (fun _ => trivial) fun _ => trivial
    · exact issues_attempt (markCleanupPendingQuietly_issues _ _) (fun _ => trivial)
        fun _ => trivial

theorem registerResources_issues (attemptToken : Id) (resources : List RestoreResource) :
    (registerResources attemptToken resources).Issues Request.isNeutral := by
  induction resources with
  | nil => trivial
  | cons resource resources ih => exact issues_bind (issues_awaited trivial) fun _ => ih

theorem mutate_issues (attemptToken : Id) (mutation : RestoreMutation) :
    (mutate attemptToken mutation).Issues Request.isNeutral :=
  issues_attempt
    (issues_bind (issues_awaited trivial) fun _ =>
      issues_awaited (show (Request.dispatch mutation).isNeutral from trivial))
    (fun _ => issues_bind (markCleanupPendingQuietly_issues attemptToken true) fun _ => trivial)
    fun _ => trivial

theorem restoreMutations_issues (attemptToken : Id) (mutations : List RestoreMutation) :
    ∀ actions, (restoreMutations attemptToken actions mutations).Issues Request.isNeutral := by
  induction mutations with
  | nil => exact fun _ => issues_attempt (issues_awaited trivial) (fun _ => trivial) fun _ => trivial
  | cons mutation mutations ih =>
    intro actions
    refine issues_attempt (issues_awaited trivial) (fun _ => trivial) fun _ => ?_
    refine issues_attempt (mutate_issues attemptToken mutation) (fun _ => trivial)
      fun succeeded => ?_
    split
    · exact ih _
    · trivial

theorem restoreFailed_issues (attemptToken : Id) (error : Fault) (actions : List RestoreResource) :
    (restoreFailed attemptToken error actions).Issues Request.isNeutral := by
  unfold restoreFailed
  split
  · trivial
  · exact issues_bind (markCleanupPendingQuietly_issues attemptToken false) fun _ =>
      issues_attempt (cleanup_issues _) (fun _ => trivial) fun _ => trivial

theorem finishRestore_issues (attemptToken : Id) (actions resources : List RestoreResource) :
    (finishRestore attemptToken actions resources).Issues Request.isNeutral := by
  induction resources with
  | nil => exact issues_bind (issues_awaited trivial) fun _ => trivial
  | cons resource resources ih => exact issues_bind (issues_awaited trivial) fun _ => ih

/-- A part of an executor that does not change what is known. -/
theorem asksIn_of_issues_of {ε α : Type} {p : Program Request Answer ε α}
    (h : p.Issues Request.isNeutral) {P : RestartKnowledge → Prop} (hk : P k) :
    AsksIn p (fun _ => P) (fun _ => P) k :=
  (asksIn_of_issues h).imp (fun _ _ h => h ▸ hk) fun _ _ h => h ▸ hk

theorem runRecoveryRestoreInternal_asks (plan : TargetPlan) {before : Exec Unit}
    {P : RestartKnowledge → Prop} (hk : P k)
    (hbefore : ∀ k, P k → AsksIn before (fun _ => P) (fun _ => P) k) :
    AsksIn (runRecoveryRestoreInternal plan before) (fun _ => P) (fun _ => P) k := by
  have hmutations : ∀ attemptToken k, P k → AsksIn ((restoreMutations attemptToken []
      plan.mutations).attempt (fun failed => restoreFailed attemptToken failed.1 failed.2)
        fun actions => finishRestore attemptToken actions plan.resources)
      (fun _ => P) (fun _ => P) k := fun attemptToken k hk =>
    asksIn_of_issues_of (issues_attempt (restoreMutations_issues attemptToken plan.mutations [])
      (fun _ => restoreFailed_issues _ _ _) fun _ => finishRestore_issues _ _ _) hk
  refine holds_do.mpr ((asksIn_of_issues_of (issues_awaited (by trivial)) hk).imp (fun _ k hk => ?_)
    fun _ _ h => h)
  refine holds_do.mpr ((asksIn_of_issues_of (issues_awaited (by trivial)) hk).imp (fun _ k hk => ?_)
    fun _ _ h => h)
  refine holds_do.mpr ((asksIn_of_issues_of (issues_awaited (by trivial)) hk).imp
    (fun attemptToken k hk => ?_) fun _ _ h => h)
  refine holds_do.mpr ((asksIn_of_issues_of (issues_awaited (by trivial)) hk).imp (fun _ k hk => ?_)
    fun _ _ h => h)
  refine holds_do.mpr ((asksIn_of_issues_of (registerResources_issues attemptToken plan.resources)
    hk).imp (fun _ k hk => ?_) fun _ _ h => h)
  split
  · exact holds_do.mpr ((hbefore k hk).imp (fun _ k hk => hmutations attemptToken k hk)
      fun _ _ h => h)
  · exact hmutations attemptToken k hk

/-! ### The migration -/

theorem RestartKnowledge.OwesOnly.mono {ids ids' : List ContainerId} (h : k.OwesOnly ids)
    (hids : ∀ id ∈ ids, id ∈ ids') : k.OwesOnly ids' :=
  fun id hid howed => hids id (h id hid howed)

theorem armMigrationSourceRestartObligation_asks (migrationRunId : Id) {ids : List ContainerId}
    (blocked requireBlocked error : Bool) (h : k.OwesOnly ids) :
    AsksIn (armMigrationSourceRestartObligation migrationRunId ids blocked requireBlocked error)
      (fun _ k' => k'.OwesOnly ids) (fun _ k' => k'.OwesOnly ids) k := by
  have hunique : k.OwesOnly (uniqueContainerIds ids) := h.mono fun id hid => by simpa using hid
  unfold armMigrationSourceRestartObligation
  dsimp only
  split
  · exact h
  · rename_i hempty
    have hne : uniqueContainerIds ids ≠ [] := by simpa using hempty
    have hafter : (k.record (.arm migrationRunId (uniqueContainerIds ids) blocked requireBlocked
        error)).OwesOnly ids := by
      intro id hid howed
      rcases List.mem_append.mp hid with hid | hid
      · exact h id hid howed
      · exact mem_uniqueContainerIds.mp hid
    exact (statementUpdating_asks (by exact ⟨hne, hunique⟩)).imp (fun _ _ h => h ▸ hafter)
      fun _ _ h => h.1 ▸ hafter

/-- The rollback starts everything that is owed; an error of it leaves what has to be recorded
    again. -/
theorem rollbackSource_asks {vars : MigrationVariables} (howes : k.OwesOnly vars.restartIds) :
    AsksIn (rollbackSource vars) (fun restarted k' => restarted = true → k'.OwesOnly [])
      (fun e k' => k'.OwesOnly (vars.rearmIds e)) k := by
  have haudit : ∀ k' : RestartKnowledge, k'.OwesOnly [] →
      AsksIn (k := k') (do awaited .work; .ret true : Exec Bool)
        (fun restarted k' => restarted = true → k'.OwesOnly [])
        (fun e k' => k'.OwesOnly (vars.rearmIds e)) := by
    intro k' hk'
    refine holds_do.mpr (asksIn_awaited (by trivial) (fun _ _ => hk') fun e _ => ?_)
    exact hk'.mono fun id hid => by cases hid
  unfold rollbackSource
  by_cases hrestart : (!vars.shouldRestart) = true
  · rw [if_pos hrestart]
    intro h
    cases h
  · rw [if_neg hrestart]
    split
    · refine holds_do.mpr ((startContainersOneByOne_asks vars.restartIds).imp (fun _ k₁ h => ?_)
        fun e k₁ h => ?_)
      · obtain ⟨hshrinks, hstarted⟩ := h
        exact haudit k₁ fun id hid howed =>
          absurd howed (hstarted id (hshrinks.owesOnly howes id hid howed))
      · obtain ⟨hshrinks, failed, rfl, hne, hfailed⟩ := h
        intro id hid howed
        have hmem := hfailed id (hshrinks.owesOnly howes id hid howed) howed
        have hnonempty : (uniqueContainerIds failed).isEmpty = false := by
          rw [List.isEmpty_eq_false_iff]
          exact List.ne_nil_of_mem (mem_uniqueContainerIds.mpr hmem)
        simpa [MigrationVariables.rearmIds, hnonempty] using hmem
    · rename_i hempty
      refine haudit k fun id hid howed => ?_
      have hmem := howes id hid howed
      have hnil : vars.restartIds = [] := by simpa using hempty
      rwa [hnil] at hmem

theorem rollbackAndResolve_asks {vars : MigrationVariables} (howes : k.OwesOnly vars.restartIds) :
    AsksIn (rollbackAndResolve vars) (fun _ _ => True)
      (fun e k' => k'.OwesOnly (vars.rearmIds e)) k := by
  refine holds_do.mpr ((rollbackSource_asks howes).imp (fun restarted k' hk' => ?_) fun _ _ h => h)
  split
  · rename_i hrestarted
    refine (resolve_asks (.inr (hk' hrestarted))).imp (fun _ _ _ => trivial) fun e k'' h => ?_
    obtain ⟨rfl, -⟩ := h
    exact (hk' hrestarted).mono fun id hid => by cases hid
  · trivial

theorem failMigration_asks (error : Fault) :
    AsksIn (failMigration error) (fun _ _ => True) (fun _ _ => True) k :=
  holds_do.mpr (asksIn_awaited (by trivial) (fun _ => trivial) fun _ _ => trivial)

theorem rollbackAndFail_asks (migrationRunId : Id) {vars : MigrationVariables} (error : Fault)
    (h : vars.sourceWasStopped = true → k.OwesOnly vars.restartIds) :
    AsksIn (rollbackAndFail migrationRunId vars error) (fun _ _ => True) (fun _ _ => True) k := by
  unfold rollbackAndFail
  split
  · rename_i hstopped
    refine holds_attempt.mpr ((rollbackAndResolve_asks (h hstopped)).imp
      (fun _ _ _ => failMigration_asks error) fun e k' hk' => holds_attempt.mpr ?_)
    split
    · exact (armMigrationSourceRestartObligation_asks migrationRunId false false true hk').imp
        (fun _ _ _ => failMigration_asks {}) fun _ _ _ => failMigration_asks {}
    · exact failMigration_asks {}
  · exact failMigration_asks error

theorem compensate_asks (migrationRunId : Id) (vars : MigrationVariables)
    (restoreCleanup : Option RestoreCleanup) (error : Fault)
    (h : (vars.afterError error).sourceWasStopped = true →
      k.OwesOnly (vars.afterError error).restartIds) :
    AsksIn (compensate migrationRunId vars restoreCleanup error) (fun _ _ => True)
      (fun _ _ => True) k := by
  unfold compensate
  dsimp only
  generalize vars.afterError error = vars at h ⊢
  cases restoreCleanup.or error.cleanupRequired with
  | none => exact rollbackAndFail_asks migrationRunId error h
  | some cleanup =>
    dsimp only
    split
    · trivial
    · -- arming and releasing the block write the same ids again
      have harm : ∀ (blocked requireBlocked error : Bool) (k : RestartKnowledge),
          (vars.sourceWasStopped = true → k.OwesOnly vars.restartIds) →
          AsksIn (if vars.sourceWasStopped = true then armMigrationSourceRestartObligation
              migrationRunId vars.restartIds blocked requireBlocked error else .ret ())
            (fun _ k' => vars.sourceWasStopped = true → k'.OwesOnly vars.restartIds)
            (fun _ k' => vars.sourceWasStopped = true → k'.OwesOnly vars.restartIds) k := by
        intro blocked requireBlocked error k hk
        split
        · rename_i hstopped
          exact (armMigrationSourceRestartObligation_asks migrationRunId blocked requireBlocked error
            (hk hstopped)).imp (fun _ _ h _ => h) fun _ _ h _ => h
        · exact hk
      refine holds_attempt.mpr ((harm true false false k h).imp (fun _ k₁ h₁ => ?_)
        fun _ _ _ => trivial)
      refine holds_attempt.mpr ((asksIn_of_issues_of
        (P := fun k => vars.sourceWasStopped = true → k.OwesOnly vars.restartIds)
        (cleanup_issues cleanup) h₁).imp (fun _ k₂ h₂ => ?_) fun _ k₂ h₂ => ?_)
      · exact holds_attempt.mpr ((harm false true false k₂ h₂).imp
          (fun _ k₃ h₃ => rollbackAndFail_asks migrationRunId error h₃) fun _ _ _ => trivial)
      · exact holds_attempt.mpr ((harm true false true k₂ h₂).imp
          (fun _ _ _ => failMigration_asks error) fun _ _ _ => failMigration_asks error)

theorem subset_afterError (vars : MigrationVariables) (error : Fault) :
    ∀ id ∈ vars.restartIds, id ∈ (vars.afterError error).restartIds := by
  intro id hid
  simp [MigrationVariables.afterError, hid]

/-- **The migration.**  It takes no recorded id out of its point that it owes a start. -/
theorem runMigrationExecute_asks (migrationRunId : Id) (plan : TargetPlan)
    (hk : k.recorded = [] ∧ k.owed = []) :
    AsksIn (runMigrationExecute migrationRunId plan) (fun _ _ => True) (fun _ _ => True) k := by
  have hnothing : ∀ ids, k.OwesOnly ids := fun ids id hid => by simp [hk.1] at hid
  unfold runMigrationExecute
  refine holds_attempt.mpr (holds_do.mpr (asksIn_awaited (by trivial) (fun _ => ?_) fun e _ =>
    compensate_asks migrationRunId {} none e fun _ => hnothing _))
  refine holds_do.mpr (asksIn_awaited (by trivial) (fun inspected => ?_) fun e _ =>
    compensate_asks migrationRunId {} none e fun _ => hnothing _)
  show AsksIn (Program.attempt _ _ _) _ _ _
  refine holds_attempt.mpr (holds_do.mpr (asksIn_awaited (by trivial) (fun _ => ?_) fun e _ =>
    compensate_asks migrationRunId _ none e fun _ => hnothing _))
  refine (runRecoveryCreate_asks _ hk).imp (fun capture k₁ h => ?_) fun e k₁ h => ?_
  · -- everything recorded that is owed is among the ids the migration restarts
    dsimp only
    generalize hcaptured : MigrationVariables.afterCapture _ capture = captured
    have howes : k₁.OwesOnly captured.restartIds := by
      refine (h rfl).mono fun id hid => ?_
      rw [← hcaptured]
      simp [MigrationVariables.afterCapture, hid]
    have hcompensate : ∀ (cleanup : Option RestoreCleanup) (e : Fault) (k : RestartKnowledge),
        k.OwesOnly captured.restartIds → AsksIn (compensate migrationRunId captured cleanup e)
          (fun _ _ => True) (fun _ _ => True) k := fun cleanup e k hk =>
      compensate_asks migrationRunId captured cleanup e fun _ =>
        hk.mono (subset_afterError captured e)
    refine holds_attempt.mpr (holds_do.mpr (asksIn_awaited (by trivial) (fun _ => ?_) fun e _ =>
      hcompensate none e k₁ howes))
    refine (runRecoveryRestoreInternal_asks (P := fun k => k.OwesOnly captured.restartIds) plan
      howes fun k hk => ?_).imp (fun cleanup k₂ h₂ => ?_) fun e k₂ h₂ => hcompensate none e k₂ h₂
    · split
      · exact armMigrationSourceRestartObligation_asks migrationRunId true false false hk
      · exact hk
    · exact holds_attempt.mpr (asksIn_awaited (by trivial) (fun _ => trivial) fun e _ =>
        hcompensate (some cleanup) e k₂ h₂)
  · obtain ⟨-, hcovers⟩ := h
    refine compensate_asks migrationRunId _ none e fun hstopped => ?_
    -- the source counts as stopped only where the error names what was stopped
    cases hids : e.sourceStoppedIds with
    | none => simp [MigrationVariables.afterError, hids, uniqueContainerIds] at hstopped
    | some ids =>
      have hne : ids ≠ [] := by
        rintro rfl
        simp [MigrationVariables.afterError, hids, uniqueContainerIds] at hstopped
      refine (hcovers rfl ids hids hne).mono fun id hid => ?_
      simp [MigrationVariables.afterError, hids, hid]

end Specs

end ComposeBastion
