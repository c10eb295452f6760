import ComposeBastion.Recovery.RestartKnowledge
import ComposeBastion.Recovery.RestartSystem

namespace ComposeBastion

open Program Runs

/-!
# No restart obligation is lost

A container that a recovery operation recorded stays in the pending-restart set of the point through
every interleaving of the executor and the restart reconcilers: it leaves it with a start of the
holder of the current claim, with an explicit left-stopped resolution, or by a statement of the
executor that recorded it, which then owes it no start.

* `restartKnowledge` — what the executor has recorded and owes, read off the log;
* `ObligationInv` — the point, the executor and the passes of the reconcilers agree;
* `Discharged` — how an id may leave the set;
* `restart_obligation` — nothing else takes one out.
-/

/-! ### What the log says -/

/-- What an event teaches about the executor. -/
def SourceEvent.teach (k : RestartKnowledge) : SourceEvent → RestartKnowledge
  | .executor request answer => k.learn request answer
  | .restarted _ _ => k

/-- What the executor has recorded and owes. -/
def restartKnowledge (log : List SourceEvent) : RestartKnowledge := log.foldl SourceEvent.teach ⟨[], []⟩

theorem restartKnowledge_snoc (log : List SourceEvent) (event : SourceEvent) :
    restartKnowledge (log ++ [event]) = event.teach (restartKnowledge log) := by
  simp [restartKnowledge]

/-! ### The rows -/

/-- The point agrees with what its executor knows. -/
structure RowInv (k : RestartKnowledge) (row : RestartRow) : Prop where
  recorded : ∀ id ∈ row.pendingIds, id ∈ k.recorded
  armed : row.sourceRestartPending = true → k.recorded ≠ []
  listed : row.sourceRestartPending = true → row.sourceRestartContainerIds.isSome = true
  claimed : row.reconciliationToken ≠ none → row.sourceRestartPending = true

/-- The claim of a pass, where it is the current one, is on what is pending. -/
def RowHolds (row : RestartRow) (obligation : SourceRestartObligation) : Prop :=
  row.reconciliationToken = some obligation.token → row.obligationIds = obligation.containerIds

theorem pendingIds_eq {row : RestartRow} (h : row.sourceRestartPending = true) :
    row.pendingIds = row.obligationIds := if_pos h

theorem pendingIds_eq_nil {row : RestartRow} (h : row.sourceRestartPending = false) :
    row.pendingIds = [] := by
  unfold RestartRow.pendingIds
  rw [if_neg (by simp [h])]

theorem obligationIds_eq {row : RestartRow} {ids : List ContainerId}
    (h : row.sourceRestartContainerIds = some ids) :
    row.obligationIds = uniqueContainerIds ids := by
  unfold RestartRow.obligationIds
  rw [h]
  rfl

/-- A statement whose fields of the obligation are as they were. -/
theorem RowInv.of_same {k : RestartKnowledge} {row row' : RestartRow} (h : RowInv k row)
    (hpending : row'.sourceRestartPending = row.sourceRestartPending)
    (hids : row'.sourceRestartContainerIds = row.sourceRestartContainerIds)
    (htoken : row'.reconciliationToken = row.reconciliationToken) :
    RowInv k row' ∧ row'.pendingIds = row.pendingIds
      ∧ ∀ obligation, RowHolds row obligation → RowHolds row' obligation := by
  have hobligation : row.sourceRestartPending = true → row'.obligationIds = row.obligationIds := by
    intro hp
    obtain ⟨ids, hlisted⟩ := Option.isSome_iff_exists.mp (h.listed hp)
    rw [obligationIds_eq hlisted, obligationIds_eq (hids.trans hlisted)]
  have hpendingIds : row'.pendingIds = row.pendingIds := by
    cases hp : row.sourceRestartPending with
    | false => rw [pendingIds_eq_nil hp, pendingIds_eq_nil (hpending.trans hp)]
    | true => rw [pendingIds_eq hp, pendingIds_eq (hpending.trans hp), hobligation hp]
  refine ⟨⟨?_, ?_, ?_, ?_⟩, hpendingIds, ?_⟩
  · rw [hpendingIds]
    exact h.recorded
  · rw [hpending]
    exact h.armed
  · rw [hpending, hids]
    exact h.listed
  · rw [htoken, hpending]
    exact h.claimed
  · intro obligation hholds htok
    rw [htoken] at htok
    rw [hobligation (h.claimed (by simp [htok]))]
    exact hholds htok

/-- A row on which nobody holds a claim. -/
theorem rowHolds_of_none {row : RestartRow} (h : row.reconciliationToken = none)
    (obligation : SourceRestartObligation) : RowHolds row obligation := by
  intro htoken
  rw [h] at htoken
  cases htoken

/-- A resolved row. -/
theorem rowInv_resolved {k : RestartKnowledge} {row : RestartRow}
    (hpending : row.sourceRestartPending = false) (htoken : row.reconciliationToken = none) :
    RowInv k row := by
  refine ⟨fun id hid => ?_, fun h => ?_, fun h => ?_, fun h => absurd htoken h⟩
  · rw [pendingIds_eq_nil hpending] at hid
    cases hid
  · rw [hpending] at h
    cases h
  · rw [hpending] at h
    cases h

/-- A row whose obligation was written anew, by a statement that takes no claim over. -/
theorem rowInv_recorded {k : RestartKnowledge} {row : RestartRow} {ids : List ContainerId}
    (hpending : row.sourceRestartPending = true) (hids : row.sourceRestartContainerIds = some ids)
    (hrecorded : ∀ id ∈ ids, id ∈ k.recorded) (hne : k.recorded ≠ []) : RowInv k row := by
  refine ⟨fun id hid => ?_, fun _ => hne, fun _ => by rw [hids]; rfl, fun _ => hpending⟩
  rw [pendingIds_eq hpending, obligationIds_eq hids] at hid
  exact hrecorded id (mem_uniqueContainerIds.mp hid)

/-- What is known grows with a statement. -/
theorem RowInv.record {k : RestartKnowledge} {row : RestartRow} (h : RowInv k row)
    (statement : RestartStatement) : RowInv (k.record statement) row :=
  ⟨fun id hid => List.mem_append_left _ (h.recorded id hid),
    fun hp hnil => h.armed hp (List.append_eq_nil_iff.mp hnil).1, h.listed, h.claimed⟩

/-- **A statement of the executor.**  The point still agrees, a claim that is still current is
    still on what is pending, and an id that leaves the set is left stopped on purpose or owed no
    start. -/
theorem RowInv.statement {k : RestartKnowledge} {row : RestartRow} (h : RowInv k row)
    {fenced : Bool} {statement : RestartStatement} (hasks : Asks k (.statement fenced statement)) :
    RowInv (k.record statement) (statement.assign row)
      ∧ (∀ obligation, RowHolds row obligation → RowHolds (statement.assign row) obligation)
      ∧ ∀ id ∈ row.pendingIds, id ∉ (statement.assign row).pendingIds →
        (statement.assign row).resolution = some .intentionallyLeftStopped ∨ id ∉ k.owed := by
  -- statements that leave the obligation alone
  have hsame : ∀ row' : RestartRow, row'.sourceRestartPending = row.sourceRestartPending →
      row'.sourceRestartContainerIds = row.sourceRestartContainerIds →
      row'.reconciliationToken = row.reconciliationToken →
      RowInv (k.record statement) row'
        ∧ (∀ obligation, RowHolds row obligation → RowHolds row' obligation)
        ∧ ∀ id ∈ row.pendingIds, id ∉ row'.pendingIds →
          row'.resolution = some .intentionallyLeftStopped ∨ id ∉ k.owed := by
    intro row' hpending hids htoken
    obtain ⟨hinv, hpendingIds, hholds⟩ := h.of_same hpending hids htoken
    exact ⟨hinv.record statement, hholds, fun id hid hgone => absurd (hpendingIds ▸ hid) hgone⟩
  cases statement with
  | beginCapture token => exact hsame _ rfl rfl rfl
  | recordCaptureFailure token stopped failed =>
    cases stopped
    · exact hsame _ rfl rfl rfl
    · exact hsame _ rfl rfl rfl
  | recordRestartFailed token failed => exact hsame _ rfl rfl rfl
  | recordObligation token ids =>
    obtain ⟨hnone, hne⟩ := hasks
    -- nothing was recorded before, so nothing was pending and nobody holds a claim
    have hpending : row.sourceRestartPending ≠ true := fun hp => h.armed hp hnone
    have htoken : row.reconciliationToken = none := by
      by_contra htoken
      exact hpending (h.claimed htoken)
    refine ⟨rowInv_recorded rfl rfl (fun id hid => List.mem_append_right _ hid) ?_,
      fun obligation _ => rowHolds_of_none (by exact htoken) obligation, fun id hid => ?_⟩
    · exact fun hnil => hne (List.append_eq_nil_iff.mp hnil).2
    · rw [pendingIds_eq_nil (Bool.eq_false_of_not_eq_true hpending)] at hid
      cases hid
  | resolve leftStopped ids resolution token =>
    refine ⟨rowInv_resolved rfl rfl, fun obligation _ => rowHolds_of_none rfl obligation,
      fun id hid _ => ?_⟩
    rcases hasks with rfl | hnothing
    · exact .inl rfl
    · exact .inr fun howed => by cases hnothing id (h.recorded id hid) howed
  | arm migrationRunId ids blocked requireBlocked error =>
    obtain ⟨hne, howes⟩ := hasks
    refine ⟨rowInv_recorded rfl rfl (fun id hid => List.mem_append_right _ hid) ?_,
      fun obligation _ => rowHolds_of_none rfl obligation, fun id hid hgone => .inr fun howed => ?_⟩
    · exact fun hnil => hne (List.append_eq_nil_iff.mp hnil).2
    · apply hgone
      rw [pendingIds_eq rfl, obligationIds_eq rfl, mem_uniqueContainerIds]
      exact howes id (h.recorded id hid) howed

/-! ### The passes of the reconcilers -/

/-- What a pass still has to start or could not start; nothing where it is going to record all of
    its ids as unresolved. -/
def RestartPhase.open : RestartPhase → Option (List ContainerId)
  | starting ids restartFailedIds => some (ids ++ restartFailedIds)
  | failing [] => none
  | failing restartFailedIds => some restartFailedIds

/-- A pass: its token is not issued again, its claim is on what is pending, and what it does not
    hold open was started under it. -/
structure PassInv (s : SourceState) (pass : RestartPass) : Prop where
  issued : pass.obligation.token ∈ s.issued
  holds : RowHolds s.row pass.obligation
  within : ∀ ids, pass.phase.open = some ids → ∀ id ∈ ids, id ∈ pass.obligation.containerIds
  started : ∀ ids, pass.phase.open = some ids → ∀ id ∈ pass.obligation.containerIds,
    id ∈ ids ∨ .restarted pass.obligation.token id ∈ s.log

/-- The point, the executor and the passes agree. -/
structure ObligationInv (s : SourceState) : Prop where
  executor : ∀ program, s.executor = some program →
    AsksIn program (fun _ _ => True) (fun _ _ => True) (restartKnowledge s.log)
  row : RowInv (restartKnowledge s.log) s.row
  passes : ∀ worker pass, s.restarts worker = some pass → PassInv s pass

/-- A pass that is left alone keeps its invariant where its claim is on what is pending. -/
theorem PassInv.of_row {s s' : SourceState} {pass : RestartPass} (h : PassInv s pass)
    (hissued : ∀ id ∈ s.issued, id ∈ s'.issued) (hlog : ∀ event ∈ s.log, event ∈ s'.log)
    (hrow : RowHolds s'.row pass.obligation) : PassInv s' pass :=
  ⟨hissued _ h.issued, hrow, h.within, fun ids hids id hid =>
    (h.started ids hids id hid).imp_right fun hstarted => hlog _ hstarted⟩

/-- A step that touches neither the point, the executor, the restart passes nor the log. -/
structure SameObligation (s s' : SourceState) : Prop where
  row : s'.row = s.row
  executor : s'.executor = s.executor ∨ s'.executor = none
  restarts : s'.restarts = s.restarts
  log : s'.log = s.log
  issued : ∀ id ∈ s.issued, id ∈ s'.issued

theorem SameObligation.inv {s s' : SourceState} (h : SameObligation s s') (hs : ObligationInv s) :
    ObligationInv s' := by
  refine ⟨fun program hprogram => ?_, ?_, fun worker pass hpass => ?_⟩
  · rw [h.log]
    rcases h.executor with hsame | hnone
    · exact hs.executor program (hsame ▸ hprogram)
    · rw [hnone] at hprogram
      cases hprogram
  · rw [h.log, h.row]
    exact hs.row
  · rw [h.restarts] at hpass
    have hinv := hs.passes worker pass hpass
    exact hinv.of_row h.issued (fun event hevent => h.log ▸ hevent) (h.row ▸ hinv.holds)

/-- A step that only rewrites the point. -/
theorem ObligationInv.of_row {s s' : SourceState} (hs : ObligationInv s)
    (hexecutor : s'.executor = s.executor) (hlog : s'.log = s.log) (hissued : s'.issued = s.issued)
    (hrestarts : ∀ worker pass, s'.restarts worker = some pass → s.restarts worker = some pass)
    (hrow : RowInv (restartKnowledge s.log) s'.row)
    (hholds : ∀ obligation, RowHolds s.row obligation → RowHolds s'.row obligation) :
    ObligationInv s' := by
  refine ⟨fun program hprogram => ?_, hlog ▸ hrow, fun worker pass hpass => ?_⟩
  · rw [hlog]
    exact hs.executor program (hexecutor ▸ hprogram)
  · have hinv := hs.passes worker pass (hrestarts worker pass hpass)
    exact hinv.of_row (by rw [hissued]; exact fun _ h => h) (by rw [hlog]; exact fun _ h => h)
      (hholds _ hinv.holds)

/-! ### The executor -/

theorem settleWrite_eq_some {s s' : SourceState} {after : Option SourceState} {choice : Choice}
    {answer : Except Thrown Unit} (h : settleWrite s after choice = some (answer, s')) :
    s' = s ∨ after = some s' := by
  cases choice with
  | succeed =>
    obtain ⟨s₁, hafter, heq⟩ := Option.map_eq_some_iff.mp h
    cases heq
    exact .inr hafter
  | fail applied required =>
    cases h
    cases applied
    · exact .inl rfl
    · cases after with
      | none => exact .inl rfl
      | some s₁ => exact .inr rfl
  | refuse | inspected | uuid | compensated => cases h

theorem fenced_eq_some {s s₁ s' : SourceState} (h : s.fenced s₁ = some s') : s' = s₁ := by
  unfold SourceState.fenced at h
  split at h
  · exact (Option.some.inj h).symm
  · cases h

/-- What an answer changes besides what is awaited: only a statement on the point changes it. -/
structure Settles (s s' : SourceState) (request : Request) : Prop where
  restarts : s'.restarts = s.restarts
  issued : ∀ id ∈ s.issued, id ∈ s'.issued
  row : s'.row = s.row ∨ ∃ fenced statement, request = .statement fenced statement
    ∧ s'.row = statement.assign s.row

theorem Settles.refl (s : SourceState) (request : Request) : Settles s s request :=
  ⟨rfl, fun _ h => h, .inl rfl⟩

/-- A write under the fence that leaves the point alone. -/
theorem Settles.of_write {s s' s₁ : SourceState} {request : Request} {choice : Choice}
    {answer : Except Thrown Unit} (h : settleWrite s (s.fenced s₁) choice = some (answer, s'))
    (hs₁ : Settles s s₁ request) : Settles s s' request := by
  rcases settleWrite_eq_some h with rfl | hafter
  · exact .refl s' request
  · rw [fenced_eq_some hafter]
    exact hs₁

theorem settle_settles {operation : SourceOperation} {s s' : SourceState} {now : Time}
    {choice : Choice} {request : Request} {answer : Answer request}
    (h : settle operation s now choice request = some (answer, s')) : Settles s s' request := by
  -- writes that leave the point, the passes and the issued ids alone
  have hother : ∀ s₁ : SourceState, s₁.row = s.row → s₁.restarts = s.restarts →
      s₁.issued = s.issued → Settles s s₁ request := fun s₁ hrow hrestarts hissued =>
    ⟨hrestarts, fun id hid => hissued ▸ hid, .inl hrow⟩
  cases request with
  | work | inspect | cleanupIsDeferred =>
    cases choice <;> cases h <;> exact .refl _ _
  | assertActive | recordDispatch => exact .of_write h (.refl s _)
  | randomUuid =>
    cases choice with
    | uuid id =>
      simp only [settle] at h
      split at h
      · cases h
        exact ⟨rfl, fun id' hid' => List.mem_cons_of_mem _ hid', .inl rfl⟩
      · cases h
    | succeed | refuse | fail | inspected | compensated => cases h
  | statement fenced statement =>
    simp only [settle] at h
    cases choice with
    | succeed =>
      simp only [settleStatement] at h
      split at h
      · cases h
      · split at h
        · rename_i row hrow
          cases h
          exact ⟨rfl, fun _ h => h,
            .inr ⟨fenced, statement, rfl, (RestartStatement.apply_eq_some hrow).2⟩⟩
        · cases h
          exact .refl _ _
    | fail applied required =>
      simp only [settleStatement] at h
      split at h
      · cases h
        refine ⟨rfl, fun _ h => h, ?_⟩
        cases hrow : statement.apply s.row with
        | none => exact .inl (by simp)
        | some row =>
          exact .inr ⟨fenced, statement, rfl, by
            simpa [hrow] using (RestartStatement.apply_eq_some hrow).2⟩
      · cases h
        exact .refl _ _
    | refuse | inspected | uuid | compensated => cases h
  | stop id | start id => cases choice <;> cases h <;> exact .refl _ _
  | beginAttempt attemptToken =>
    rcases settleWrite_eq_some h with rfl | hafter
    · exact .refl _ _
    · split at hafter
      · rw [fenced_eq_some hafter]
        exact hother _ rfl rfl rfl
      · cases hafter
  | register attemptToken resource => exact .of_write h (hother _ rfl rfl rfl)
  | observed attemptToken resource => exact .of_write h (hother _ rfl rfl rfl)
  | awaitingDisposition attemptToken => exact .of_write h (hother _ rfl rfl rfl)
  | cleaned attemptToken => exact .of_write h (hother _ rfl rfl rfl)
  | cleanupPending attemptToken unknown =>
    rcases settleWrite_eq_some h with rfl | hafter
    · exact .refl _ _
    · cases hafter
      exact hother _ rfl rfl rfl
  | dispatch mutation =>
    cases choice with
    | succeed =>
      cases h
      exact hother _ rfl rfl rfl
    | refuse created =>
      cases h
      split <;> exact hother _ rfl rfl rfl
    | fail applied required =>
      cases h
      split <;> exact hother _ rfl rfl rfl
    | inspected | uuid | compensated => cases h
  | rollback actions =>
    cases choice with
    | compensated remaining =>
      simp only [settle] at h
      split at h
      · cases h
        exact hother _ rfl rfl rfl
      · cases h
    | succeed | refuse | fail | inspected | uuid => cases h

/-- The point agrees with whatever is known in addition. -/
theorem RowInv.mono {k k' : RestartKnowledge} {row : RestartRow} (h : RowInv k row)
    (hk : ∀ id ∈ k.recorded, id ∈ k'.recorded) : RowInv k' row := by
  refine ⟨fun id hid => hk id (h.recorded id hid), fun hp hnil => h.armed hp ?_, h.listed, h.claimed⟩
  rw [List.eq_nil_iff_forall_not_mem]
  intro id hid
  have hmem := hk id hid
  rw [hnil] at hmem
  cases hmem

theorem learn_recorded (k : RestartKnowledge) (request : Request) (answer : Answer request) :
    ∀ id ∈ k.recorded, id ∈ (k.learn request answer).recorded := by
  intro id hid
  cases request with
  | statement fenced statement => exact List.mem_append_left _ hid
  | stop id' => rcases answer with _ | _ | _ <;> exact hid
  | start id' => rcases answer with _ | _ | _ <;> exact hid
  | _ => exact hid

/-- What the executor's step does: it goes on with an answer, in a state the answer settles. -/
theorem runExecutor_cases (operation : SourceOperation) (s : SourceState) (now : Time)
    (choice : Choice) :
    s.runExecutor operation now choice = s ∨ ∃ request next answer s₁,
      s.executor = some (.await request next) ∧ Settles s s₁ request
      ∧ s.runExecutor operation now choice = { s₁ with
          executor := some (next answer), log := s.log ++ [.executor request answer] } := by
  unfold SourceState.runExecutor
  split
  · rename_i request next hexecutor
    split
    · rename_i answer s₁ hsettle
      exact .inr ⟨request, next, answer, s₁, hexecutor, settle_settles hsettle, rfl⟩
    · exact .inl rfl
  · exact .inl rfl

theorem ObligationInv.runExecutor (operation : SourceOperation) {s : SourceState}
    (hs : ObligationInv s) (now : Time) (choice : Choice) :
    ObligationInv (s.runExecutor operation now choice)
      ∧ ∀ id ∈ s.row.pendingIds, id ∉ (s.runExecutor operation now choice).row.pendingIds →
        (s.runExecutor operation now choice).row.resolution = some .intentionallyLeftStopped
          ∨ id ∉ (restartKnowledge s.log).owed := by
  rcases runExecutor_cases operation s now choice with heq | ⟨request, next, answer, s₁, hexecutor,
    hsettles, heq⟩
  · rw [heq]
    exact ⟨hs, fun id hid hgone => absurd hid hgone⟩
  · rw [heq]
    obtain ⟨hasks, hnext⟩ := hs.executor _ hexecutor
    have hlog : restartKnowledge (s.log ++ [.executor request answer])
        = (restartKnowledge s.log).learn request answer := restartKnowledge_snoc _ _
    -- what happens to the point
    have hrow : RowInv ((restartKnowledge s.log).learn request answer) s₁.row
        ∧ (∀ obligation, RowHolds s.row obligation → RowHolds s₁.row obligation)
        ∧ ∀ id ∈ s.row.pendingIds, id ∉ s₁.row.pendingIds →
          s₁.row.resolution = some .intentionallyLeftStopped
            ∨ id ∉ (restartKnowledge s.log).owed := by
      rcases hsettles.row with hrow | ⟨fenced, statement, rfl, hrow⟩
      · rw [hrow]
        exact ⟨hs.row.mono (learn_recorded _ request answer), fun _ h => h,
          fun id hid hgone => absurd hid hgone⟩
      · rw [hrow]
        exact hs.row.statement hasks
    refine ⟨⟨fun program hprogram => ?_, ?_, fun worker pass hpass => ?_⟩, hrow.2.2⟩
    · cases hprogram
      rw [hlog]
      exact hnext answer
    · rw [hlog]
      exact hrow.1
    · have hpass' : s.restarts worker = some pass := hsettles.restarts ▸ hpass
      have hinv := hs.passes worker pass hpass'
      exact hinv.of_row hsettles.issued (fun event hevent => List.mem_append_left _ hevent)
        (hrow.2.1 _ hinv.holds)

/-! ### The end of a migration -/

theorem RowInv.release {k : RestartKnowledge} {row : RestartRow} (h : RowInv k row)
    (migrationRunId : Option Id) :
    RowInv k (row.releaseSourceRestartAfterCleanup migrationRunId)
      ∧ (∀ obligation, RowHolds row obligation →
        RowHolds (row.releaseSourceRestartAfterCleanup migrationRunId) obligation)
      ∧ (row.releaseSourceRestartAfterCleanup migrationRunId).pendingIds = row.pendingIds := by
  unfold RestartRow.releaseSourceRestartAfterCleanup
  split
  · exact ⟨⟨h.recorded, h.armed, h.listed, fun hne => absurd rfl hne⟩,
      fun obligation _ => rowHolds_of_none rfl obligation, rfl⟩
  · exact ⟨h, fun _ hholds => hholds, rfl⟩

theorem finalizeLinkedMigrationSuccess_cases {row row' : RestartRow} {leftStopped : Bool}
    (h : row.finalizeLinkedMigrationSuccess leftStopped = some row') :
    row' = row ∨ (row'.sourceRestartPending = false ∧ row'.reconciliationToken = none
      ∧ row'.resolution = some .intentionallyLeftStopped) := by
  unfold RestartRow.finalizeLinkedMigrationSuccess at h
  split at h
  · split at h
    · cases h
    · exact .inl (Option.some.inj h).symm
  · split at h
    · cases h
      exact .inr ⟨rfl, rfl, rfl⟩
    · cases h

theorem ObligationInv.completeJob (operation : SourceOperation) {s : SourceState}
    (hs : ObligationInv s) (now : Time) :
    ObligationInv (s.completeJob operation now)
      ∧ ∀ id ∈ s.row.pendingIds, id ∉ (s.completeJob operation now).row.pendingIds →
        (s.completeJob operation now).row.resolution = some .intentionallyLeftStopped := by
  have hsame : ∀ s' : SourceState, SameObligation s s' → ObligationInv s'
      ∧ ∀ id ∈ s.row.pendingIds, id ∉ s'.row.pendingIds →
        s'.row.resolution = some .intentionallyLeftStopped := fun s' h =>
    ⟨h.inv hs, fun id hid hgone => absurd (h.row ▸ hid) hgone⟩
  have hrefl : SameObligation s s := ⟨rfl, .inl rfl, rfl, rfl, fun _ h => h⟩
  unfold SourceState.completeJob
  split
  · split
    · exact hsame _ ⟨rfl, .inl rfl, rfl, rfl, fun _ h => h⟩
    · exact hsame s hrefl
  · split
    · split
      · rename_i attempts row _ hrow
        rcases finalizeLinkedMigrationSuccess_cases hrow with rfl | ⟨hpending, htoken, hresolution⟩
        · exact hsame _ ⟨rfl, .inl rfl, rfl, rfl, fun _ h => h⟩
        · refine ⟨hs.of_row rfl rfl rfl (fun _ _ h => h) (rowInv_resolved hpending htoken)
            fun obligation _ => rowHolds_of_none htoken obligation, fun _ _ _ => hresolution⟩
      · exact hsame s hrefl
    · exact hsame s hrefl
  · exact hsame s hrefl

/-! ### The restart reconcilers -/

theorem ObligationInv.claimRestart {operation : SourceOperation} {s : SourceState}
    (hs : ObligationInv s) (worker : ℕ) (token : Id) (now : Time) :
    ObligationInv (s.claimRestart operation worker token now)
      ∧ (s.claimRestart operation worker token now).row.pendingIds = s.row.pendingIds := by
  unfold SourceState.claimRestart
  split
  · rename_i hclaim
    simp only [Bool.and_eq_true, decide_eq_true_eq] at hclaim
    obtain ⟨⟨hnone, hclaimable⟩, hfresh⟩ := hclaim
    have hpending : s.row.sourceRestartPending = true := by
      simp only [RestartRow.restartClaimable, Bool.and_eq_true] at hclaimable
      exact hclaimable.1.1.1.1
    refine ⟨⟨hs.executor, ⟨hs.row.recorded, hs.row.armed, hs.row.listed, fun _ => hpending⟩,
      fun worker' pass hpass => ?_⟩, rfl⟩
    by_cases hworker : worker' = worker
    · -- the new pass: the row it claimed is the row it holds
      subst hworker
      simp only [Function.update_self] at hpass
      cases hpass
      have hopen : ∀ ids, (if s.row.obligationIds.isEmpty = true then RestartPhase.failing []
          else .starting s.row.obligationIds []).open = some ids → ids = s.row.obligationIds := by
        intro ids hids
        split at hids
        · cases hids
        · cases hids
          exact List.append_nil _
      refine ⟨List.mem_cons_self, fun _ => rfl, fun ids hids id hid => ?_, fun ids hids id hid => ?_⟩
      · exact hopen ids hids ▸ hid
      · exact .inl (hopen ids hids ▸ hid)
    · simp only [Function.update_of_ne hworker] at hpass
      have hinv := hs.passes worker' pass hpass
      refine hinv.of_row (fun id hid => List.mem_cons_of_mem _ hid) (fun _ h => h) ?_
      -- an earlier claim is no longer the current one
      intro htoken
      exact absurd (Option.some.inj htoken ▸ hinv.issued) hfresh
  · exact ⟨hs, rfl⟩

theorem ObligationInv.renewRestart {s : SourceState} (hs : ObligationInv s)
    (obligation : SourceRestartObligation) (now : Time) :
    ObligationInv { s with row := s.row.renewRestartClaim obligation now }
      ∧ (s.row.renewRestartClaim obligation now).pendingIds = s.row.pendingIds := by
  have hsame : RowInv (restartKnowledge s.log) (s.row.renewRestartClaim obligation now)
      ∧ (s.row.renewRestartClaim obligation now).pendingIds = s.row.pendingIds
      ∧ ∀ obligation', RowHolds s.row obligation' →
        RowHolds (s.row.renewRestartClaim obligation now) obligation' := by
    unfold RestartRow.renewRestartClaim
    split
    · exact hs.row.of_same rfl rfl rfl
    · exact ⟨hs.row, rfl, fun _ h => h⟩
  exact ⟨hs.of_row rfl rfl rfl (fun _ _ h => h) hsame.1 hsame.2.2, hsame.2.1⟩

theorem ObligationInv.startContainer {s : SourceState} (hs : ObligationInv s) (worker : ℕ)
    (succeeded : Bool) :
    ObligationInv (s.startContainer worker succeeded)
      ∧ (s.startContainer worker succeeded).row = s.row := by
  unfold SourceState.startContainer
  split
  · rename_i obligation id ids failed hpass
    have hinv := hs.passes worker _ hpass
    have hstarted : ∀ id' ∈ obligation.containerIds, id' = id ∨ id' ∈ ids ++ failed
        ∨ .restarted obligation.token id' ∈ s.log := by
      intro id' hid'
      rcases hinv.started _ rfl id' hid' with hmem | hlogged
      · rw [List.cons_append, List.mem_cons] at hmem
        exact hmem.imp_right .inl
      · exact .inr (.inr hlogged)
    split
    · have hlog : restartKnowledge (s.log ++ [.restarted obligation.token id])
          = restartKnowledge s.log := restartKnowledge_snoc _ _
      refine ⟨⟨fun program hprogram => ?_, ?_, fun worker' pass hpass' => ?_⟩, rfl⟩
      · rw [hlog]
        exact hs.executor program hprogram
      · rw [hlog]
        exact hs.row
      · by_cases hworker : worker' = worker
        · subst hworker
          simp only [Function.update_self] at hpass'
          cases hpass'
          refine ⟨hinv.issued, hinv.holds, fun ids' hids' id' hid' => ?_,
            fun ids' hids' id' hid' => ?_⟩ <;> cases hids'
          · exact hinv.within _ rfl id' (List.mem_cons_of_mem _ hid')
          rcases hstarted id' hid' with rfl | hmem | hlogged
          · exact .inr (List.mem_append_right _ List.mem_cons_self)
          · exact .inl hmem
          · exact .inr (List.mem_append_left _ hlogged)
        · simp only [Function.update_of_ne hworker] at hpass'
          have hother := hs.passes worker' pass hpass'
          exact hother.of_row (fun _ h => h) (fun _ h => List.mem_append_left _ h) hother.holds
    · refine ⟨⟨hs.executor, hs.row, fun worker' pass hpass' => ?_⟩, rfl⟩
      by_cases hworker : worker' = worker
      · subst hworker
        simp only [SourceState.setRestart, Function.update_self] at hpass'
        cases hpass'
        refine ⟨hinv.issued, hinv.holds, fun ids' hids' id' hid' => ?_,
          fun ids' hids' id' hid' => ?_⟩ <;> cases hids'
        · refine hinv.within _ rfl id' ?_
          show id' ∈ (id :: ids) ++ failed
          simp only [List.mem_append, List.mem_cons, List.not_mem_nil, or_false] at hid' ⊢
          tauto
        rcases hstarted id' hid' with rfl | hmem | hlogged
        · exact .inl (by simp)
        · exact .inl (by
            rcases List.mem_append.mp hmem with hmem | hmem <;> simp [hmem])
        · exact .inr hlogged
      · simp only [SourceState.setRestart, Function.update_of_ne hworker] at hpass'
        have hother := hs.passes worker' pass hpass'
        exact hother.of_row (fun _ h => h) (fun _ h => h) hother.holds
  · exact ⟨hs, rfl⟩

/-- The end of a pass: `recordRestartSuccess` or `recordRestartFailure` of it, or nothing, and the
    pass is over or goes on to record a failure. -/
theorem recordRestart_cases (s : SourceState) (worker : ℕ) (rejected applied : Bool) :
    s.recordRestart worker rejected applied = s ∨ ∃ obligation phase row pass,
      s.restarts worker = some ⟨obligation, phase⟩
      ∧ s.recordRestart worker rejected applied
        = { s with row := row, restarts := Function.update s.restarts worker pass }
      ∧ (pass = none ∨ pass = some ⟨obligation, .failing []⟩)
      ∧ (row = s.row
        ∨ (phase = .starting [] [] ∧ row = s.row.recordRestartSuccess obligation)
        ∨ ∃ failed, (phase = .starting [] failed ∨ phase = .failing failed)
          ∧ row = s.row.recordRestartFailure obligation failed) := by
  unfold SourceState.recordRestart
  split
  · rename_i obligation hpass
    refine .inr ?_
    split
    · split
      · exact ⟨obligation, _, _, _, hpass, rfl, .inr rfl, .inr (.inl ⟨rfl, rfl⟩)⟩
      · exact ⟨obligation, _, _, _, hpass, rfl, .inr rfl, .inl rfl⟩
    · exact ⟨obligation, _, _, _, hpass, rfl, .inl rfl, .inr (.inl ⟨rfl, rfl⟩)⟩
  · rename_i obligation failed hne hpass
    refine .inr ?_
    split
    · exact ⟨obligation, _, _, _, hpass, rfl, .inl rfl, .inl rfl⟩
    · exact ⟨obligation, _, _, _, hpass, rfl, .inl rfl, .inr (.inr ⟨failed, .inl rfl, rfl⟩)⟩
  · rename_i obligation failed hpass
    refine .inr ?_
    split
    · exact ⟨obligation, _, _, _, hpass, rfl, .inl rfl, .inl rfl⟩
    · exact ⟨obligation, _, _, _, hpass, rfl, .inl rfl, .inr (.inr ⟨failed, .inr rfl, rfl⟩)⟩
  · exact .inl rfl

/-- `recordRestartSuccess` clears an obligation whose ids were all started under the claim. -/
theorem recordRestartSuccess_spec {k : RestartKnowledge} {row : RestartRow}
    {obligation : SourceRestartObligation} (h : RowInv k row) (hholds : RowHolds row obligation) :
    RowInv k (row.recordRestartSuccess obligation)
      ∧ (∀ obligation', RowHolds row obligation' →
        RowHolds (row.recordRestartSuccess obligation) obligation')
      ∧ ∀ id ∈ row.pendingIds, id ∉ (row.recordRestartSuccess obligation).pendingIds →
        row.reconciliationToken = some obligation.token ∧ id ∈ obligation.containerIds := by
  unfold RestartRow.recordRestartSuccess
  split
  · rename_i htoken
    refine ⟨rowInv_resolved rfl rfl, fun obligation' _ => rowHolds_of_none rfl obligation',
      fun id hid _ => ⟨htoken, ?_⟩⟩
    rw [pendingIds_eq (h.claimed (by simp [htoken])), hholds htoken] at hid
    exact hid
  · exact ⟨h, fun _ hholds => hholds, fun id hid hgone => absurd hid hgone⟩

/-- `recordRestartFailure` keeps what the pass holds open, or everything. -/
theorem recordRestartFailure_spec {k : RestartKnowledge} {row : RestartRow}
    {obligation : SourceRestartObligation} (failed : List ContainerId) (h : RowInv k row)
    (hholds : RowHolds row obligation) (hfailed : ∀ id ∈ failed, id ∈ obligation.containerIds) :
    RowInv k (row.recordRestartFailure obligation failed)
      ∧ (∀ obligation', RowHolds row obligation' →
        RowHolds (row.recordRestartFailure obligation failed) obligation')
      ∧ ∀ id ∈ row.pendingIds, id ∉ (row.recordRestartFailure obligation failed).pendingIds →
        row.reconciliationToken = some obligation.token ∧ id ∈ obligation.containerIds
          ∧ failed ≠ [] ∧ id ∉ failed := by
  unfold RestartRow.recordRestartFailure
  split
  · rename_i htoken
    have hpending := h.claimed (by simp [htoken])
    have hids : row.pendingIds = obligation.containerIds := by
      rw [pendingIds_eq hpending, hholds htoken]
    have hunresolved : ∀ id ∈ obligation.unresolvedIds failed, id ∈ obligation.containerIds := by
      intro id hid
      unfold SourceRestartObligation.unresolvedIds at hid
      split at hid
      · exact hid
      · exact hfailed id (mem_uniqueContainerIds.mp hid)
    refine ⟨rowInv_recorded rfl rfl (fun id hid => h.recorded id (hids ▸ hunresolved id hid))
      (h.armed hpending), fun obligation' _ => rowHolds_of_none rfl obligation',
      fun id hid hgone => ?_⟩
    rw [pendingIds_eq rfl, obligationIds_eq rfl, mem_uniqueContainerIds] at hgone
    rw [hids] at hid
    unfold SourceRestartObligation.unresolvedIds at hgone
    split at hgone
    · exact absurd hid hgone
    · rename_i hempty
      refine ⟨htoken, hid, ?_, fun hmem => hgone (mem_uniqueContainerIds.mpr hmem)⟩
      rintro rfl
      exact hempty rfl
  · exact ⟨h, fun _ hholds => hholds, fun id hid hgone => absurd hid hgone⟩

theorem ObligationInv.recordRestart {s : SourceState} (hs : ObligationInv s) (worker : ℕ)
    (rejected applied : Bool) :
    ObligationInv (s.recordRestart worker rejected applied)
      ∧ ∀ id ∈ s.row.pendingIds, id ∉ (s.recordRestart worker rejected applied).row.pendingIds →
        ∃ pass, s.restarts worker = some pass
          ∧ s.row.reconciliationToken = some pass.obligation.token
          ∧ .restarted pass.obligation.token id ∈ s.log := by
  rcases recordRestart_cases s worker rejected applied with heq | ⟨obligation, phase, row, pass,
    hpass, heq, hnext, hrow⟩
  · rw [heq]
    exact ⟨hs, fun id hid hgone => absurd hid hgone⟩
  · rw [heq]
    have hinv := hs.passes worker _ hpass
    -- what the statement does to the point
    have hspec : RowInv (restartKnowledge s.log) row
        ∧ (∀ obligation', RowHolds s.row obligation' → RowHolds row obligation')
        ∧ ∀ id ∈ s.row.pendingIds, id ∉ row.pendingIds →
          s.row.reconciliationToken = some obligation.token
            ∧ .restarted obligation.token id ∈ s.log := by
      rcases hrow with rfl | ⟨rfl, rfl⟩ | ⟨failed, hphase, rfl⟩
      · exact ⟨hs.row, fun _ h => h, fun id hid hgone => absurd hid hgone⟩
      · obtain ⟨hrow, hholds, hgone⟩ := recordRestartSuccess_spec hs.row hinv.holds
        refine ⟨hrow, hholds, fun id hid hleft => ?_⟩
        obtain ⟨htoken, hmem⟩ := hgone id hid hleft
        exact ⟨htoken, (hinv.started _ rfl id hmem).resolve_left (by simp)⟩
      · have hopen : failed ≠ [] → phase.open = some failed := by
          intro hne
          rcases hphase with rfl | rfl
          · rfl
          · cases failed
            · exact absurd rfl hne
            · rfl
        have hwithin : ∀ id ∈ failed, id ∈ obligation.containerIds := fun id hid =>
          hinv.within failed (hopen (List.ne_nil_of_mem hid)) id hid
        obtain ⟨hrow, hholds, hgone⟩ := recordRestartFailure_spec failed hs.row hinv.holds hwithin
        refine ⟨hrow, hholds, fun id hid hleft => ?_⟩
        obtain ⟨htoken, hmem, hne, hnot⟩ := hgone id hid hleft
        exact ⟨htoken, (hinv.started failed (hopen hne) id hmem).resolve_left hnot⟩
    refine ⟨⟨hs.executor, hspec.1, fun worker' pass' hpass' => ?_⟩, fun id hid hgone =>
      ⟨_, hpass, hspec.2.2 id hid hgone⟩⟩
    by_cases hworker : worker' = worker
    · subst hworker
      simp only [Function.update_self] at hpass'
      rcases hnext with rfl | rfl
      · cases hpass'
      · cases hpass'
        exact ⟨hinv.issued, hspec.2.1 _ hinv.holds, fun ids hids => (by cases hids),
          fun ids hids => (by cases hids)⟩
    · simp only [Function.update_of_ne hworker] at hpass'
      have hother := hs.passes worker' pass' hpass'
      exact hother.of_row (fun _ h => h) (fun _ h => h) (hspec.2.1 _ hother.holds)

/-! ### Every step -/

/-- How an id leaves the pending-restart set. -/
def Discharged (operation : SourceOperation) (s : SourceState) (op : SourceOp) (id : ContainerId) :
    Prop :=
  -- a start of it succeeded under the claim that is current when its holder records the outcome
  (∃ worker rejected applied pass, op = .recordRestart worker rejected applied
    ∧ s.restarts worker = some pass ∧ s.row.reconciliationToken = some pass.obligation.token
    ∧ .restarted pass.obligation.token id ∈ s.log)
  -- the source is left stopped on purpose
  ∨ (s.step operation op).row.resolution = some .intentionallyLeftStopped
  -- the executor that recorded it owes it no start
  ∨ ((∃ now choice, op = .executor now choice) ∧ id ∉ (restartKnowledge s.log).owed)

/-- Steps of the reconcilers of restore attempts, of the jobs and of the target. -/
theorem claimAttempt_same (operation : SourceOperation) (s : SourceState) (worker : ℕ)
    (attemptId token : Id) (now : Time) :
    SameObligation s (s.claimAttempt operation worker attemptId token now) := by
  unfold SourceState.claimAttempt
  dsimp only
  split
  · exact ⟨rfl, .inl rfl, rfl, rfl, fun id hid => List.mem_cons_of_mem _ hid⟩
  · exact ⟨rfl, .inl rfl, rfl, rfl, fun _ h => h⟩

theorem renewAttempt_same (s : SourceState) (worker : ℕ) (now : Time) :
    SameObligation s (s.renewAttempt worker now) := by
  unfold SourceState.renewAttempt
  split
  · dsimp only
    split <;> exact ⟨rfl, .inl rfl, rfl, rfl, fun _ h => h⟩
  · dsimp only
    split <;> exact ⟨rfl, .inl rfl, rfl, rfl, fun _ h => h⟩
  · exact ⟨rfl, .inl rfl, rfl, rfl, fun _ h => h⟩

theorem removeResource_same (s : SourceState) (worker : ℕ) (choice : Choice) :
    SameObligation s (s.removeResource worker choice) := by
  unfold SourceState.removeResource
  split <;> exact ⟨rfl, .inl rfl, rfl, rfl, fun _ h => h⟩

theorem lands_same (s : SourceState) (created : Bool) : SameObligation s (s.lands created) := by
  unfold SourceState.lands
  split <;> exact ⟨rfl, .inl rfl, rfl, rfl, fun _ h => h⟩

theorem crash_same (s : SourceState) : SameObligation s s.crash := by
  unfold SourceState.crash
  split <;> exact ⟨rfl, .inr rfl, rfl, rfl, fun _ h => h⟩

theorem ObligationInv.recordAttempt {s : SourceState} (hs : ObligationInv s) (worker : ℕ)
    (now : Time) :
    ObligationInv (s.recordAttempt worker now)
      ∧ (s.recordAttempt worker now).row.pendingIds = s.row.pendingIds := by
  have hsame : ∀ s' : SourceState, SameObligation s s' →
      ObligationInv s' ∧ s'.row.pendingIds = s.row.pendingIds := fun s' h =>
    ⟨h.inv hs, by rw [h.row]⟩
  unfold SourceState.recordAttempt
  split
  · rename_i attempt hpass
    dsimp only
    split
    · obtain ⟨hrow, hholds, hpending⟩ := hs.row.release attempt.migrationRunId
      exact ⟨hs.of_row rfl rfl rfl (fun _ _ h => h) hrow hholds, hpending⟩
    · exact hsame _ ⟨rfl, .inl rfl, rfl, rfl, fun _ h => h⟩
  · exact hsame _ ⟨rfl, .inl rfl, rfl, rfl, fun _ h => h⟩
  · exact hsame _ ⟨rfl, .inl rfl, rfl, rfl, fun _ h => h⟩

/-- **One step.**  It keeps the invariant, and an id that leaves the set is discharged. -/
theorem ObligationInv.step {operation : SourceOperation} {s : SourceState} (hs : ObligationInv s)
    (op : SourceOp) :
    ObligationInv (s.step operation op)
      ∧ ∀ id ∈ s.row.pendingIds, id ∉ (s.step operation op).row.pendingIds →
        Discharged operation s op id := by
  -- steps after which the same ids are pending
  have hkeeps : ∀ s' : SourceState, ObligationInv s' ∧ s'.row.pendingIds = s.row.pendingIds →
      ObligationInv s' ∧ ∀ id ∈ s.row.pendingIds, id ∉ s'.row.pendingIds →
        Discharged operation s op id := fun s' h =>
    ⟨h.1, fun id hid hgone => absurd (h.2 ▸ hid) hgone⟩
  have hsame : ∀ s' : SourceState, SameObligation s s' → ObligationInv s' ∧
      ∀ id ∈ s.row.pendingIds, id ∉ s'.row.pendingIds → Discharged operation s op id :=
    fun s' h => hkeeps s' ⟨h.inv hs, by rw [h.row]⟩
  have hrefl : SameObligation s s := ⟨rfl, .inl rfl, rfl, rfl, fun _ h => h⟩
  cases op with
  | executor now choice =>
    obtain ⟨hinv, hgone⟩ := hs.runExecutor operation now choice
    refine ⟨hinv, fun id hid hleft => ?_⟩
    rcases hgone id hid hleft with hresolution | howed
    · exact .inr (.inl hresolution)
    · exact .inr (.inr ⟨⟨now, choice, rfl⟩, howed⟩)
  | crash => exact hsame _ (crash_same s)
  | endJob =>
    simp only [SourceState.step]
    split
    · exact hsame _ ⟨rfl, .inl rfl, rfl, rfl, fun _ h => h⟩
    · exact hsame _ hrefl
  | completeJob now =>
    obtain ⟨hinv, hgone⟩ := hs.completeJob operation now
    exact ⟨hinv, fun id hid hleft => .inr (.inl (hgone id hid hleft))⟩
  | otherJobs jobs migrations => exact hsame _ ⟨rfl, .inl rfl, rfl, rfl, fun _ h => h⟩
  | lands created => exact hsame _ (lands_same s created)
  | claimRestart worker token now => exact hkeeps _ (hs.claimRestart worker token now)
  | renewRestart worker now =>
    simp only [SourceState.step]
    split
    · exact hkeeps _ (hs.renewRestart _ now)
    · exact hsame _ hrefl
  | startContainer worker succeeded =>
    obtain ⟨hinv, hrow⟩ := hs.startContainer worker succeeded
    exact hkeeps _ ⟨hinv, by rw [SourceState.step, hrow]⟩
  | recordRestart worker rejected applied =>
    obtain ⟨hinv, hgone⟩ := hs.recordRestart worker rejected applied
    refine ⟨hinv, fun id hid hleft => ?_⟩
    obtain ⟨pass, hpass⟩ := hgone id hid hleft
    exact .inl ⟨worker, rejected, applied, pass, rfl, hpass⟩
  | dropRestart worker =>
    refine hkeeps _ ⟨hs.of_row rfl rfl rfl (fun worker' pass hpass => ?_) hs.row fun _ h => h, rfl⟩
    by_cases hworker : worker' = worker
    · subst hworker
      simp [SourceState.step, SourceState.setRestart] at hpass
    · simpa [SourceState.step, SourceState.setRestart, Function.update_of_ne hworker] using hpass
  | claimAttempt worker attemptId token now =>
    exact hsame _ (claimAttempt_same operation s worker attemptId token now)
  | renewAttempt worker now => exact hsame _ (renewAttempt_same s worker now)
  | removeResource worker choice => exact hsame _ (removeResource_same s worker choice)
  | recordAttempt worker now => exact hkeeps _ (hs.recordAttempt worker now)
  | dropAttempt worker => exact hsame _ ⟨rfl, .inl rfl, rfl, rfl, fun _ h => h⟩

/-! ### Every run -/

theorem obligationInv_initial (operation : SourceOperation) :
    ObligationInv (.initial operation) := by
  refine ⟨fun program hprogram => ?_, rowInv_resolved rfl rfl, fun worker pass hpass => by cases hpass⟩
  cases hprogram
  show AsksIn operation.program _ _ _
  unfold SourceOperation.program
  split
  · exact holds_do.mpr ((runRecoveryCreate_asks _ ⟨rfl, rfl⟩).imp (fun _ _ _ => trivial)
      fun _ _ _ => trivial)
  · exact runMigrationExecute_asks _ _ ⟨rfl, rfl⟩

/-- **Restart obligation.**  In every run of an operation, its reconcilers and its job, with any
    answers and any crashes, an id leaves the pending-restart set of the point only with a start
    that succeeded under the current claim, with an explicit left-stopped resolution, or by the
    executor of the operation when it owes the container no start. -/
theorem restart_obligation (operation : SourceOperation) (ops : List SourceOp) (op : SourceOp)
    (id : ContainerId)
    (hid : id ∈ (exec (SourceState.step operation) (.initial operation) ops).row.pendingIds)
    (hleft : id ∉ ((exec (SourceState.step operation) (.initial operation) ops).step operation
      op).row.pendingIds) :
    Discharged operation (exec (SourceState.step operation) (.initial operation) ops) op id := by
  have hinv : ObligationInv (exec (SourceState.step operation) (.initial operation) ops) :=
    exec_invariant (fun s op hs => (hs.step op).1) (obligationInv_initial operation) ops
  exact (hinv.step op).2 id hid hleft

/-- A stop-first capture of one point. -/
def captureOperation : SourceOperation where
  recoveryPointId := "point"
  kind := .capture true
  job :=
    { id := "job"
      hostId := some "host"
      payload := .recoveryCreate "point"
      recoveryScopes := none
      status := .running
      result := none
      error := none
      attemptCount := 1
      leaseOwner := some "worker"
      leaseExpiresAt := some 60
      idempotencyKey := none
      createdAt := 0
      updatedAt := 0
      startedAt := some 0
      completedAt := none }
  running := rfl
  bound := by decide

/-- The capture up to the stop of its one container `web`. -/
def captureUntilStop : List SourceOp :=
  [.succeed, .succeed, .uuid "capture", .succeed, .succeed,
    .inspected [⟨"web", by decide⟩] [⟨"web", by decide⟩], .succeed, .succeed].map (.executor 0)

/-- The worker is lost after the stop, a reconciler claims the point and starts the container: the
    id leaves with that start. -/
theorem restart_obligation_of_lost_worker :
    let ops := captureUntilStop ++ [.executor 0 .succeed, .crash, .endJob, .claimRestart 0 "claim" 0,
      .startContainer 0 true]
    Discharged captureOperation
      (exec (SourceState.step captureOperation) (.initial captureOperation) ops)
      (.recordRestart 0 false false) ⟨"web", by decide⟩ :=
  restart_obligation captureOperation _ _ _ (by decide +kernel) (by decide +kernel)

/-- Where Docker refuses the stop, the capture resolves its obligation as not applied: the id leaves
    although nobody has started it and no claim was ever taken. -/
theorem refused_stop_leaves_unstarted :
    ¬ ∀ (operation : SourceOperation) (ops : List SourceOp) (op : SourceOp) (id : ContainerId),
      id ∈ (exec (SourceState.step operation) (.initial operation) ops).row.pendingIds →
      id ∉ ((exec (SourceState.step operation) (.initial operation) ops).step operation
        op).row.pendingIds →
      (∃ token, (exec (SourceState.step operation) (.initial operation)
          ops).row.reconciliationToken = some token
        ∧ .restarted token id ∈ (exec (SourceState.step operation) (.initial operation) ops).log)
      ∨ ((exec (SourceState.step operation) (.initial operation) ops).step operation
        op).row.resolution = some .intentionallyLeftStopped := by
  intro h
  rcases h captureOperation (captureUntilStop ++ [.executor 0 (.refuse false)])
    (.executor 0 .succeed) ⟨"web", by decide⟩ (by decide +kernel) (by decide +kernel) with
    ⟨token, htoken, -⟩ | hresolution
  · have hnone : (exec (SourceState.step captureOperation) (.initial captureOperation)
        (captureUntilStop ++ [.executor 0 (.refuse false)])).row.reconciliationToken = none := by
      decide +kernel
    rw [hnone] at htoken
    cases htoken
  · revert hresolution
    decide +kernel

end ComposeBastion
