import ComposeBastion.Backup.Deletion

namespace ComposeBastion

open DeletionClaim

/-!
# The steps of deletions and captures

What one step of `BackupState.step` can do, said once for each part of the state.

* `TableChange`, `step_tableChange` — the statements a step issues on `backups`;
* `BackupChange`, `step_origin` — what they do to one row;
* `DeleterChange`, `step_deleters` — which claims a deleter comes to know of;
* `CaptureMove`, `step_captures` — how a capture moves;
* `StepFrame`, `step_frame` — which files and objects a step deletes, and which jobs it changes.
-/

namespace BackupState

/-! ### What steps do to the backups -/

/-- What is published in a row. -/
structure SamePublication (row row' : BackupRow) : Prop where
  remoteObjectKey : row'.remoteObjectKey = row.remoteObjectKey
  sizeBytes : row'.sizeBytes = row.sizeBytes
  checksum : row'.checksum = row.checksum
  committed : row'.captureCommittedToken = row.captureCommittedToken

/-- What bookkeeping leaves alone in a row. -/
structure Kept (row row' : BackupRow) : Prop where
  id : row'.id = row.id
  fileName : row'.fileName = row.fileName
  claim : row'.claim = row.claim
  publication : SamePublication row row'
  status : row'.status = row.status ∨ row'.status = .failed ∨ row.claim.token = none
  orphans : ∀ key ∈ row'.orphanRemoteObjectKeys,
    key ∈ row.orphanRemoteObjectKeys ∨ key.namespaceId = row.id

/-- The statements on `backups` a step may issue. -/
inductive TableChange (s : BackupState) (op : BackupOp) : BackupTable → Prop
  | same : TableChange s op s.backups
  | claim (id : Id) (token : ClaimToken) (now : Time) (backups : BackupTable) (row : BackupRow)
      (hid : (∃ worker, op = .delete worker id token now)
        ∨ ∃ worker, id ∈ (s.deleters worker).retention)
      (h : deleteBackup s id token now = .ok (some (backups, row))) : TableChange s op backups
  | renew (d : Deletion Id ClaimToken) (now : Time) :
      TableChange s op (DeletionClaim.heartbeat backupSchema s.backups d now)
  | takeOver (now : Time) (selected : List (Id × ClaimToken)) :
      TableChange s op (reconcileClaimedBackupDeletions now selected s).1.backups
  | finish (worker : ℕ) (claimed : ClaimedBackup) (hop : op = .finish worker)
      (hphase : (s.deleters worker).phase.claimed = some claimed) :
      TableChange s op (DeletionClaim.finish backupSchema s.backups claimed.1)
  | update (p : BackupRow → Bool) (f : BackupRow → BackupRow)
      (hf : ∀ row, backupSchema.key (f row) = backupSchema.key row)
      (h : ∀ row, p row = true → Kept row (f row)) : TableChange s op (s.backups.update p f hf)
  | publish (executor : ℕ) (capture : Capture) (now : Time) (backups : BackupTable)
      (hphase : s.captures executor = .captured capture)
      (hnext : ∃ phase, (s.step op).captures = Function.update s.captures executor phase
        ∧ (phase = .idle ∨ phase = .uncertain capture))
      (h : publishBackupCaptureAttempt s.backups capture now = .ok backups) :
      TableChange s op backups

theorem claimDeletion_tableChange {s : BackupState} {op : BackupOp} {worker : ℕ}
    {retention : List Id} {id : Id} {token : ClaimToken} {now : Time}
    (hid : (∃ worker, op = .delete worker id token now)
      ∨ ∃ worker, id ∈ (s.deleters worker).retention) :
    TableChange s op (s.claimDeletion worker retention id token now).backups := by
  unfold claimDeletion
  split
  · rename_i backups backup hdelete
    exact .claim id token now backups backup hid hdelete
  · exact .same
  · exact .same

theorem kept_beginCapture {row : BackupRow} (token : ClaimToken) (now : Time)
    (h : row.claim.token = none) : Kept row (row.beginCapture token now) where
  id := rfl
  fileName := rfl
  claim := rfl
  publication := ⟨rfl, rfl, rfl, rfl⟩
  status := Or.inr (Or.inr h)
  orphans _ hkey := Or.inl hkey

theorem kept_failed (row : BackupRow) (message : String) (now : Time) :
    Kept row (row.fail message now) where
  id := rfl
  fileName := rfl
  claim := rfl
  publication := ⟨rfl, rfl, rfl, rfl⟩
  status := Or.inr (Or.inl rfl)
  orphans _ hkey := Or.inl hkey

theorem tableChange_fail {s : BackupState} {op : BackupOp} (p : BackupRow → Bool)
    (message : String) (now : Time) :
    TableChange s op (s.backups.update p (·.fail message now) fun _ => rfl) :=
  @TableChange.update s op p (·.fail message now) (fun _ => rfl)
    fun row _ => kept_failed row message now

theorem kept_orphan {row : BackupRow} {key : RemoteObjectKey} (h : key.namespaceId = row.id) :
    Kept row (row.recordOrphan key) where
  id := rfl
  fileName := rfl
  claim := rfl
  publication := ⟨rfl, rfl, rfl, rfl⟩
  status := Or.inl rfl
  orphans key' hkey' := by
    rw [BackupRow.recordOrphan, List.mem_eraseDups, List.mem_append, List.mem_singleton] at hkey'
    rcases hkey' with hkey' | rfl
    · exact Or.inl hkey'
    · exact Or.inr h

/-- What a capture that begins has found. -/
theorem beginBackupCaptureAttempt_ok {t t' : BackupTable} {backupId : Id} {token : ClaimToken}
    {now : Time} (h : beginBackupCaptureAttempt t backupId token now = .ok t') :
    t' = t.update (fun row => row.id = uuidText backupId && row.claim.token.isNone)
      (·.beginCapture token now) fun _ => rfl := by
  unfold beginBackupCaptureAttempt at h
  split at h
  · cases h
    rfl
  · cases h

/-- What the end of a deletion leaves alone. -/
theorem finishBackupDeletion_ok {s s' : BackupState} {d : Deletion Id ClaimToken}
    (h : finishBackupDeletion s d = .ok (some s')) :
    s'.backups = DeletionClaim.finish backupSchema s.backups d ∧ s'.deleters = s.deleters
      ∧ s'.captures = s.captures ∧ s'.drawn = s.drawn ∧ s'.files = s.files
      ∧ s'.objects = s.objects ∧ s'.jobs = s.jobs := by
  unfold finishBackupDeletion at h
  repeat' split at h
  all_goals first
    | (cases h; exact ⟨rfl, rfl, rfl, rfl, rfl, rfl, rfl⟩)
    | cases h

/-- **Attribution.**  Every step issues one of these statements on `backups`. -/
theorem step_tableChange (s : BackupState) (op : BackupOp) :
    TableChange s op (s.step op).backups := by
  cases op with
  | delete worker id token now =>
    simp only [step]
    split
    · exact claimDeletion_tableChange (Or.inl ⟨worker, rfl⟩)
    · exact .same
  | retention worker scheduleId retentionCount => simp only [step]; split <;> exact .same
  | deleteRetained worker token now =>
    simp only [step]
    split
    · rename_i id retention hdeleter
      refine claimDeletion_tableChange (Or.inr ⟨worker, ?_⟩)
      rw [hdeleter]
      exact List.mem_cons_self
    · exact .same
  | reconcile worker now selected =>
    simp only [step]
    split
    · exact .takeOver now selected
    · exact .same
  | next worker => simp only [step]; split <;> exact .same
  | heartbeat worker now =>
    simp only [step]
    split
    · exact .renew _ _
    · exact .same
  | removeObject worker =>
    simp only [step]
    split
    · split <;> exact .same
    · exact .same
  | removeFile worker =>
    simp only [step]
    split
    · split <;> exact .same
    · exact .same
  | finish worker =>
    simp only [step]
    split
    · rename_i claimed hphase
      split
      · rename_i s' hfinish
        rw [setDeleter, (finishBackupDeletion_ok hfinish).1]
        exact .finish worker claimed rfl (by rw [hphase]; rfl)
      · exact .same
      · exact .same
    · exact .same
  | fail worker => exact .same
  | request backupId operation admission jobId now => simp only [step]; split <;> exact .same
  | retry jobId admitted now => exact .same
  | beginCapture executor backupId token now =>
    simp only [step]
    split
    · rename_i backup backups _ _ hbegin
      split
      · exact .same
      · rw [setCapture, beginBackupCaptureAttempt_ok hbegin]
        refine @TableChange.update s _ _ (·.beginCapture token now) (fun _ => rfl)
          fun row hrow => kept_beginCapture token now ?_
        simp only [Bool.and_eq_true, Option.isNone_iff_eq_none] at hrow
        exact hrow.2
    · exact .same
  | upload executor sizeBytes checksum outcome => simp only [step]; split <;> exact .same
  | publish executor outcome now =>
    cases hphase : s.captures executor with
    | captured capture =>
      have hstep : s.step (.publish executor outcome now)
          = s.publishCapture executor capture outcome now := by
        simp only [step, hphase]
      have hnext : ∃ phase, (s.step (.publish executor outcome now)).captures
          = Function.update s.captures executor phase
            ∧ (phase = .idle ∨ phase = .uncertain capture) := by
        rw [hstep]
        unfold publishCapture
        split
        · exact ⟨_, rfl, Or.inl rfl⟩
        all_goals exact ⟨_, rfl, Or.inr rfl⟩
      have hsame : (s.step (.publish executor outcome now)).backups = s.backups
          ∨ publishBackupCaptureAttempt s.backups capture now
            = .ok (s.step (.publish executor outcome now)).backups := by
        rw [hstep]
        unfold publishCapture
        split
        · rename_i hok
          exact Or.inr hok
        · rename_i hok
          exact Or.inr hok
        all_goals exact Or.inl rfl
      rcases hsame with hsame | hok
      · rw [hsame]
        exact .same
      · exact .publish executor capture now _ hphase hnext hok
    | idle => simp only [step, hphase]; exact .same
    | begun backup token => simp only [step, hphase]; exact .same
    | uncertain capture => simp only [step, hphase]; exact .same
    | uncommitted capture => simp only [step, hphase]; exact .same
    | failing backup token => simp only [step, hphase]; exact .same
  | reconcileCommit executor readable => simp only [step]; split <;> exact .same
  | compensate executor deleted =>
    simp only [step]
    split
    · rename_i capture _
      unfold compensateCapture
      dsimp only
      split
      · split
        · exact .same
        · refine @TableChange.update s _ _ (·.recordOrphan capture.key) (fun _ => rfl)
            fun row hrow => kept_orphan ?_
          simp only [Bool.and_eq_true, decide_eq_true_eq] at hrow
          exact hrow.1.symm
      · exact .same
    · exact .same
  | captureFailed executor message now =>
    simp only [step]
    split
    · exact tableChange_fail _ message now
    · exact tableChange_fail _ message now
    · exact tableChange_fail _ message now
    · exact .same
  | abandon executor => exact .same
  | job id status => exact .same
  | failBackup backupId message now => exact tableChange_fail _ message now
  | attempts attempts => exact .same

/-! ### What steps do to one row -/

/-- What a step may do to a row. -/
inductive BackupChange (s : BackupState) (op : BackupOp) (row : BackupRow) : BackupRow → Prop
  | claim (id : Id) (token : ClaimToken) (now : Time) (hkey : row.id = uuidText id)
      (hid : (∃ worker, op = .delete worker id token now)
        ∨ ∃ worker, id ∈ (s.deleters worker).retention)
      (hfree : row.claim.token = none) (hactive : hasActiveBackupJob s id = false)
      (hpending : hasPendingBackupAttempt s id = false) (c : Claim ClaimToken)
      (hc : c.token = some token) : BackupChange s op row { row with claim := c }
  | renew (c : Claim ClaimToken) (hc : c.token = row.claim.token) :
      BackupChange s op row { row with claim := c }
  | keep (row' : BackupRow) (h : Kept row row') : BackupChange s op row row'
  | publish (executor : ℕ) (capture : Capture) (now : Time)
      (hphase : s.captures executor = .captured capture)
      (hnext : ∃ phase, (s.step op).captures = Function.update s.captures executor phase
        ∧ (phase = .idle ∨ phase = .uncertain capture))
      (howns : capture.owns row = true) : BackupChange s op row (capture.commit now row)

theorem Kept.refl (row : BackupRow) : Kept row row :=
  ⟨rfl, rfl, rfl, ⟨rfl, rfl, rfl, rfl⟩, Or.inl rfl, fun _ hkey => Or.inl hkey⟩

/-- What a deletion has checked when it claims a backup. -/
theorem deleteBackup_ok {s : BackupState} {id : Id} {token : ClaimToken} {now : Time}
    {backups : BackupTable} {row : BackupRow}
    (h : deleteBackup s id token now = .ok (some (backups, row))) :
    backups = take backupSchema s.backups (uuidText id) token now
      ∧ s.backups.find (uuidText id) = some row ∧ row.claim.token = none
      ∧ hasActiveBackupJob s id = false ∧ hasPendingBackupAttempt s id = false := by
  unfold deleteBackup at h
  cases hrow : s.backups.find (uuidText id) with
  | none => simp [hrow] at h
  | some found =>
    simp only [hrow] at h
    split at h
    · cases h
    · split at h
      · cases h
      · rename_i hclaim
        split at h
        · cases h
        · rename_i hactive
          split at h
          · cases h
          · rename_i hpending
            cases h
            exact ⟨rfl, rfl, by simpa [backupHasDeletionClaim] using hclaim, by simpa using hactive,
              by simpa using hpending⟩

/-- What a capture that publishes has checked. -/
theorem publishBackupCaptureAttempt_ok {t t' : BackupTable} {capture : Capture} {now : Time}
    (h : publishBackupCaptureAttempt t capture now = .ok t') :
    t' = t.update capture.owns (capture.commit now) fun _ => rfl := by
  unfold publishBackupCaptureAttempt at h
  split at h
  · cases h
  · split at h
    · cases h
    · cases h
      rfl

/-- What a reconciler has found when it takes a claim over. -/
theorem reconcileBackupDeletion_ok {s : BackupState} {now : Time} {id : Id} {token : ClaimToken}
    {backups : BackupTable} {claimed : ClaimedBackup}
    (h : reconcileBackupDeletion s now id token = some (backups, claimed)) :
    ∃ found claimToken backup, s.backups.find id = some found
      ∧ found.claim.token = some claimToken ∧ backups.find id = some backup
      ∧ backups = takeOver backupSchema s.backups id claimToken token now
      ∧ claimed = (⟨id, claimToken, some token⟩, backup) := by
  unfold reconcileBackupDeletion at h
  split at h
  · cases h
  · rename_i found hfound
    split at h
    · obtain ⟨claimToken, htoken, hmap⟩ := Option.bind_eq_some_iff.mp h
      obtain ⟨backup, hbackup, heq⟩ := Option.map_eq_some_iff.mp hmap
      cases heq
      exact ⟨found, claimToken, backup, hfound, htoken, hbackup, rfl, rfl⟩
    · cases h

theorem reconcileBackupDeletion_takeOver {s : BackupState} {now : Time} {id : Id}
    {token : ClaimToken} {backups : BackupTable} {claimed : ClaimedBackup}
    (h : reconcileBackupDeletion s now id token = some (backups, claimed)) :
    ∃ claimToken, backups = takeOver backupSchema s.backups id claimToken token now := by
  obtain ⟨-, claimToken, -, -, -, -, hbackups, -⟩ := reconcileBackupDeletion_ok h
  exact ⟨claimToken, hbackups⟩

/-- A reconciler changes only the backups. -/
theorem reconcile_frame (now : Time) (selected : List (Id × ClaimToken)) (s : BackupState) :
    (reconcileClaimedBackupDeletions now selected s).1
      = { s with backups := (reconcileClaimedBackupDeletions now selected s).1.backups } := by
  induction selected generalizing s with
  | nil => rfl
  | cons pair rest ih =>
    rw [reconcileClaimedBackupDeletions]
    split
    · exact ih s
    · exact ih _

/-- A reconciler removes no row. -/
theorem reconcile_present (now : Time) (selected : List (Id × ClaimToken)) (s : BackupState) :
    ∀ row ∈ s.backups,
      (reconcileClaimedBackupDeletions now selected s).1.backups.find row.id ≠ none := by
  induction selected generalizing s with
  | nil =>
    intro row hrow hnone
    exact Table.find_eq_none.mp hnone row hrow rfl
  | cons pair rest ih =>
    obtain ⟨id, token⟩ := pair
    intro row hrow
    rw [reconcileClaimedBackupDeletions]
    split
    · exact ih s row hrow
    · rename_i backups claimed hclaim
      obtain ⟨claimToken, rfl⟩ := reconcileBackupDeletion_takeOver hclaim
      obtain ⟨row', hrow', hid'⟩ : ∃ row' ∈ takeOver backupSchema s.backups id claimToken token now,
          row'.id = row.id := by
        refine ⟨_, (mem_takeOver _).mpr ⟨row, hrow, rfl⟩, ?_⟩
        split <;> rfl
      rw [← hid']
      exact ih { s with backups := takeOver backupSchema s.backups id claimToken token now } row'
        hrow'

/-- The claims of a reconciler, one row after the other. -/
theorem reconcile_origin (now : Time) (selected : List (Id × ClaimToken)) (s : BackupState) :
    ∀ row' ∈ (reconcileClaimedBackupDeletions now selected s).1.backups,
      ∃ row ∈ s.backups, ∃ c : Claim ClaimToken, c.token = row.claim.token
        ∧ row' = { row with claim := c } := by
  induction selected generalizing s with
  | nil => exact fun row hrow => ⟨row, hrow, row.claim, rfl, rfl⟩
  | cons pair rest ih =>
    obtain ⟨id, token⟩ := pair
    intro row' hrow'
    rw [reconcileClaimedBackupDeletions] at hrow'
    split at hrow'
    · exact ih s row' hrow'
    · rename_i backups claimed hclaim
      obtain ⟨row₁, hrow₁, c, hc, rfl⟩ := ih { s with backups := backups } row' hrow'
      obtain ⟨claimToken, rfl⟩ := reconcileBackupDeletion_takeOver hclaim
      -- the row before was met by the `UPDATE`, or it was not
      obtain ⟨row, hrow, rfl⟩ := (mem_takeOver _).mp hrow₁
      refine ⟨row, hrow, c, ?_, ?_⟩
      · split at hc <;> exact hc
      · split <;> rfl

/-- **Origins.**  Every row after a step is what one of these changes made of a row before. -/
theorem step_origin (s : BackupState) (op : BackupOp) :
    ∀ row' ∈ (s.step op).backups, ∃ row ∈ s.backups, row'.id = row.id
      ∧ BackupChange s op row row' := by
  intro row' hrow'
  generalize htable : (s.step op).backups = t' at hrow'
  have hchange : TableChange s op t' := htable ▸ step_tableChange s op
  cases hchange with
  | same => exact ⟨row', hrow', rfl, .keep row' (.refl row')⟩
  | claim id token now _ found hid h =>
    obtain ⟨rfl, hfound, hfree, hactive, hpending⟩ := deleteBackup_ok h
    obtain ⟨row, hrow, rfl⟩ := (mem_take _).mp hrow'
    split
    · rename_i hkey
      have hkey : row.id = uuidText id := of_decide_eq_true hkey
      have hsame : found = row :=
        Option.some.inj (hfound.symm.trans (Table.find_eq_some.mpr ⟨hrow, hkey⟩))
      exact ⟨row, hrow, rfl, .claim id token now hkey hid (hsame ▸ hfree) hactive hpending _ rfl⟩
    · exact ⟨row, hrow, rfl, .keep row (.refl row)⟩
  | renew d now =>
    obtain ⟨row, hrow, rfl⟩ := (mem_heartbeat _).mp hrow'
    split
    · exact ⟨row, hrow, rfl, .renew _ rfl⟩
    · exact ⟨row, hrow, rfl, .keep row (.refl row)⟩
  | takeOver now selected =>
    obtain ⟨row, hrow, c, hc, rfl⟩ := reconcile_origin now selected s row' hrow'
    exact ⟨row, hrow, rfl, .renew c hc⟩
  | finish worker claimed hop hphase =>
    exact ⟨row', (Table.mem_delete.mp hrow').1, rfl, .keep row' (.refl row')⟩
  | update p f hf h =>
    obtain ⟨row, hrow, rfl⟩ := Table.mem_update.mp hrow'
    split
    · rename_i hp
      exact ⟨row, hrow, (h row hp).id, .keep _ (h row hp)⟩
    · exact ⟨row, hrow, rfl, .keep row (.refl row)⟩
  | publish executor capture now _ hphase hnext h =>
    rw [publishBackupCaptureAttempt_ok h] at hrow'
    obtain ⟨row, hrow, rfl⟩ := (@Table.mem_update _ _ _ s.backups _ (capture.commit now)
      (fun _ => rfl) _).mp hrow'
    split
    · rename_i howns
      exact ⟨row, hrow, rfl, .publish executor capture now hphase hnext howns⟩
    · exact ⟨row, hrow, rfl, .keep row (.refl row)⟩

/-- The row after a step is a change of the row before. -/
theorem step_find {s : BackupState} {op : BackupOp} {row row' : BackupRow} (hrow : row ∈ s.backups)
    (h : (s.step op).backups.find row.id = some row') : BackupChange s op row row' := by
  obtain ⟨hmem, hid⟩ := Table.find_eq_some.mp h
  obtain ⟨row₀, hrow₀, hid₀, hchange⟩ := step_origin s op row' hmem
  have hsame : row₀ = row := Table.eq_of_key_eq hrow₀ hrow (hid₀.symm.trans hid)
  exact hsame ▸ hchange

/-! ### Rows under a change -/

theorem BackupChange.fileName {s : BackupState} {op : BackupOp} {row row' : BackupRow}
    (h : BackupChange s op row row') : row'.fileName = row.fileName := by
  cases h with
  | claim | renew | publish => rfl
  | keep _ hkept => exact hkept.fileName

/-- A claim that was taken stays. -/
theorem BackupChange.token {s : BackupState} {op : BackupOp} {row row' : BackupRow}
    (h : BackupChange s op row row') {token : ClaimToken} (htoken : row.claim.token = some token) :
    row'.claim.token = some token := by
  cases h with
  | claim id token' now hkey hid hfree hactive hpending c hc =>
    rw [hfree] at htoken
    cases htoken
  | renew c hc => exact hc.trans htoken
  | keep _ hkept => rw [hkept.claim, htoken]
  | publish => exact htoken

/-- The capture is what the row has published. -/
structure CommittedTo (capture : Capture) (row : BackupRow) : Prop where
  id : row.id = capture.backup.id
  committed : row.captureCommittedToken = some capture.token
  sizeBytes : row.sizeBytes = some capture.sizeBytes
  checksum : row.checksum = some capture.checksum
  remoteObjectKey : row.remoteObjectKey = capture.remoteObjectKey

/-- What a row has published after a change. -/
theorem BackupChange.publication {s : BackupState} {op : BackupOp} {row row' : BackupRow}
    (h : BackupChange s op row row') :
    SamePublication row row' ∨ ∃ executor capture, s.captures executor = .captured capture
      ∧ ((s.step op).captures executor = .idle
        ∨ (s.step op).captures executor = .uncertain capture)
      ∧ CommittedTo capture row' ∧ row.claim.token = none := by
  cases h with
  | claim => exact Or.inl ⟨rfl, rfl, rfl, rfl⟩
  | renew => exact Or.inl ⟨rfl, rfl, rfl, rfl⟩
  | keep _ hkept => exact Or.inl hkept.publication
  | publish executor capture now hphase hnext howns =>
    obtain ⟨phase, hcaptures, hphase'⟩ := hnext
    simp only [Capture.owns, Bool.and_eq_true, decide_eq_true_eq, Option.isNone_iff_eq_none] at howns
    refine Or.inr ⟨executor, capture, hphase, ?_, ⟨howns.1.1, rfl, rfl, rfl, rfl⟩, howns.2⟩
    rw [hcaptures, Function.update_self]
    exact hphase'

/-- The keys of a row are in its namespace. -/
def OwnKeys (row : BackupRow) : Prop :=
  ∀ key ∈ backupRemoteObjectKeys row, key.namespaceId = row.id

theorem ownKeys_iff {row : BackupRow} :
    OwnKeys row ↔ (∀ key, row.remoteObjectKey = some key → key.namespaceId = row.id)
      ∧ ∀ key ∈ row.orphanRemoteObjectKeys, key.namespaceId = row.id := by
  simp only [OwnKeys, mem_backupRemoteObjectKeys]
  exact ⟨fun h => ⟨fun key hkey => h key (Or.inl hkey), fun key hkey => h key (Or.inr hkey)⟩,
    fun h key hkey => hkey.elim (h.1 key) (h.2 key)⟩

/-- The locator of a capture is its own key. -/
theorem key_of_remoteObjectKey {capture : Capture} {key : RemoteObjectKey}
    (h : capture.remoteObjectKey = some key) : key = capture.key := by
  unfold Capture.remoteObjectKey at h
  split at h
  · exact (Option.some.inj h).symm
  · cases h
  · cases h
  · cases h

theorem key_of_remoteObjectPendingCommit {capture : Capture} {key : RemoteObjectKey}
    (h : capture.remoteObjectPendingCommit = some key) : key = capture.key := by
  unfold Capture.remoteObjectPendingCommit at h
  split at h
  · exact (Option.some.inj h).symm
  · exact (Option.some.inj h).symm
  · cases h
  · cases h

/-- The orphans a capture publishes are the row's, or in the namespace of its backup. -/
theorem mem_orphans_of_capture {capture : Capture} {row : BackupRow} {key : RemoteObjectKey}
    (hown : OwnKeys capture.backup) (hkey : key ∈ capture.orphanRemoteObjectKeys row) :
    key ∈ row.orphanRemoteObjectKeys ∨ key.namespaceId = capture.backup.id := by
  unfold Capture.orphanRemoteObjectKeys at hkey
  split at hkey
  · rw [List.mem_eraseDups, List.mem_append, List.mem_singleton] at hkey
    rcases hkey with hkey | rfl
    · exact Or.inr ((ownKeys_iff.mp hown).2 key hkey)
    · exact Or.inr rfl
  · exact Or.inl hkey
  · exact Or.inl hkey
  · exact Or.inl hkey

/-- A change keeps the keys of a row in its namespace. -/
theorem BackupChange.ownKeys {s : BackupState} {op : BackupOp} {row row' : BackupRow}
    (h : BackupChange s op row row') (hown : OwnKeys row)
    (hcaptures : ∀ executor capture, s.captures executor = .captured capture →
      OwnKeys capture.backup) : OwnKeys row' := by
  cases h with
  | claim => exact hown
  | renew => exact hown
  | keep _ hkept =>
    rw [ownKeys_iff] at hown ⊢
    rw [hkept.id, hkept.publication.remoteObjectKey]
    refine ⟨hown.1, fun key hkey => ?_⟩
    exact (hkept.orphans key hkey).elim (hown.2 key) id
  | publish executor capture now hphase hnext howns =>
    simp only [Capture.owns, Bool.and_eq_true, decide_eq_true_eq] at howns
    rw [ownKeys_iff] at hown ⊢
    constructor
    · intro key hkey
      rw [key_of_remoteObjectKey hkey]
      exact howns.1.1.symm
    · intro key hkey
      rcases mem_orphans_of_capture (hcaptures executor capture hphase) hkey with hkey | hkey
      · exact hown.2 key hkey
      · exact hkey.trans howns.1.1.symm

/-! ### What steps do to the deleters -/

@[simp] theorem setDeleter_self (s : BackupState) (worker : ℕ) (deleter : BackupDeleter) :
    (s.setDeleter worker deleter).deleters worker = deleter := Function.update_self ..

theorem setDeleter_of_ne (s : BackupState) {worker worker' : ℕ} (h : worker' ≠ worker)
    (deleter : BackupDeleter) :
    (s.setDeleter worker deleter).deleters worker' = s.deleters worker' :=
  Function.update_of_ne h ..

/-- A claim that a step has taken. -/
def NewClaim (s : BackupState) (op : BackupOp) (claimed : ClaimedBackup) : Prop :=
  ∃ row ∈ s.backups, claimed.1.key = row.id ∧ (∃ c : Claim ClaimToken, claimed.2 = { row with claim := c })
    ∧ ∀ row' ∈ (s.step op).backups, row'.id = row.id → row'.claim.token = some claimed.1.token

/-- What a step may do to a deleter: it knows of no new claim but one the step has taken, and
    retains no backup that is not in the table. -/
structure DeleterChange (s : BackupState) (op : BackupOp) (deleter deleter' : BackupDeleter) :
    Prop where
  retention : ∀ id ∈ deleter'.retention, id ∈ deleter.retention ∨ ∃ row ∈ s.backups, row.id = id
  claims : ∀ claimed ∈ deleter'.claims, claimed ∈ deleter.claims ∨ NewClaim s op claimed

theorem DeleterChange.refl (s : BackupState) (op : BackupOp) (deleter : BackupDeleter) :
    DeleterChange s op deleter deleter :=
  ⟨fun _ h => Or.inl h, fun _ h => Or.inl h⟩

/-- Only the deleter that acts changes. -/
theorem deleterChange_set {s s' : BackupState} {op : BackupOp} {worker : ℕ}
    {deleter : BackupDeleter} (hsame : s'.deleters = s.deleters)
    (h : DeleterChange s op (s.deleters worker) deleter) (worker' : ℕ) :
    DeleterChange s op (s.deleters worker') ((s'.setDeleter worker deleter).deleters worker') := by
  by_cases hworker : worker' = worker
  · subst hworker
    rwa [setDeleter_self]
  · rw [setDeleter_of_ne _ hworker, hsame]
    exact .refl _ _ _

/-- The victims of a retention are rows of the table. -/
theorem mem_retentionVictims {t : BackupTable} {scheduleId : Id} {count : ℕ} {id : Id}
    (h : id ∈ retentionVictims t scheduleId count) : ∃ row ∈ t, row.id = id := by
  obtain ⟨row, hrow, hid⟩ := List.mem_map.mp h
  have hkept := List.mem_mergeSort.mp (List.mem_of_mem_drop hrow)
  exact ⟨row, (List.mem_filter.mp hkept).1, hid⟩

/-- The claims a reconciler returns are on rows of the table. -/
theorem reconcile_claims (now : Time) (selected : List (Id × ClaimToken)) (s : BackupState) :
    ∀ claimed ∈ (reconcileClaimedBackupDeletions now selected s).2, ∃ row ∈ s.backups,
      claimed.1.key = row.id ∧ row.claim.token = some claimed.1.token
        ∧ ∃ c : Claim ClaimToken, claimed.2 = { row with claim := c } := by
  induction selected generalizing s with
  | nil =>
    intro claimed hclaimed
    cases hclaimed
  | cons pair rest ih =>
    obtain ⟨id, token⟩ := pair
    intro claimed hclaimed
    rw [reconcileClaimedBackupDeletions] at hclaimed
    split at hclaimed
    · exact ih s claimed hclaimed
    · rename_i backups new hclaim
      obtain ⟨found, claimToken, backup, hfound, htoken, hbackup, hbackups, rfl⟩ :=
        reconcileBackupDeletion_ok hclaim
      obtain ⟨hmem, hid⟩ := Table.find_eq_some.mp hfound
      rcases List.mem_cons.mp hclaimed with rfl | hrest
      · obtain ⟨hbackupMem, hbackupId⟩ := Table.find_eq_some.mp hbackup
        rw [hbackups] at hbackupMem
        obtain ⟨row, hrow, rfl⟩ := (mem_takeOver _).mp hbackupMem
        have hsame : row = found := by
          refine Table.eq_of_key_eq hrow hmem (Eq.trans ?_ hid.symm)
          split at hbackupId <;> exact hbackupId
        subst hsame
        refine ⟨row, hrow, hid.symm, htoken, ?_⟩
        split
        · exact ⟨_, rfl⟩
        · exact ⟨row.claim, rfl⟩
      · obtain ⟨row₁, hrow₁, hkey, htoken₁, c, hbackup₁⟩ :=
          ih { s with backups := backups } claimed hrest
        have hrow₁ : row₁ ∈ backups := hrow₁
        rw [hbackups] at hrow₁
        obtain ⟨row, hrow, rfl⟩ := (mem_takeOver _).mp hrow₁
        refine ⟨row, hrow, ?_, ?_, c, ?_⟩
        · split at hkey <;> exact hkey
        · split at htoken₁ <;> exact htoken₁
        · split at hbackup₁ <;> exact hbackup₁

/-- A deletion that claims a backup. -/
theorem deleterChange_claimDeletion {s : BackupState} {op : BackupOp} (worker : ℕ)
    (retention : List Id) (id : Id) (token : ClaimToken) (now : Time)
    (hop : (s.step op) = s.claimDeletion worker retention id token now)
    (hretention : ∀ id ∈ retention, id ∈ (s.deleters worker).retention) (worker' : ℕ) :
    DeleterChange s op (s.deleters worker') ((s.step op).deleters worker') := by
  have hbackups := congrArg BackupState.backups hop
  rw [hop]
  unfold claimDeletion at hbackups ⊢
  split
  · rename_i backups backup hdelete
    rw [hdelete] at hbackups
    refine deleterChange_set rfl ⟨fun id hid => Or.inl (hretention id hid), ?_⟩ worker'
    intro claimed hclaimed
    rw [List.mem_singleton.mp hclaimed]
    obtain ⟨hbackups', hrow, -⟩ := deleteBackup_ok hdelete
    obtain ⟨hmem, hid⟩ := Table.find_eq_some.mp hrow
    refine Or.inr ⟨backup, hmem, hid.symm, ⟨backup.claim, rfl⟩, ?_⟩
    intro row' hrow' hid'
    rw [hbackups] at hrow'
    have hrow' : row' ∈ backups := hrow'
    rw [hbackups'] at hrow'
    obtain ⟨row, -, rfl⟩ := (mem_take _).mp hrow'
    -- the row with this id is the one that was claimed
    split
    · rfl
    · rename_i hne
      rw [if_neg hne] at hid'
      exact absurd (decide_eq_true (hid'.trans hid)) hne
  · exact deleterChange_set rfl
      ⟨fun id hid => Or.inl (hretention id hid), fun _ h => absurd h List.not_mem_nil⟩ worker'
  · exact deleterChange_set rfl
      ⟨fun id hid => Or.inl (hretention id hid), fun _ h => absurd h List.not_mem_nil⟩ worker'

/-- A deleter that goes on to another phase under the claims it has. -/
theorem deleterChange_phase {s s' : BackupState} {op : BackupOp} {worker : ℕ}
    {phase : BackupDeleterPhase} (hsame : s'.deleters = s.deleters)
    (h : ∀ claimed, phase.claimed = some claimed →
      (s.deleters worker).phase.claimed = some claimed) (worker' : ℕ) :
    DeleterChange s op (s.deleters worker')
      ((s'.setDeleter worker { s.deleters worker with phase := phase }).deleters worker') := by
  have hchange : DeleterChange s op (s.deleters worker) { s.deleters worker with phase := phase } := by
    refine ⟨fun id hid => Or.inl hid, fun claimed hclaimed => Or.inl ?_⟩
    simp only [BackupDeleter.claims, List.mem_append, Option.mem_toList] at hclaimed ⊢
    exact hclaimed.imp_left (h claimed)
  exact deleterChange_set hsame hchange worker'

/-- **Deleters.**  What a step does to each of them. -/
theorem step_deleters (s : BackupState) (op : BackupOp) (worker' : ℕ) :
    DeleterChange s op (s.deleters worker') ((s.step op).deleters worker') := by
  cases op with
  | delete worker id token now =>
    cases hdeleter : s.deleters worker with
    | mk retention queue phase =>
      by_cases hidle : retention = [] ∧ queue = [] ∧ phase = .idle
      · obtain ⟨rfl, rfl, rfl⟩ := hidle
        refine deleterChange_claimDeletion worker [] id token now ?_
          (fun _ h => absurd h List.not_mem_nil) worker'
        simp only [step, hdeleter]
      · simp only [step]
        split
        · rename_i heq
          rw [hdeleter] at heq
          cases heq
          exact absurd ⟨rfl, rfl, rfl⟩ hidle
        · exact .refl _ _ _
  | retention worker scheduleId retentionCount =>
    simp only [step]
    split
    · refine deleterChange_set rfl ⟨fun id hid => Or.inr (mem_retentionVictims hid), ?_⟩ worker'
      exact fun _ h => absurd h List.not_mem_nil
    · exact .refl _ _ _
  | deleteRetained worker token now =>
    cases hdeleter : s.deleters worker with
    | mk retention queue phase =>
      by_cases hidle : ∃ id rest, retention = id :: rest ∧ queue = [] ∧ phase = .idle
      · obtain ⟨id, rest, rfl, rfl, rfl⟩ := hidle
        refine deleterChange_claimDeletion worker rest id token now ?_ ?_ worker'
        · simp only [step, hdeleter]
        · intro id' hid'
          rw [hdeleter]
          exact List.mem_cons_of_mem id hid'
      · simp only [step]
        split
        · rename_i id rest heq
          rw [hdeleter] at heq
          cases heq
          exact absurd ⟨id, rest, rfl, rfl, rfl⟩ hidle
        · exact .refl _ _ _
  | reconcile worker now selected =>
    cases hdeleter : s.deleters worker with
    | mk retention queue phase =>
      by_cases hidle : retention = [] ∧ queue = [] ∧ phase = .idle
      · obtain ⟨rfl, rfl, rfl⟩ := hidle
        have hstep : s.step (.reconcile worker now selected)
            = (reconcileClaimedBackupDeletions now selected s).1.setDeleter worker
                ⟨[], (reconcileClaimedBackupDeletions now selected s).2, .idle⟩ := by
          simp only [step, hdeleter]
        have hclaims : ∀ claimed ∈ (reconcileClaimedBackupDeletions now selected s).2,
            NewClaim s (.reconcile worker now selected) claimed := by
          intro claimed hclaimed
          obtain ⟨row, hrow, hkey, htoken, hbackup⟩ := reconcile_claims now selected s claimed hclaimed
          refine ⟨row, hrow, hkey, hbackup, fun row' hrow' hid' => ?_⟩
          obtain ⟨row₀, hrow₀, hid₀, hchange⟩ := step_origin s _ row' hrow'
          rw [Table.eq_of_key_eq hrow₀ hrow (hid₀.symm.trans hid')] at hchange
          exact hchange.token htoken
        rw [hstep]
        have hframe : (reconcileClaimedBackupDeletions now selected s).1.deleters = s.deleters := by
          rw [reconcile_frame]
        refine deleterChange_set hframe ?_ worker'
        exact ⟨fun _ h => absurd h List.not_mem_nil, fun claimed h => Or.inr (hclaims claimed h)⟩
      · simp only [step]
        split
        · rename_i heq
          rw [hdeleter] at heq
          cases heq
          exact absurd ⟨rfl, rfl, rfl⟩ hidle
        · exact .refl _ _ _
  | next worker =>
    simp only [step]
    split
    · rename_i retention claimed queue hdeleter
      refine deleterChange_set rfl ?_ worker'
      rw [hdeleter]
      exact ⟨fun id hid => Or.inl hid, fun claimed hclaimed => Or.inl hclaimed⟩
    · exact .refl _ _ _
  | removeObject worker =>
    simp only [step]
    split
    · rename_i claimed deleted hphase
      split
      · refine deleterChange_phase rfl (fun claimed' hclaimed' => ?_) worker'
        rw [hphase]
        exact hclaimed'
      · exact .refl _ _ _
    · exact .refl _ _ _
  | removeFile worker =>
    simp only [step]
    split
    · rename_i claimed deleted hphase
      split
      · exact .refl _ _ _
      · refine deleterChange_phase rfl (fun claimed' hclaimed' => ?_) worker'
        rw [hphase]
        exact hclaimed'
    · exact .refl _ _ _
  | finish worker =>
    simp only [step]
    split
    · split
      · rename_i s' hfinish
        refine deleterChange_phase (finishBackupDeletion_ok hfinish).2.1 (fun _ h => ?_) worker'
        cases h
      · exact deleterChange_phase rfl (fun _ h => (by cases h)) worker'
      · exact deleterChange_phase rfl (fun _ h => (by cases h)) worker'
    · exact .refl _ _ _
  | fail worker => exact deleterChange_phase rfl (fun _ h => (by cases h)) worker'
  | heartbeat worker now => simp only [step]; split <;> exact .refl _ _ _
  | request backupId operation admission jobId now => simp only [step]; split <;> exact .refl _ _ _
  | retry jobId admitted now => exact .refl _ _ _
  | beginCapture executor backupId token now =>
    simp only [step]
    split
    · split <;> exact .refl _ _ _
    · exact .refl _ _ _
  | upload executor sizeBytes checksum outcome => simp only [step]; split <;> exact .refl _ _ _
  | publish executor outcome now =>
    simp only [step]
    split
    · unfold publishCapture
      split <;> exact .refl _ _ _
    · exact .refl _ _ _
  | reconcileCommit executor readable => simp only [step]; split <;> exact .refl _ _ _
  | compensate executor deleted =>
    simp only [step]
    split
    · unfold compensateCapture
      dsimp only
      split
      · split <;> exact .refl _ _ _
      · exact .refl _ _ _
    · exact .refl _ _ _
  | captureFailed executor message now => simp only [step]; split <;> exact .refl _ _ _
  | abandon executor => exact .refl _ _ _
  | job id status => exact .refl _ _ _
  | failBackup backupId message now => exact .refl _ _ _
  | attempts attempts => exact .refl _ _ _

/-! ### What steps do to the captures -/

@[simp] theorem setCapture_self (s : BackupState) (executor : ℕ) (phase : CapturePhase) :
    (s.setCapture executor phase).captures executor = phase := Function.update_self ..

theorem setCapture_of_ne (s : BackupState) {executor executor' : ℕ} (h : executor' ≠ executor)
    (phase : CapturePhase) :
    (s.setCapture executor phase).captures executor' = s.captures executor' :=
  Function.update_of_ne h ..

/-- A capture begins under a token that was not drawn before, or nothing happens. -/
theorem step_beginCapture (s : BackupState) (executor : ℕ) (backupId : Id) (token : ClaimToken)
    (now : Time) :
    s.step (.beginCapture executor backupId token now) = s
      ∨ ∃ backup backups, s.captures executor = .idle ∧ backup ∈ s.backups ∧ token ∉ s.drawn
        ∧ s.step (.beginCapture executor backupId token now)
          = { s with backups := backups, drawn := token :: s.drawn }.setCapture executor
              (.begun backup token) := by
  simp only [step]
  split
  · rename_i backup backups hidle hfound hbegin
    split
    · exact Or.inl rfl
    · rename_i hfresh
      exact Or.inr ⟨backup, backups, hidle, (Table.find_eq_some.mp hfound).1, hfresh, rfl⟩
  · exact Or.inl rfl

/-- What a step may do to a capture. -/
inductive CaptureMove (s : BackupState) (op : BackupOp) (executor : ℕ) :
    CapturePhase → CapturePhase → Prop
  | stay (phase : CapturePhase) : CaptureMove s op executor phase phase
  | begin (backup : BackupRow) (token : ClaimToken) (hbackup : backup ∈ s.backups)
      (hfresh : token ∉ s.drawn) (hdrawn : (s.step op).drawn = token :: s.drawn)
      (hop : ∃ backupId now, op = .beginCapture executor backupId token now) :
      CaptureMove s op executor .idle (.begun backup token)
  | upload (capture : Capture) :
      CaptureMove s op executor (.begun capture.backup capture.token) (.captured capture)
  | publish (capture : Capture) : CaptureMove s op executor (.captured capture) (.uncertain capture)
  | refuse (capture : Capture) (hbackups : (s.step op).backups = s.backups)
      (h : reconcileBackupCaptureCommit s.backups capture = false) :
      CaptureMove s op executor (.uncertain capture) (.uncommitted capture)
  | compensate (capture : Capture) :
      CaptureMove s op executor (.uncommitted capture) (.failing capture.backup capture.token)
  | stop (phase : CapturePhase) : CaptureMove s op executor phase .idle

/-- Only the capture that acts moves. -/
theorem captureMove_set {s s' : BackupState} {op : BackupOp} {executor : ℕ}
    {phase : CapturePhase} (hsame : s'.captures = s.captures)
    (h : CaptureMove s op executor (s.captures executor) phase) (executor' : ℕ) :
    CaptureMove s op executor' (s.captures executor')
      ((s'.setCapture executor phase).captures executor') := by
  by_cases hexecutor : executor' = executor
  · subst hexecutor
    rwa [setCapture_self]
  · rw [setCapture_of_ne _ hexecutor, hsame]
    exact .stay _

/-- **Captures.**  What a step does to each of them. -/
theorem step_captures (s : BackupState) (op : BackupOp) (executor' : ℕ) :
    CaptureMove s op executor' (s.captures executor') ((s.step op).captures executor') := by
  cases op with
  | beginCapture executor backupId token now =>
    rcases step_beginCapture s executor backupId token now with
      hsame | ⟨backup, backups, hidle, hbackup, hfresh, hstep⟩
    · rw [hsame]
      exact .stay _
    · rw [hstep]
      refine captureMove_set rfl ?_ executor'
      rw [hidle]
      exact .begin backup token hbackup hfresh (by rw [hstep]; rfl) ⟨backupId, now, rfl⟩
  | upload executor sizeBytes checksum outcome =>
    simp only [step]
    split
    · rename_i backup token hphase
      refine captureMove_set rfl ?_ executor'
      rw [hphase]
      exact .upload ⟨backup, token, sizeBytes, checksum, _⟩
    · exact .stay _
  | publish executor outcome now =>
    simp only [step]
    split
    · rename_i capture hphase
      unfold publishCapture
      split
      · exact captureMove_set rfl (.stop _) executor'
      all_goals
        refine captureMove_set rfl ?_ executor'
        rw [hphase]
        exact .publish capture
    · exact .stay _
  | reconcileCommit executor readable =>
    cases hphase : s.captures executor with
    | uncertain capture =>
      have hstep : s.step (.reconcileCommit executor readable) = s.setCapture executor
          (if readable && !reconcileBackupCaptureCommit s.backups capture then
            .uncommitted capture else .idle) := by
        simp only [step, hphase]
      rw [hstep]
      refine captureMove_set rfl ?_ executor'
      split
      · rename_i hrefuse
        rw [hphase]
        refine .refuse capture (by rw [hstep]; rfl) ?_
        simp only [Bool.and_eq_true, Bool.not_eq_true'] at hrefuse
        exact hrefuse.2
      · exact .stop _
    | idle => simp only [step, hphase]; exact .stay _
    | begun backup token => simp only [step, hphase]; exact .stay _
    | captured capture => simp only [step, hphase]; exact .stay _
    | uncommitted capture => simp only [step, hphase]; exact .stay _
    | failing backup token => simp only [step, hphase]; exact .stay _
  | compensate executor deleted =>
    simp only [step]
    split
    · rename_i capture hphase
      have hmove : CaptureMove s (.compensate executor deleted) executor (s.captures executor)
          (.failing capture.backup capture.token) := by
        rw [hphase]
        exact .compensate capture
      unfold compensateCapture
      dsimp only
      split
      · split
        · exact captureMove_set rfl hmove executor'
        · exact captureMove_set rfl hmove executor'
      · exact captureMove_set rfl hmove executor'
    · exact .stay _
  | captureFailed executor message now =>
    simp only [step]
    split
    · exact captureMove_set rfl (.stop _) executor'
    · exact captureMove_set rfl (.stop _) executor'
    · exact captureMove_set rfl (.stop _) executor'
    · exact .stay _
  | abandon executor => exact captureMove_set rfl (.stop _) executor'
  | delete worker id token now =>
    simp only [step]
    split
    · unfold claimDeletion
      split <;> exact .stay _
    · exact .stay _
  | deleteRetained worker token now =>
    simp only [step]
    split
    · unfold claimDeletion
      split <;> exact .stay _
    · exact .stay _
  | reconcile worker now selected =>
    simp only [step]
    split
    · rw [setDeleter, reconcile_frame]
      exact .stay _
    · exact .stay _
  | finish worker =>
    simp only [step]
    split
    · split
      · rename_i s' hfinish
        rw [setDeleter, (finishBackupDeletion_ok hfinish).2.2.1]
        exact .stay _
      · exact .stay _
      · exact .stay _
    · exact .stay _
  | removeObject worker =>
    simp only [step]
    split
    · split <;> exact .stay _
    · exact .stay _
  | removeFile worker =>
    simp only [step]
    split
    · split <;> exact .stay _
    · exact .stay _
  | retention worker scheduleId retentionCount => simp only [step]; split <;> exact .stay _
  | next worker => simp only [step]; split <;> exact .stay _
  | heartbeat worker now => simp only [step]; split <;> exact .stay _
  | request backupId operation admission jobId now => simp only [step]; split <;> exact .stay _
  | fail worker => exact .stay _
  | retry jobId admitted now => exact .stay _
  | job id status => exact .stay _
  | failBackup backupId message now => exact .stay _
  | attempts attempts => exact .stay _

/-! ### What steps do to the rest -/

/-- What a step may do to the tokens, the files, the objects and the jobs. -/
structure StepFrame (s : BackupState) (op : BackupOp) (s' : BackupState) : Prop where
  drawn : s.drawn ⊆ s'.drawn
  files : s.files ⊆ s'.files ∨ ∃ worker claimed, op = .removeFile worker
    ∧ (s.deleters worker).phase.claimed = some claimed
    ∧ ∀ file ∈ s.files, file ≠ claimed.2.fileName → file ∈ s'.files
  objects : s.objects ⊆ s'.objects
    ∨ (∃ worker claimed key, op = .removeObject worker
      ∧ (s.deleters worker).phase.claimed = some claimed ∧ key ∈ backupRemoteObjectKeys claimed.2
      ∧ ∀ object ∈ s.objects, object ≠ key → object ∈ s'.objects)
    ∨ ∃ executor capture, s.captures executor = .uncommitted capture
      ∧ ∀ object ∈ s.objects, object ≠ capture.key → object ∈ s'.objects
  jobs : s'.jobs = s.jobs ∨ (∃ id status, op = .job id status)
    ∨ (∃ backupId operation admission jobId now,
      op = .request backupId operation admission jobId now)
    ∨ ∃ jobId admitted now, op = .retry jobId admitted now

theorem StepFrame.refl (s : BackupState) (op : BackupOp) : StepFrame s op s :=
  ⟨List.Subset.refl _, Or.inl (List.Subset.refl _), Or.inl (List.Subset.refl _), Or.inl rfl⟩

theorem stepFrame_of_eq {s s' : BackupState} {op : BackupOp} (hdrawn : s'.drawn = s.drawn)
    (hfiles : s'.files = s.files) (hobjects : s'.objects = s.objects) (hjobs : s'.jobs = s.jobs) :
    StepFrame s op s' :=
  ⟨hdrawn ▸ List.Subset.refl _, Or.inl (hfiles ▸ List.Subset.refl _),
    Or.inl (hobjects ▸ List.Subset.refl _), Or.inl hjobs⟩

theorem claimDeletion_stepFrame {s : BackupState} {op : BackupOp} (worker : ℕ)
    (retention : List Id) (id : Id) (token : ClaimToken) (now : Time) :
    StepFrame s op (s.claimDeletion worker retention id token now) := by
  unfold claimDeletion
  split <;> exact stepFrame_of_eq rfl rfl rfl rfl

theorem subset_copyArtifact (s : BackupState) (capture : Capture) :
    s.files ⊆ s.copyArtifact capture := by
  unfold copyArtifact
  split
  · exact List.subset_cons_self _ _
  · exact List.Subset.refl _

theorem publishCapture_stepFrame {s : BackupState} {op : BackupOp} (executor : ℕ)
    (capture : Capture) (outcome : PublishOutcome) (now : Time) :
    StepFrame s op (s.publishCapture executor capture outcome now) := by
  unfold publishCapture
  split
  · exact ⟨List.Subset.refl _, Or.inl (subset_copyArtifact s capture),
      Or.inl (List.Subset.refl _), Or.inl rfl⟩
  · exact ⟨List.Subset.refl _, Or.inl (subset_copyArtifact s capture),
      Or.inl (List.Subset.refl _), Or.inl rfl⟩
  · exact ⟨List.Subset.refl _, Or.inl (subset_copyArtifact s capture),
      Or.inl (List.Subset.refl _), Or.inl rfl⟩
  · exact stepFrame_of_eq rfl rfl rfl rfl
  · exact stepFrame_of_eq rfl rfl rfl rfl

theorem mem_filter_ne {α : Type*} [DecidableEq α] {l : List α} {x y : α} (hx : x ∈ l)
    (h : x ≠ y) : x ∈ l.filter (· ≠ y) :=
  List.mem_filter.mpr ⟨hx, decide_eq_true h⟩

theorem compensateCapture_stepFrame {s : BackupState} {op : BackupOp} {executor : ℕ}
    {capture : Capture} (hphase : s.captures executor = .uncommitted capture) (deleted : Bool) :
    StepFrame s op (s.compensateCapture executor capture deleted) := by
  unfold compensateCapture
  dsimp only
  split
  · rename_i key _ hkey _
    split
    · refine ⟨List.Subset.refl _, Or.inl (List.Subset.refl _),
        Or.inr (Or.inr ⟨executor, capture, hphase, fun object hobject hne => ?_⟩), Or.inl rfl⟩
      rw [← key_of_remoteObjectPendingCommit hkey] at hne
      exact mem_filter_ne hobject hne
    · exact stepFrame_of_eq rfl rfl rfl rfl
  · exact stepFrame_of_eq rfl rfl rfl rfl

/-- **Frame.**  Files are deleted by `removeFile` alone, and objects by `removeObject` and by the
    compensation of a capture. -/
theorem step_frame (s : BackupState) (op : BackupOp) : StepFrame s op (s.step op) := by
  cases op with
  | delete worker id token now =>
    simp only [step]
    split
    · exact claimDeletion_stepFrame worker [] id token now
    · exact .refl _ _
  | deleteRetained worker token now =>
    simp only [step]
    split
    · exact claimDeletion_stepFrame worker _ _ token now
    · exact .refl _ _
  | reconcile worker now selected =>
    simp only [step]
    split
    · rw [setDeleter, reconcile_frame]
      exact stepFrame_of_eq rfl rfl rfl rfl
    · exact .refl _ _
  | removeObject worker =>
    simp only [step]
    split
    · rename_i claimed deleted hphase
      split
      · rename_i key _ hkey _
        refine ⟨List.Subset.refl _, Or.inl (List.Subset.refl _),
          Or.inr (Or.inl ⟨worker, claimed, key, rfl, by rw [hphase]; rfl,
            List.mem_of_getElem? hkey, fun object hobject hne => ?_⟩), Or.inl rfl⟩
        exact mem_filter_ne hobject hne
      · exact .refl _ _
    · exact .refl _ _
  | removeFile worker =>
    simp only [step]
    split
    · rename_i claimed deleted hphase
      split
      · exact .refl _ _
      · refine ⟨List.Subset.refl _, Or.inr ⟨worker, claimed, rfl, by rw [hphase]; rfl,
          fun file hfile hne => ?_⟩, Or.inl (List.Subset.refl _), Or.inl rfl⟩
        exact mem_filter_ne hfile hne
    · exact .refl _ _
  | finish worker =>
    simp only [step]
    split
    · split
      · rename_i s' hfinish
        obtain ⟨hdrawn, hfiles, hobjects, hjobs⟩ := (finishBackupDeletion_ok hfinish).2.2.2
        exact stepFrame_of_eq hdrawn hfiles hobjects hjobs
      · exact stepFrame_of_eq rfl rfl rfl rfl
      · exact stepFrame_of_eq rfl rfl rfl rfl
    · exact .refl _ _
  | beginCapture executor backupId token now =>
    rcases step_beginCapture s executor backupId token now with hsame | ⟨_, _, _, _, _, hstep⟩
    · rw [hsame]
      exact .refl _ _
    · rw [hstep]
      exact ⟨List.subset_cons_self _ _, Or.inl (List.Subset.refl _),
        Or.inl (List.Subset.refl _), Or.inl rfl⟩
  | upload executor sizeBytes checksum outcome =>
    simp only [step]
    split
    · exact ⟨List.Subset.refl _, Or.inl (List.Subset.refl _),
        Or.inl (List.subset_append_right _ _), Or.inl rfl⟩
    · exact .refl _ _
  | publish executor outcome now =>
    simp only [step]
    split
    · exact publishCapture_stepFrame executor _ outcome now
    · exact .refl _ _
  | compensate executor deleted =>
    simp only [step]
    split
    · rename_i capture hphase
      exact compensateCapture_stepFrame hphase deleted
    · exact .refl _ _
  | request backupId operation admission jobId now =>
    refine ⟨?_, Or.inl ?_, Or.inl ?_, Or.inr (Or.inr (Or.inl ⟨_, _, _, _, _, rfl⟩))⟩
    all_goals
      simp only [step]
      split <;> exact List.Subset.refl _
  | retry jobId admitted now =>
    exact ⟨List.Subset.refl _, Or.inl (List.Subset.refl _), Or.inl (List.Subset.refl _),
      Or.inr (Or.inr (Or.inr ⟨_, _, _, rfl⟩))⟩
  | job id status =>
    exact ⟨List.Subset.refl _, Or.inl (List.Subset.refl _), Or.inl (List.Subset.refl _),
      Or.inr (Or.inl ⟨id, status, rfl⟩)⟩
  | reconcileCommit executor readable =>
    simp only [step]
    split <;> exact stepFrame_of_eq rfl rfl rfl rfl
  | captureFailed executor message now =>
    simp only [step]
    split <;> exact stepFrame_of_eq rfl rfl rfl rfl
  | retention worker scheduleId retentionCount =>
    simp only [step]
    split <;> exact stepFrame_of_eq rfl rfl rfl rfl
  | next worker =>
    simp only [step]
    split <;> exact stepFrame_of_eq rfl rfl rfl rfl
  | heartbeat worker now =>
    simp only [step]
    split <;> exact stepFrame_of_eq rfl rfl rfl rfl
  | fail worker => exact stepFrame_of_eq rfl rfl rfl rfl
  | abandon executor => exact stepFrame_of_eq rfl rfl rfl rfl
  | failBackup backupId message now => exact stepFrame_of_eq rfl rfl rfl rfl
  | attempts attempts => exact stepFrame_of_eq rfl rfl rfl rfl

end BackupState

end ComposeBastion
