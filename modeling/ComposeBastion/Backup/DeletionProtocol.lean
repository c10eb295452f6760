import ComposeBastion.Backup.DeletionSteps
import ComposeBastion.Lib.Runs

namespace ComposeBastion

open Runs DeletionClaim

/-!
# The claim protocol of backup deletions

What holds across any interleaving of deletions, reconcilers, operations and captures of backups.

* `BackupProtocol` — what a step may do to backups, their artifacts and their jobs;
* `Inv` — every deleter works under a claim that its row carries, and the object of a capture that
  was not committed is the locator of no row;
* `backup_deletion_claims` — every step of every run keeps to the protocol.
-/

namespace BackupState

/-! ### What is claimed -/

/-- The job is an operation on the backup. -/
def References (row : BackupRow) (job : JobRow) : Prop :=
  (payloadBackupId job.payload).map uuidText = some row.id

/-- The worker acts under the claim of the row. -/
def ActsUnderClaim (s : BackupState) (worker : ℕ) (row : BackupRow) : Prop :=
  ∃ claimed, (s.deleters worker).phase.claimed = some claimed ∧ claimed.1.key = row.id
    ∧ row.claim.token = some claimed.1.token

/-- What a step does: a backup is claimed only while no job and no restore attempt of it is active;
    under a claim no operation is admitted and nothing is published; the file and the remote object
    of a backup are deleted only under its claim; and its row is removed only under its current
    claim and reconciliation tokens. -/
structure BackupProtocol (s : BackupState) (op : BackupOp) : Prop where
  claimed : ∀ row ∈ s.backups, row.claim.token = none → ∀ row',
    (s.step op).backups.find row.id = some row' → row'.claim.token.isSome = true →
      (∀ job ∈ s.jobs, job.status.active = true → ¬ References row job)
        ∧ ∀ attempt ∈ s.attempts, attempt.backupId = some row.id →
            attempt.status.nonTerminal = false
  admitted : ∀ row ∈ s.backups, row.claim.token.isSome = true → ∀ job ∈ (s.step op).jobs,
    job.status.active = true →
      (∀ job₀, s.jobs.find job.id = some job₀ → job₀.status.active = false) → ¬ References row job
  published : ∀ row ∈ s.backups, row.claim.token.isSome = true → ∀ row',
    (s.step op).backups.find row.id = some row' →
      SamePublication row row' ∧ (row'.status = row.status ∨ row'.status = .failed)
  file : ∀ row ∈ s.backups, row.fileName ∈ s.files → row.fileName ∉ (s.step op).files →
    ∃ worker, op = .removeFile worker ∧ s.ActsUnderClaim worker row
  object : ∀ row ∈ s.backups, ∀ key, row.remoteObjectKey = some key → key ∈ s.objects →
    key ∉ (s.step op).objects → ∃ worker, op = .removeObject worker ∧ s.ActsUnderClaim worker row
  removed : ∀ row ∈ s.backups, (s.step op).backups.find row.id = none →
    ∃ worker claimed, op = .finish worker ∧ (s.deleters worker).phase.claimed = some claimed
      ∧ claimed.1.key = row.id ∧ row.claim.token = some claimed.1.token
      ∧ row.claim.reconciliationToken = claimed.1.reconciliationToken

/-- The ids of a request are spelled as the database prints them. -/
def SpelledAsStored (_ : BackupState) : BackupOp → Prop
  | .delete _ id _ _ => uuidText id = id
  | .request id _ _ _ _ => uuidText id = id
  | _ => True

/-! ### The parties -/

/-- What is true of every claim a deleter knows of. -/
structure DeleterSafe (t : BackupTable) (claimed : ClaimedBackup) : Prop where
  key : claimed.2.id = claimed.1.key
  holds : ∀ row ∈ t, row.id = claimed.1.key → row.claim.token = some claimed.1.token
  file : ∀ row ∈ t, row.fileName = claimed.2.fileName → row.id = claimed.1.key
  keys : OwnKeys claimed.2

/-- The locator of the row is the object of the attempt. -/
def LocatedBy (token : ClaimToken) (row : BackupRow) : Prop :=
  ∃ key, row.remoteObjectKey = some key ∧ key.attemptToken = token

/-- What is true of a capture: until it publishes its object is the locator of no row, and after it
    has tried to only of the row that has committed it. -/
def CaptureSafe (t : BackupTable) : CapturePhase → Prop
  | .begun backup token => OwnKeys backup ∧ ∀ row ∈ t, ¬ LocatedBy token row
  | .captured capture | .uncommitted capture =>
    OwnKeys capture.backup ∧ ∀ row ∈ t, ¬ LocatedBy capture.token row
  | .uncertain capture =>
    OwnKeys capture.backup ∧ ∀ row ∈ t, LocatedBy capture.token row → CommittedTo capture row
  | .idle | .failing _ _ => True

/-- The jobs name their backups as the database prints them. -/
def JobsSpelled (s : BackupState) : Prop :=
  ∀ job ∈ s.jobs, ∀ id, payloadBackupId job.payload = some id → uuidText id = id

/-- What holds between the steps. -/
structure Inv (s : BackupState) : Prop where
  ids : ∀ row ∈ s.backups, uuidText row.id = row.id
  names : ∀ row ∈ s.backups, ∀ row' ∈ s.backups, row.fileName = row'.fileName → row.id = row'.id
  keys : ∀ row ∈ s.backups, OwnKeys row
  located : ∀ row ∈ s.backups, ∀ token, LocatedBy token row → token ∈ s.drawn
  jobs : s.JobsSpelled
  retention : ∀ worker, ∀ id ∈ (s.deleters worker).retention, uuidText id = id
  deleters : ∀ worker, ∀ claimed ∈ (s.deleters worker).claims, DeleterSafe s.backups claimed
  tokens : ∀ executor token, (s.captures executor).token = some token → token ∈ s.drawn
  distinct : ∀ executor executor' token, (s.captures executor).token = some token →
    (s.captures executor').token = some token → executor = executor'
  captures : ∀ executor, CaptureSafe s.backups (s.captures executor)

/-- A claim that was safe is safe after a step. -/
theorem DeleterSafe.step {s : BackupState} {claimed : ClaimedBackup}
    (h : DeleterSafe s.backups claimed) (op : BackupOp) :
    DeleterSafe (s.step op).backups claimed where
  key := h.key
  holds row' hrow' hid' := by
    obtain ⟨row, hrow, hid, hchange⟩ := step_origin s op row' hrow'
    exact hchange.token (h.holds row hrow (hid.symm.trans hid'))
  file row' hrow' hname' := by
    obtain ⟨row, hrow, hid, hchange⟩ := step_origin s op row' hrow'
    exact hid.trans (h.file row hrow (hchange.fileName.symm.trans hname'))
  keys := h.keys

/-- A claim that a step has taken is safe. -/
theorem NewClaim.safe {s : BackupState} (hinv : Inv s) {op : BackupOp} {claimed : ClaimedBackup}
    (h : NewClaim s op claimed) : DeleterSafe (s.step op).backups claimed := by
  obtain ⟨row, hrow, hkey, ⟨c, hbackup⟩, htoken⟩ := h
  refine ⟨?_, ?_, ?_, ?_⟩
  · rw [hbackup, hkey]
  · intro row' hrow' hid'
    exact htoken row' hrow' (hid'.trans hkey)
  · intro row' hrow' hname'
    obtain ⟨row₀, hrow₀, hid₀, hchange⟩ := step_origin s op row' hrow'
    rw [hbackup] at hname'
    rw [hid₀, hkey]
    exact hinv.names row₀ hrow₀ row hrow (hchange.fileName.symm.trans hname')
  · rw [hbackup]
    exact hinv.keys row hrow

/-! ### Captures stay safe -/

/-- Where a locator comes from: the row had it before, or a capture has just published it. -/
theorem located_origin {s : BackupState} {op : BackupOp} {row' : BackupRow} {token : ClaimToken}
    (hrow' : row' ∈ (s.step op).backups) (hlocated : LocatedBy token row') :
    (∃ row ∈ s.backups, row'.id = row.id ∧ SamePublication row row' ∧ LocatedBy token row)
      ∨ ∃ executor capture, s.captures executor = .captured capture
        ∧ ((s.step op).captures executor = .idle
          ∨ (s.step op).captures executor = .uncertain capture)
        ∧ CommittedTo capture row' ∧ capture.token = token := by
  obtain ⟨row, hrow, hid, hchange⟩ := step_origin s op row' hrow'
  obtain ⟨key, hkey, htoken⟩ := hlocated
  rcases hchange.publication with hsame | ⟨executor, capture, hphase, hnext, hcommitted, -⟩
  · exact Or.inl ⟨row, hrow, hid, hsame, key, hsame.remoteObjectKey.symm.trans hkey, htoken⟩
  · refine Or.inr ⟨executor, capture, hphase, hnext, hcommitted, ?_⟩
    have hown := key_of_remoteObjectKey (hcommitted.remoteObjectKey.symm.trans hkey)
    rw [← htoken, hown]
    rfl

/-- The object of a capture that does not publish in a step becomes no locator. -/
theorem not_located {s : BackupState} (hinv : Inv s) {op : BackupOp} {executor : ℕ}
    {token : ClaimToken} (htoken : (s.captures executor).token = some token)
    (hnot : ∀ row ∈ s.backups, ¬ LocatedBy token row)
    (hidle : (s.step op).captures executor ≠ .idle)
    (huncertain : ∀ capture, (s.step op).captures executor ≠ .uncertain capture) :
    ∀ row' ∈ (s.step op).backups, ¬ LocatedBy token row' := by
  intro row' hrow' hlocated
  rcases located_origin hrow' hlocated with
    ⟨row, hrow, -, -, hbefore⟩ | ⟨executor', capture, hphase, hnext, -, hcapture⟩
  · exact hnot row hrow hbefore
  · -- the capture that has published is this one
    have hsame : executor' = executor :=
      hinv.distinct executor' executor token (by rw [hphase, ← hcapture]; rfl) htoken
    subst hsame
    exact hnext.elim hidle (huncertain capture)

theorem CommittedTo.of_same {capture : Capture} {row row' : BackupRow} (h : CommittedTo capture row)
    (hid : row'.id = row.id) (hsame : SamePublication row row') : CommittedTo capture row' where
  id := hid.trans h.id
  committed := hsame.committed.trans h.committed
  sizeBytes := hsame.sizeBytes.trans h.sizeBytes
  checksum := hsame.checksum.trans h.checksum
  remoteObjectKey := hsame.remoteObjectKey.trans h.remoteObjectKey

/-- A commit that took place is seen. -/
theorem reconcile_of_committedTo {t : BackupTable} {capture : Capture} {row : BackupRow}
    (hrow : row ∈ t) (h : CommittedTo capture row) :
    reconcileBackupCaptureCommit t capture = true := by
  have hfind : t.find capture.backup.id = some row := Table.find_eq_some.mpr ⟨hrow, h.id⟩
  simp [reconcileBackupCaptureCommit, hfind, h.committed, h.sizeBytes, h.checksum,
    h.remoteObjectKey]

theorem captureSafe_step {s : BackupState} (hinv : Inv s) (op : BackupOp) (executor : ℕ) :
    CaptureSafe (s.step op).backups ((s.step op).captures executor) := by
  have hmove := step_captures s op executor
  have hsafe := hinv.captures executor
  generalize hphase : s.captures executor = phase at hmove hsafe
  generalize hphase' : (s.step op).captures executor = phase' at hmove
  cases hmove with
  | stay _ =>
    cases phase with
    | idle => trivial
    | failing backup token => trivial
    | begun backup token =>
      refine ⟨hsafe.1, not_located hinv (by rw [hphase]; rfl) hsafe.2 ?_ ?_⟩
      · rw [hphase']; exact fun h => by cases h
      · rw [hphase']; exact fun _ h => by cases h
    | captured capture =>
      refine ⟨hsafe.1, not_located hinv (by rw [hphase]; rfl) hsafe.2 ?_ ?_⟩
      · rw [hphase']; exact fun h => by cases h
      · rw [hphase']; exact fun _ h => by cases h
    | uncommitted capture =>
      refine ⟨hsafe.1, not_located hinv (by rw [hphase]; rfl) hsafe.2 ?_ ?_⟩
      · rw [hphase']; exact fun h => by cases h
      · rw [hphase']; exact fun _ h => by cases h
    | uncertain capture =>
      refine ⟨hsafe.1, fun row' hrow' hlocated => ?_⟩
      rcases located_origin hrow' hlocated with
        ⟨row, hrow, hid, hsame, hbefore⟩ | ⟨executor', capture', hcaptured, -, -, htoken⟩
      · exact (hsafe.2 row hrow hbefore).of_same hid hsame
      · -- this capture has already tried to publish
        have hsame : executor' = executor := hinv.distinct executor' executor capture.token
          (by rw [hcaptured, ← htoken]; rfl) (by rw [hphase]; rfl)
        subst hsame
        rw [hphase] at hcaptured
        cases hcaptured
  | begin backup token hbackup hfresh hdrawn hop =>
    refine ⟨hinv.keys backup hbackup, fun row' hrow' hlocated => hfresh ?_⟩
    rcases located_origin hrow' hlocated with
      ⟨row, hrow, -, -, hbefore⟩ | ⟨executor', capture, hcaptured, -, -, htoken⟩
    · exact hinv.located row hrow token hbefore
    · exact hinv.tokens executor' token (by rw [hcaptured, ← htoken]; rfl)
  | upload capture =>
    refine ⟨hsafe.1, not_located hinv (by rw [hphase]; rfl) hsafe.2 ?_ ?_⟩
    · rw [hphase']; exact fun h => by cases h
    · rw [hphase']; exact fun _ h => by cases h
  | publish capture =>
    refine ⟨hsafe.1, fun row' hrow' hlocated => ?_⟩
    rcases located_origin hrow' hlocated with
      ⟨row, hrow, -, -, hbefore⟩ | ⟨executor', capture', hcaptured, -, hcommitted, htoken⟩
    · exact absurd hbefore (hsafe.2 row hrow)
    · have hsame : executor' = executor := hinv.distinct executor' executor capture.token
        (by rw [hcaptured, ← htoken]; rfl) (by rw [hphase]; rfl)
      subst hsame
      rw [hphase] at hcaptured
      cases hcaptured
      exact hcommitted
  | refuse capture hbackups hrefused =>
    refine ⟨hsafe.1, fun row hrow hlocated => ?_⟩
    rw [hbackups] at hrow
    rw [reconcile_of_committedTo hrow (hsafe.2 row hrow hlocated)] at hrefused
    cases hrefused
  | compensate capture => trivial
  | stop _ => trivial

/-- The token of a capture was drawn before, or has just been. -/
theorem CaptureMove.token {s : BackupState} {op : BackupOp} {executor : ℕ}
    {phase phase' : CapturePhase} (h : CaptureMove s op executor phase phase')
    {token : ClaimToken} (htoken : phase'.token = some token) :
    phase.token = some token ∨ (token ∉ s.drawn ∧ (s.step op).drawn = token :: s.drawn
      ∧ ∃ backupId now, op = .beginCapture executor backupId token now) := by
  cases h with
  | stay => exact Or.inl htoken
  | begin backup token' hbackup hfresh hdrawn hop =>
    cases htoken
    exact Or.inr ⟨hfresh, hdrawn, hop⟩
  | upload capture => exact Or.inl htoken
  | publish capture => exact Or.inl htoken
  | refuse capture => exact Or.inl htoken
  | compensate capture => exact Or.inl htoken
  | stop => cases htoken

theorem distinct_step {s : BackupState} (hinv : Inv s) (op : BackupOp) (executor executor' : ℕ)
    (token : ClaimToken) (h : ((s.step op).captures executor).token = some token)
    (h' : ((s.step op).captures executor').token = some token) : executor = executor' := by
  rcases (step_captures s op executor).token h with hold | ⟨hfresh, -, backupId, now, hop⟩
  · rcases (step_captures s op executor').token h' with hold' | ⟨hfresh', -⟩
    · exact hinv.distinct executor executor' token hold hold'
    · exact absurd (hinv.tokens executor token hold) hfresh'
  · rcases (step_captures s op executor').token h' with hold' | ⟨-, -, backupId', now', hop'⟩
    · exact absurd (hinv.tokens executor' token hold') hfresh
    · rw [hop] at hop'
      cases hop'
      rfl

/-! ### Jobs -/

/-- What an admitted operation on a backup has checked. -/
theorem enqueueBackupOperation_ok {s : BackupState} {backupId : Id} {operation : BackupOperation}
    {admission : Except String Unit} {jobId : Id} {now : Time} {jobs : JobTable}
    (h : enqueueBackupOperation s backupId operation admission jobId now = .ok (some jobs)) :
    ∃ row hostId payload, s.backups.find (uuidText backupId) = some row
      ∧ row.claim.token = none ∧ payloadBackupId payload = some backupId
      ∧ jobs = s.jobs.insert (queuedJob jobId hostId payload now) := by
  unfold enqueueBackupOperation at h
  cases hrow : s.backups.find (uuidText backupId) with
  | none => simp [hrow] at h
  | some row =>
    simp only [hrow] at h
    split at h
    · cases h
    · rename_i hclaim
      split at h
      · cases h
      · cases h
      · rename_i hostId payload _ haction
        cases h
        refine ⟨row, hostId, payload, rfl, by simpa [backupHasDeletionClaim] using hclaim, ?_, rfl⟩
        cases operation with
        | volumeRestore targetHostId targetVolumeName overwrite =>
          simp only [BackupOperation.action] at haction
          repeat' split at haction
          all_goals cases haction
          rfl
        | hostPathRestore targetHostId targetPath overwrite =>
          simp only [BackupOperation.action] at haction
          repeat' split at haction
          · cases haction
          · cases haction
          · cases targetPath with
            | error error => cases haction
            | ok path =>
              cases haction
              rfl
        | verify =>
          cases haction
          rfl
        | drill =>
          cases haction
          rfl

/-- A job after a retry is the job before, or it was requeued. -/
theorem mem_retryJob {now : Time} {jobId : Id} {admitted : Bool} {jobs : JobTable} {job : JobRow}
    (h : job ∈ retryJob now jobId admitted jobs) :
    ∃ job₀ ∈ jobs, job.id = job₀.id ∧ job.payload = job₀.payload
      ∧ (job = job₀ ∨ job₀.id = jobId ∧ canRetryJob job₀ = true ∧ admitted = true) := by
  unfold retryJob at h
  split at h
  · rename_i hcan
    obtain ⟨job₀, hjob₀, rfl⟩ := Table.mem_update.mp h
    simp only [Bool.and_eq_true] at hcan
    split
    · rename_i hid
      simp only [Bool.and_eq_true, beq_iff_eq] at hid
      have hfind : jobs.find jobId = some job₀ := Table.find_eq_some.mpr ⟨hjob₀, hid.1.1⟩
      rw [hfind, Option.any_some] at hcan
      exact ⟨job₀, hjob₀, rfl, rfl, Or.inr ⟨hid.1.1, hcan⟩⟩
    · exact ⟨job₀, hjob₀, rfl, rfl, Or.inl rfl⟩
  · exact ⟨job, h, rfl, rfl, Or.inl rfl⟩

/-- The only jobs on backups that can be retried are verifications. -/
theorem payload_of_canRetryJob {job : JobRow} (h : canRetryJob job = true) {id : Id}
    (hid : payloadBackupId job.payload = some id) : job.payload = .backupVerify id := by
  simp only [canRetryJob, Bool.and_eq_true, List.contains_eq_mem, decide_eq_true_eq] at h
  have htype : job.payload.type ∈ manualRetryJobTypes := h.1.1.2
  generalize job.payload = payload at htype hid
  cases payload with
  | backupVerify id' =>
    cases hid
    rfl
  | volumeBackup | volumeRestore | volumeClone | hostPathBackup | hostPathRestore | backupDrill =>
    exact absurd htype (by simp [ActionPayload.type, manualRetryJobTypes, autoRetryJobTypes])
  | _ => cases hid

theorem JobsSpelled.step {s : BackupState} (h : s.JobsSpelled) {op : BackupOp}
    (hop : SpelledAsStored s op) : (s.step op).JobsSpelled := by
  rcases (step_frame s op).jobs with hsame | ⟨id, status, rfl⟩
    | ⟨backupId, operation, admission, jobId, now, rfl⟩ | ⟨jobId, admitted, now, rfl⟩
  · intro job hjob
    rw [hsame] at hjob
    exact h job hjob
  · intro job hjob
    obtain ⟨job₀, hjob₀, -, hpayload⟩ := mem_settleJob hjob
    rw [hpayload]
    exact h job₀ hjob₀
  · simp only [BackupState.step]
    split
    · rename_i jobs hok
      obtain ⟨row, hostId, payload, -, -, hpayload, rfl⟩ := enqueueBackupOperation_ok hok
      intro job hjob
      rcases Table.mem_insert hjob with hold | ⟨rfl, -⟩
      · exact h job hold
      · intro id hid
        rw [queuedJob, hpayload, Option.some.injEq] at hid
        exact hid ▸ hop
    · exact h
    · exact h
  · intro job hjob
    obtain ⟨job₀, hjob₀, -, hpayload, -⟩ := mem_retryJob hjob
    rw [hpayload]
    exact h job₀ hjob₀

/-- A backup that is claimed is not the one an operation was admitted on. -/
theorem ne_of_find_free {s : BackupState} {id : Id} {free row : BackupRow}
    (hfind : s.backups.find (uuidText id) = some free) (hfree : free.claim.token = none)
    (hrow : row ∈ s.backups) (hclaim : row.claim.token.isSome = true) : uuidText id ≠ row.id := by
  intro hid
  have hsame : s.backups.find (uuidText id) = some row :=
    Table.find_eq_some.mpr ⟨hrow, hid.symm⟩
  rw [hfind, Option.some.injEq] at hsame
  rw [← hsame, hfree] at hclaim
  cases hclaim

/-- **Admissions.**  No operation is admitted on a backup that carries a claim. -/
theorem step_admitted (s : BackupState) (op : BackupOp) (row : BackupRow) (hrow : row ∈ s.backups)
    (hclaim : row.claim.token.isSome = true) (job : JobRow) (hjob : job ∈ (s.step op).jobs)
    (hactive : job.status.active = true)
    (hnew : ∀ job₀, s.jobs.find job.id = some job₀ → job₀.status.active = false) :
    ¬ References row job := by
  -- a job that was active before is no new one
  have hold : job ∉ s.jobs := fun hmem => by
    rw [hnew job (Table.find_eq_some.mpr ⟨hmem, rfl⟩)] at hactive
    cases hactive
  rcases (step_frame s op).jobs with hsame | ⟨id, status, rfl⟩
    | ⟨backupId, operation, admission, jobId, now, rfl⟩ | ⟨jobId, admitted, now, rfl⟩
  · exact absurd (hsame ▸ hjob) hold
  · -- only an active job is settled
    obtain ⟨job₀, hjob₀, rfl⟩ := (@Table.mem_update _ _ _ s.jobs _
      (fun job => { job with status := status }) (fun _ => rfl) _).mp hjob
    split at hold
    · rename_i hp
      simp only [Bool.and_eq_true] at hp
      have hinactive : job₀.status.active = false := by
        refine hnew job₀ (Table.find_eq_some.mpr ⟨hjob₀, ?_⟩)
        split <;> rfl
      rw [hinactive] at hp
      cases hp.2
    · exact absurd hjob₀ hold
  · simp only [step] at hjob
    split at hjob
    · rename_i jobs hok
      obtain ⟨free, hostId, payload, hfind, hfree, hpayload, rfl⟩ := enqueueBackupOperation_ok hok
      rcases Table.mem_insert hjob with hmem | ⟨rfl, -⟩
      · exact absurd hmem hold
      · intro hreferences
        rw [References, queuedJob, hpayload, Option.map_some, Option.some.injEq] at hreferences
        exact ne_of_find_free hfind hfree hrow hclaim hreferences
    · exact absurd hjob hold
    · exact absurd hjob hold
  · obtain ⟨job₀, hjob₀, -, hpayload, rfl | ⟨hid, hcan, hadmitted⟩⟩ := mem_retryJob hjob
    · exact absurd hjob₀ hold
    · intro hreferences
      rw [References, hpayload] at hreferences
      obtain ⟨id, hbackup, hrowId⟩ := Option.map_eq_some_iff.mp hreferences
      -- the retry has looked at the row of its backup
      have hlock : lockRetryAdmissionResource s job₀.payload = true := by
        have hfind : s.jobs.find jobId = some job₀ := Table.find_eq_some.mpr ⟨hjob₀, hid⟩
        rw [Bool.and_eq_true, hfind, Option.any_some] at hadmitted
        exact hadmitted.2
      rw [payload_of_canRetryJob hcan hbackup] at hlock
      simp only [lockRetryAdmissionResource] at hlock
      cases hfind : s.backups.find (uuidText id) with
      | none => simp [hfind] at hlock
      | some free =>
        refine ne_of_find_free hfind ?_ hrow hclaim hrowId
        simpa [hfind, backupHasDeletionClaim] using hlock

/-! ### Claims, publications and artifacts -/

/-- A deletion under the stored spelling sees every active job. -/
theorem not_references_of_inactive {s : BackupState} (hspelled : s.JobsSpelled) {id : Id}
    (hid : uuidText id = id) {row : BackupRow} (hrow : row.id = uuidText id)
    (h : hasActiveBackupJob s id = false) {job : JobRow} (hjob : job ∈ s.jobs)
    (hactive : job.status.active = true) : ¬ References row job := by
  intro hreferences
  obtain ⟨id', hpayload, hid'⟩ := Option.map_eq_some_iff.mp hreferences
  rw [hspelled job hjob id' hpayload, hrow, hid] at hid'
  unfold hasActiveBackupJob at h
  rw [List.any_eq_false] at h
  simpa [hactive, hpayload, hid'] using h job hjob

theorem terminal_of_not_pendingBackupAttempt {s : BackupState} {id : Id}
    (h : hasPendingBackupAttempt s id = false) {attempt : AttemptRow}
    (hattempt : attempt ∈ s.attempts) (hbackup : attempt.backupId = some (uuidText id)) :
    attempt.status.nonTerminal = false := by
  unfold hasPendingBackupAttempt at h
  rw [List.any_eq_false] at h
  simpa [hbackup] using h attempt hattempt

/-- **Claims.**  A backup is claimed only while no job and no restore attempt of it is active. -/
theorem step_claimed {s : BackupState} (hinv : Inv s) {op : BackupOp} (hop : SpelledAsStored s op)
    (row : BackupRow) (hrow : row ∈ s.backups) (hnone : row.claim.token = none) (row' : BackupRow)
    (hrow' : (s.step op).backups.find row.id = some row') (hsome : row'.claim.token.isSome = true) :
    (∀ job ∈ s.jobs, job.status.active = true → ¬ References row job)
      ∧ ∀ attempt ∈ s.attempts, attempt.backupId = some row.id →
          attempt.status.nonTerminal = false := by
  cases step_find hrow hrow' with
  | claim id token now hkey hid hfree hactive hpending c hc =>
    -- a retention takes its ids from the table
    have hstored : uuidText id = id := by
      rcases hid with ⟨worker, rfl⟩ | ⟨worker, hmem⟩
      · exact hop
      · exact hinv.retention worker id hmem
    refine ⟨fun job hjob => not_references_of_inactive hinv.jobs hstored hkey hactive hjob, ?_⟩
    intro attempt hattempt hbackup
    exact terminal_of_not_pendingBackupAttempt hpending hattempt (hkey ▸ hbackup)
  | renew c hc =>
    have hsome : c.token.isSome = true := hsome
    rw [hc, hnone] at hsome
    cases hsome
  | keep _ hkept =>
    rw [hkept.claim, hnone] at hsome
    cases hsome
  | publish executor capture now hphase hnext howns =>
    have hsome : row.claim.token.isSome = true := hsome
    rw [hnone] at hsome
    cases hsome

/-- **Publications.**  Nothing is published to a backup that carries a claim. -/
theorem step_published (s : BackupState) (op : BackupOp) (row : BackupRow) (hrow : row ∈ s.backups)
    (hclaim : row.claim.token.isSome = true) (row' : BackupRow)
    (hrow' : (s.step op).backups.find row.id = some row') :
    SamePublication row row' ∧ (row'.status = row.status ∨ row'.status = .failed) := by
  have hne : row.claim.token ≠ none := fun hnone => by
    rw [hnone] at hclaim
    cases hclaim
  cases step_find hrow hrow' with
  | claim id token now hkey hid hfree hactive hpending c hc => exact absurd hfree hne
  | renew c hc => exact ⟨⟨rfl, rfl, rfl, rfl⟩, Or.inl rfl⟩
  | keep _ hkept =>
    refine ⟨hkept.publication, ?_⟩
    rcases hkept.status with h | h | h
    · exact Or.inl h
    · exact Or.inr h
    · exact absurd h hne
  | publish executor capture now hphase hnext howns =>
    simp only [Capture.owns, Bool.and_eq_true, Option.isNone_iff_eq_none] at howns
    exact absurd howns.2 hne

/-- A deleter that works on a row works under its claim. -/
theorem actsUnderClaim {s : BackupState} (hinv : Inv s) {worker : ℕ} {claimed : ClaimedBackup}
    (hphase : (s.deleters worker).phase.claimed = some claimed) {row : BackupRow}
    (hrow : row ∈ s.backups) (hid : row.id = claimed.1.key) : s.ActsUnderClaim worker row := by
  have hmem : claimed ∈ (s.deleters worker).claims := by
    simp [BackupDeleter.claims, hphase]
  exact ⟨claimed, hphase, hid.symm, (hinv.deleters worker claimed hmem).holds row hrow hid⟩

/-- **Files.**  The file of a backup is deleted only under its claim. -/
theorem step_file {s : BackupState} (hinv : Inv s) (op : BackupOp) (row : BackupRow)
    (hrow : row ∈ s.backups) (hfile : row.fileName ∈ s.files)
    (hgone : row.fileName ∉ (s.step op).files) :
    ∃ worker, op = .removeFile worker ∧ s.ActsUnderClaim worker row := by
  rcases (step_frame s op).files with hkept | ⟨worker, claimed, hop, hphase, hkept⟩
  · exact absurd (hkept hfile) hgone
  · refine ⟨worker, hop, actsUnderClaim hinv hphase hrow ?_⟩
    have hmem : claimed ∈ (s.deleters worker).claims := by
      simp [BackupDeleter.claims, hphase]
    refine (hinv.deleters worker claimed hmem).file row hrow ?_
    by_contra hne
    exact hgone (hkept row.fileName hfile hne)

/-- **Objects.**  The remote object of a backup is deleted only under its claim. -/
theorem step_object {s : BackupState} (hinv : Inv s) (op : BackupOp) (row : BackupRow)
    (hrow : row ∈ s.backups) (key : RemoteObjectKey) (hkey : row.remoteObjectKey = some key)
    (hobject : key ∈ s.objects) (hgone : key ∉ (s.step op).objects) :
    ∃ worker, op = .removeObject worker ∧ s.ActsUnderClaim worker row := by
  rcases (step_frame s op).objects with
    hkept | ⟨worker, claimed, key', hop, hphase, hmem, hkept⟩ | ⟨executor, capture, hphase, hkept⟩
  · exact absurd (hkept hobject) hgone
  · have hsame : key = key' := by
      by_contra hne
      exact hgone (hkept key hobject hne)
    subst hsame
    refine ⟨worker, hop, actsUnderClaim hinv hphase hrow ?_⟩
    have hsafe := hinv.deleters worker claimed (by simp [BackupDeleter.claims, hphase])
    have hrowKey := hinv.keys row hrow key (mem_backupRemoteObjectKeys.mpr (Or.inl hkey))
    -- both rows are the namespace of the key
    exact hrowKey.symm.trans ((hsafe.keys key hmem).trans hsafe.key)
  · -- the object of a capture that is compensated is the locator of no row
    have hsame : key = capture.key := by
      by_contra hne
      exact hgone (hkept key hobject hne)
    have hsafe := hinv.captures executor
    rw [hphase] at hsafe
    exact absurd ⟨key, hkey, by rw [hsame]; rfl⟩ (hsafe.2 row hrow)

/-- **Removals.**  A row is removed only by a deleter under its current tokens. -/
theorem step_removed (s : BackupState) (op : BackupOp) (row : BackupRow) (hrow : row ∈ s.backups)
    (hnone : (s.step op).backups.find row.id = none) :
    ∃ worker claimed, op = .finish worker ∧ (s.deleters worker).phase.claimed = some claimed
      ∧ claimed.1.key = row.id ∧ row.claim.token = some claimed.1.token
      ∧ row.claim.reconciliationToken = claimed.1.reconciliationToken := by
  have hfind : s.backups.find row.id = some row := Table.find_eq_some.mpr ⟨hrow, rfl⟩
  generalize htable : (s.step op).backups = t' at hnone
  have hchange : TableChange s op t' := htable ▸ step_tableChange s op
  cases hchange with
  | finish worker claimed hop hphase =>
    have howns := owns_of_finish hrow hnone
    simp only [owns, Bool.and_eq_true, decide_eq_true_eq] at howns
    exact ⟨worker, claimed, hop, hphase, howns.1.1.symm, howns.1.2, howns.2⟩
  | same =>
    rw [hfind] at hnone
    cases hnone
  | claim id token now _ found hid h =>
    rw [(deleteBackup_ok h).1, find_take, hfind] at hnone
    cases hnone
  | renew d now => exact absurd hnone (Table.find_update_ne_none hfind)
  | takeOver now selected =>
    exact absurd hnone (reconcile_present now selected s row hrow)
  | update p f hf h => exact absurd hnone (Table.find_update_ne_none hfind)
  | publish executor capture now _ hphase hnext h =>
    rw [publishBackupCaptureAttempt_ok h] at hnone
    exact absurd hnone (Table.find_update_ne_none hfind)

/-! ### Runs -/

theorem Inv.step {s : BackupState} (h : Inv s) {op : BackupOp} (hop : SpelledAsStored s op) :
    Inv (s.step op) where
  ids row' hrow' := by
    obtain ⟨row, hrow, hid, -⟩ := step_origin s op row' hrow'
    rw [hid]
    exact h.ids row hrow
  names row₁' hrow₁' row₂' hrow₂' hname := by
    obtain ⟨row₁, hrow₁, hid₁, hchange₁⟩ := step_origin s op row₁' hrow₁'
    obtain ⟨row₂, hrow₂, hid₂, hchange₂⟩ := step_origin s op row₂' hrow₂'
    rw [hchange₁.fileName, hchange₂.fileName] at hname
    rw [hid₁, hid₂]
    exact h.names row₁ hrow₁ row₂ hrow₂ hname
  keys row' hrow' := by
    obtain ⟨row, hrow, -, hchange⟩ := step_origin s op row' hrow'
    refine hchange.ownKeys (h.keys row hrow) fun executor capture hphase => ?_
    have hsafe := h.captures executor
    rw [hphase] at hsafe
    exact hsafe.1
  located row' hrow' token hlocated := by
    refine (step_frame s op).drawn ?_
    rcases located_origin hrow' hlocated with
      ⟨row, hrow, -, -, hbefore⟩ | ⟨executor, capture, hcaptured, -, -, htoken⟩
    · exact h.located row hrow token hbefore
    · exact h.tokens executor token (by rw [hcaptured, ← htoken]; rfl)
  jobs := h.jobs.step hop
  retention worker id hid := by
    rcases (step_deleters s op worker).retention id hid with hold | ⟨row, hrow, rfl⟩
    · exact h.retention worker id hold
    · exact h.ids row hrow
  deleters worker claimed hclaimed := by
    rcases (step_deleters s op worker).claims claimed hclaimed with hold | hnew
    · exact (h.deleters worker claimed hold).step op
    · exact hnew.safe h
  tokens executor token htoken := by
    rcases (step_captures s op executor).token htoken with hold | ⟨-, hdrawn, -⟩
    · exact (step_frame s op).drawn (h.tokens executor token hold)
    · rw [hdrawn]
      exact List.mem_cons_self
  distinct := distinct_step h op
  captures := captureSafe_step h op

/-- **One step** whose ids are spelled as stored keeps to the protocol. -/
theorem Inv.protocol {s : BackupState} (h : Inv s) {op : BackupOp} (hop : SpelledAsStored s op) :
    BackupProtocol s op where
  claimed := step_claimed h hop
  admitted := step_admitted s op
  published := step_published s op
  file := step_file h op
  object := step_object h op
  removed := step_removed s op

/-- No deletion and no capture has begun. -/
def initial (backups : BackupTable) (jobs : JobTable) (attempts : AttemptTable)
    (files : List String) (objects : List RemoteObjectKey) : BackupState where
  backups := backups
  jobs := jobs
  attempts := attempts
  files := files
  objects := objects
  drawn := (backups.rows.filterMap BackupRow.remoteObjectKey).map RemoteObjectKey.attemptToken
  deleters _ := ⟨[], [], .idle⟩
  captures _ := .idle

/-- What the services have stored: ids as the database prints them, file names that begin with the
    id (`backupFileName`), keys in the namespace of their backup (`buildRemoteObjectKey`), and jobs
    that name their backup by its stored id. -/
structure Stored (backups : BackupTable) (jobs : JobTable) : Prop where
  ids : ∀ row ∈ backups, uuidText row.id = row.id
  names : ∀ row ∈ backups, ∀ row' ∈ backups, row.fileName = row'.fileName → row.id = row'.id
  keys : ∀ row ∈ backups, OwnKeys row
  jobs : ∀ job ∈ jobs, ∀ id, payloadBackupId job.payload = some id → uuidText id = id

theorem inv_initial {backups : BackupTable} {jobs : JobTable} (h : Stored backups jobs)
    (attempts : AttemptTable) (files : List String) (objects : List RemoteObjectKey) :
    Inv (initial backups jobs attempts files objects) where
  ids := h.ids
  names := h.names
  keys := h.keys
  located row hrow token hlocated := by
    obtain ⟨key, hkey, rfl⟩ := hlocated
    exact List.mem_map_of_mem (List.mem_filterMap.mpr ⟨row, hrow, hkey⟩)
  jobs := h.jobs
  retention _ _ hid := absurd hid List.not_mem_nil
  deleters _ _ hclaimed := absurd hclaimed List.not_mem_nil
  tokens _ _ htoken := by cases htoken
  distinct _ _ _ htoken := by cases htoken
  captures _ := trivial

end BackupState

open BackupState in
/-- **Deletion claims on backups.**  In every run whose requests and deletions spell the ids of
    backups as the database prints them, every step keeps to the protocol. -/
theorem backup_deletion_claims {backups : BackupTable} {jobs : JobTable}
    (hstored : Stored backups jobs) {attempts : AttemptTable} {files : List String}
    {objects : List RemoteObjectKey} {ops : List BackupOp} {op : BackupOp}
    (hops : Meets step BackupState.SpelledAsStored (initial backups jobs attempts files objects)
      (ops ++ [op])) :
    BackupProtocol (exec step (initial backups jobs attempts files objects) ops) op := by
  have hinv : Inv (exec step (initial backups jobs attempts files objects) ops) :=
    exec_invariant_of_meets (I := Inv) (fun s op hop hs => hs.step hop)
      (inv_initial hstored attempts files objects) hops.append_left
  exact hinv.protocol hops.append_right.1

/-! ### Runs on one backup -/

/-- A completed backup, as the database holds it. -/
def completedBackup : BackupRow where
  id := "8d5f0c42-6b1e-4a39-9c77-2f40b1d6e583"
  hostId := "h1"
  kind := .volume
  fileName := "8d5f0c42-6b1e-4a39-9c77-2f40b1d6e583-data.tar.gz"
  status := .completed
  backupTargetId := none
  sizeBytes := some 10
  checksum := some "c1"
  remoteObjectKey := none
  error := none
  startedAt := some 0
  completedAt := some 1
  createdAt := 0
  claim := .empty
  captureAttemptToken := none
  captureCommittedToken := none
  orphanRemoteObjectKeys := []
  scheduleId := none

/-- The one backup of the table. -/
def completedBackups : BackupTable := ⟨[completedBackup], by decide⟩

/-- The state before the runs. -/
def storedBackup : BackupState :=
  BackupState.initial completedBackups ∅ ∅ [completedBackup.fileName] []

open BackupState in
/-- A deletion under the stored id: its last step removes the row it has claimed. -/
theorem storedDeletion_keeps_protocol :
    Stored completedBackups ∅
      ∧ Meets step BackupState.SpelledAsStored storedBackup
          [.delete 0 completedBackup.id ⟨"t1", by decide⟩ 2, .removeFile 0, .finish 0]
      ∧ BackupProtocol (exec step storedBackup
          [.delete 0 completedBackup.id ⟨"t1", by decide⟩ 2, .removeFile 0]) (.finish 0) := by
  have hid : uuidText completedBackup.id = completedBackup.id := by decide +kernel
  have hrow : ∀ row ∈ completedBackups, row = completedBackup := fun row h =>
    List.mem_singleton.mp h
  have hstored : Stored completedBackups ∅ := by
    refine ⟨?_, ?_, ?_, fun job hjob => absurd hjob (Table.not_mem_empty job)⟩
    · intro row h
      rw [hrow row h]
      exact hid
    · intro row h row' h' _
      rw [hrow row h, hrow row' h']
    · intro row h key hkey
      rw [hrow row h] at hkey
      exact absurd hkey List.not_mem_nil
  have hops : Meets step BackupState.SpelledAsStored storedBackup
      [.delete 0 completedBackup.id ⟨"t1", by decide⟩ 2, .removeFile 0, .finish 0] :=
    ⟨hid, trivial, trivial, trivial⟩
  exact ⟨hstored, hops, backup_deletion_claims hstored hops⟩

open BackupState in
/-- A verification that is requested in upper case is queued, and the deletion does not see it. -/
theorem upperCase_backup_verification_unseen :
    ¬ BackupProtocol (exec step storedBackup
        [.request "8D5F0C42-6B1E-4A39-9C77-2F40B1D6E583" .verify (.ok ()) "j1" 1])
      (.delete 0 completedBackup.id ⟨"t1", by decide⟩ 2) := by
  intro h
  let job := queuedJob "j1" "h1" (.backupVerify "8D5F0C42-6B1E-4A39-9C77-2F40B1D6E583") 1
  let claimed := assign backupSchema
    (fun c => { c with token := some ⟨"t1", by decide⟩, claimedAt := some 2 }) completedBackup
  have hclaimed := h.claimed completedBackup (Table.mem_rows.mp (by decide +kernel)) rfl claimed
    (by decide +kernel) rfl
  refine hclaimed.1 job (Table.mem_rows.mp (by decide +kernel)) rfl ?_
  show (payloadBackupId job.payload).map uuidText = some completedBackup.id
  decide +kernel

end ComposeBastion
