import ComposeBastion.Recovery.RemoteLedger

namespace ComposeBastion

/-!
# Steps of the ledger

What the steps of `LedgerSystem` do, and what all of them keep.

* `LedgerSystem.UploadEffect`, `advanceUpload_cases` — what a statement of an upload does;
* `LedgerSystem.Later` — who has begun what, which attempts can no longer commit, and the locators;
* `LedgerSystem.Leases`, `leases_step` — while the lease of an attempt is active, its point is
  running.
-/

namespace LedgerSystem

variable {s s' : LedgerSystem} {attempt next : CaptureAttempt} {item : UploadItem}
variable {object : RemoteObject} {row : LedgerRow}

/-! ### Locators -/

/-- Some artifact names the object as its verified remote locator. -/
def locator (s : LedgerSystem) (object : RemoteObject) : Bool :=
  s.artifacts.rows.any fun artifact => artifact.remoteVerified &&
    artifact.backupTarget = some object.target && artifact.remoteObjectKey = some object.key

theorem locator_iff : s.locator object = true ↔ ∃ artifact ∈ s.artifacts,
    artifact.remoteVerified = true ∧ artifact.backupTarget = some object.target ∧
      artifact.remoteObjectKey = some object.key := by
  simp [locator, and_assoc]

/-! ### The statements of an upload -/

/-- The artifact that a stage is about. -/
def stageItem : UploadStage → Option UploadItem
  | .opening item | .intended item | .putting item | .verifying item | .committing item
  | .readBack item | .deleting item | .clearing item | .recording item | .releasing item
  | .marking item _ | .evidence item => some item
  | .capturing | .next | .threw | .uploaded | .failing | .ended => none

/-- The artifacts that the upload is at and has before it. -/
def pending (attempt : CaptureAttempt) : List UploadItem :=
  (stageItem attempt.stage).toList ++ attempt.todo

/-- The attempt stores no object and commits no locator any more. -/
def isOver (attempt : CaptureAttempt) : Bool := attempt.stage = .failing || attempt.stage = .ended

/-- How an attempt moves on. -/
structure Moves (attempt next : CaptureAttempt) : Prop where
  token : next.token = attempt.token
  job : next.job = attempt.job
  point : next.point = attempt.point
  target : next.target = attempt.target
  isOver : isOver attempt = true → isOver next = true
  loaded : next.stage ≠ .capturing
  todo : attempt.stage ≠ .capturing → ∀ item ∈ next.todo, item ∈ attempt.todo
  opening : ∀ {item}, next.stage = .opening item → attempt.stage = .next ∧ item ∈ attempt.todo
  intended : ∀ {item}, next.stage = .intended item → attempt.stage = .opening item
  putting : ∀ {item}, next.stage = .putting item → attempt.stage = .intended item
  clearing : ∀ {item}, next.stage = .clearing item → attempt.stage = .deleting item

/-- What a statement of an upload does, apart from the stage of the attempt. -/
inductive UploadEffect (s : LedgerSystem) (attempt next : CaptureAttempt) : LedgerSystem → Prop
  | none (hpending : (pending next).Sublist (pending attempt))
      (hintended : ∀ {item}, next.stage ≠ .intended item)
      (hclearing : ∀ {item}, next.stage ≠ .clearing item) : UploadEffect s attempt next s
  | load (hstage : attempt.stage = .capturing)
      (hpending : pending next = s.uploadItems attempt.point) : UploadEffect s attempt next s
  | intent {item : UploadItem} {claim : Option LedgerClaim}
      (hstage : attempt.stage = .opening item ∨ attempt.stage = .recording item)
      (hintended : ∀ {item'}, next.stage = .intended item' → item' = item)
      (hpending : (pending next).Sublist (pending attempt)) :
      UploadEffect s attempt next { s with
        ledger := s.ledger.upsert ⟨attempt.object item, item.artifact, attempt.token, claim⟩ }
  | put {item : UploadItem} (hstage : attempt.stage = .putting item)
      (hpending : (pending next).Sublist (pending attempt)) :
      UploadEffect s attempt next (s.putObject (attempt.object item))
  | delete {item : UploadItem} (hstage : attempt.stage = .deleting item)
      (hclearing : ∀ {item'}, next.stage = .clearing item' → item' = item)
      (hpending : (pending next).Sublist (pending attempt)) :
      UploadEffect s attempt next (s.deleteObject (attempt.object item))
  | clear {item : UploadItem} (hstage : attempt.stage = .clearing item)
      (hpending : (pending next).Sublist (pending attempt)) :
      UploadEffect s attempt next (s.clearIntent attempt item)
  | release {item : UploadItem} (hstage : attempt.stage = .releasing item)
      (hpending : (pending next).Sublist (pending attempt)) :
      UploadEffect s attempt next (s.releaseIntent attempt item)
  | commit {item : UploadItem} {s' : LedgerSystem} (hstage : attempt.stage = .committing item)
      (hcommit : s.commitLocator attempt item = some s')
      (hpending : (pending next).Sublist (pending attempt)) : UploadEffect s attempt next s'
  | mark {item : UploadItem} {orphaned : Bool} {s' : LedgerSystem}
      (hstage : (∃ b, attempt.stage = .marking item b) ∨ attempt.stage = .evidence item)
      (hmark : s.markFailed attempt item orphaned = some s')
      (hpending : (pending next).Sublist (pending attempt)) : UploadEffect s attempt next s'
  | markAll {s' : LedgerSystem} (hstage : attempt.stage = .threw)
      (hmark : s.markAllFailed attempt = some s')
      (hpending : (pending next).Sublist (pending attempt)) : UploadEffect s attempt next s'
  | status {status : CaptureStatus} (hnext : isOver next = true)
      (hpending : (pending next).Sublist (pending attempt)) :
      UploadEffect s attempt next
        (s.setStatus attempt.point (·.captureAttemptToken = some attempt.token) status)

theorem writeIntent_eq (h : s.writeIntent row = some s') :
    s' = { s with ledger := s.ledger.upsert row } := by
  unfold writeIntent at h
  split at h
  · exact (Option.some.inj h).symm
  · cases h

/-- A statement without an effect leads to a stage that no effect leads to. -/
theorem moves_only {stage : UploadStage} (hmoves : Moves attempt { attempt with stage := stage })
    (hpending : (pending { attempt with stage := stage }).Sublist (pending attempt))
    (hintended : ∀ {item}, stage ≠ .intended item) (hclearing : ∀ {item}, stage ≠ .clearing item) :
    ∃ next s₁, Moves attempt next ∧ UploadEffect s attempt next s₁ ∧
      s.goto attempt stage = { s₁ with attempts := s₁.attempts.upsert next } :=
  ⟨_, _, hmoves, .none hpending hintended hclearing, rfl⟩

/-- **Inversion.** A statement of an upload moves the attempt on and has one effect. -/
theorem advanceUpload_cases (s : LedgerSystem) (attempt : CaptureAttempt) (reply : Reply) :
    s.advanceUpload attempt reply = s ∨ ∃ next s₁, Moves attempt next ∧
      UploadEffect s attempt next s₁ ∧
      s.advanceUpload attempt reply = { s₁ with attempts := s₁.attempts.upsert next } := by
  unfold advanceUpload
  split
  case h_18 => exact Or.inl rfl
  all_goals
    rename_i hstage
    right
  case h_1 =>
    split
    · refine ⟨_, _, ?_, .load hstage ?_, rfl⟩
      · constructor <;> simp [isOver, hstage]
      · simp [pending, stageItem]
    · refine moves_only ?_ ?_ ?_ ?_
      · constructor <;> simp [isOver, hstage]
      all_goals simp [pending, stageItem, hstage]
  case h_2 =>
    split
    next htodo =>
      split
      all_goals
        refine moves_only ?_ ?_ ?_ ?_
        · constructor <;> simp [isOver, hstage]
        all_goals simp [pending, stageItem, hstage]
    next item rest htodo =>
      split
      all_goals
        refine ⟨_, _, ?_, .none ?_ ?_ ?_, rfl⟩
        · constructor <;> simp +contextual [isOver, hstage, htodo]
        all_goals simp [pending, stageItem, hstage, htodo]
  case h_3 item =>
    split
    next s₁ hwrite =>
      obtain rfl := writeIntent_eq hwrite
      refine ⟨_, _, ?_, .intent (Or.inl hstage) ?_ ?_, rfl⟩
      · constructor <;> simp [isOver, hstage]
      all_goals simp [pending, stageItem, hstage]
    next s₁ hwrite =>
      obtain rfl := writeIntent_eq hwrite
      refine ⟨_, _, ?_, .intent (Or.inl hstage) ?_ ?_, rfl⟩
      · constructor <;> simp [isOver, hstage]
      all_goals simp [pending, stageItem, hstage]
    · refine moves_only ?_ ?_ ?_ ?_
      · constructor <;> simp [isOver, hstage]
      all_goals simp [pending, stageItem, hstage]
  case h_4 item =>
    split
    all_goals
      refine moves_only ?_ ?_ ?_ ?_
      · constructor <;> simp [isOver, hstage]
      all_goals simp [pending, stageItem, hstage]
  case h_5 item =>
    split
    · refine ⟨_, _, ?_, .put hstage ?_, rfl⟩
      · constructor <;> simp [isOver, hstage]
      · simp [pending, stageItem, hstage]
    · refine ⟨_, _, ?_, .put hstage ?_, rfl⟩
      · constructor <;> simp [isOver, hstage]
      · simp [pending, stageItem, hstage]
    · refine moves_only ?_ ?_ ?_ ?_
      · constructor <;> simp [isOver, hstage]
      all_goals simp [pending, stageItem, hstage]
  case h_6 item =>
    split
    all_goals
      refine moves_only ?_ ?_ ?_ ?_
      · constructor <;> simp [isOver, hstage]
      all_goals simp [pending, stageItem, hstage]
  case h_7 item =>
    split
    next s₁ hcommit =>
      refine ⟨_, _, ?_, .commit hstage hcommit ?_, rfl⟩
      · constructor <;> simp [isOver, hstage]
      · simp [pending, stageItem, hstage]
    next s₁ hcommit =>
      refine ⟨_, _, ?_, .commit hstage hcommit ?_, rfl⟩
      · constructor <;> simp [isOver, hstage]
      · simp [pending, stageItem, hstage]
    · refine moves_only ?_ ?_ ?_ ?_
      · constructor <;> simp [isOver, hstage]
      all_goals simp [pending, stageItem, hstage]
  case h_8 item =>
    split
    · refine moves_only ?_ ?_ ?_ ?_
      · constructor <;> simp [isOver, hstage]
      all_goals simp [pending, stageItem, hstage]
    · split
      all_goals
        refine moves_only ?_ ?_ ?_ ?_
        · constructor <;> simp [isOver, hstage]
        all_goals simp [pending, stageItem, hstage]
  case h_9 item =>
    split
    · refine ⟨_, _, ?_, .delete hstage ?_ ?_, rfl⟩
      · constructor <;> simp [isOver, hstage]
      all_goals simp [pending, stageItem, hstage]
    · refine ⟨_, _, ?_, .delete hstage ?_ ?_, rfl⟩
      · constructor <;> simp [isOver, hstage]
      all_goals simp [pending, stageItem, hstage]
    · refine moves_only ?_ ?_ ?_ ?_
      · constructor <;> simp [isOver, hstage]
      all_goals simp [pending, stageItem, hstage]
  case h_10 item =>
    split
    · refine ⟨_, _, ?_, .clear hstage ?_, rfl⟩
      · constructor <;> simp [isOver, hstage]
      · simp [pending, stageItem, hstage]
    · refine ⟨_, _, ?_, .clear hstage ?_, rfl⟩
      · constructor <;> simp [isOver, hstage]
      · simp [pending, stageItem, hstage]
    · refine moves_only ?_ ?_ ?_ ?_
      · constructor <;> simp [isOver, hstage]
      all_goals simp [pending, stageItem, hstage]
  case h_11 item =>
    split
    next s₁ hwrite =>
      obtain rfl := writeIntent_eq hwrite
      refine ⟨_, _, ?_, .intent (Or.inr hstage) ?_ ?_, rfl⟩
      · constructor <;> simp [isOver, hstage]
      all_goals simp [pending, stageItem, hstage]
    next s₁ hwrite =>
      obtain rfl := writeIntent_eq hwrite
      refine ⟨_, _, ?_, .intent (Or.inr hstage) ?_ ?_, rfl⟩
      · constructor <;> simp [isOver, hstage]
      all_goals simp [pending, stageItem, hstage]
    · refine moves_only ?_ ?_ ?_ ?_
      · constructor <;> simp [isOver, hstage]
      all_goals simp [pending, stageItem, hstage]
  case h_12 item =>
    split
    · refine ⟨_, _, ?_, .release hstage ?_, rfl⟩
      · constructor <;> simp [isOver, hstage]
      · simp [pending, stageItem, hstage]
    · refine moves_only ?_ ?_ ?_ ?_
      · constructor <;> simp [isOver, hstage]
      all_goals simp [pending, stageItem, hstage]
  case h_13 item orphaned =>
    have hmark : ∀ {s₁}, (if s.leased attempt.job then
        s.markFailed { attempt with failures := attempt.failures + 1 } item orphaned
        else none) = some s₁ → s.markFailed attempt item orphaned = some s₁ := by
      intro s₁ h
      split at h
      · exact h
      · cases h
    have hrest : ∃ rest, rest = (if orphaned then UploadStage.evidence item else .threw) ∧
        (rest = .evidence item ∨ rest = .threw) := by cases orphaned <;> simp
    obtain ⟨rest, hdef, hrest⟩ := hrest
    simp only [← hdef]
    split
    next s₁ hsome =>
      refine ⟨_, _, ?_, .mark (Or.inl ⟨_, hstage⟩) (hmark hsome) ?_, rfl⟩
      · constructor <;> simp [isOver, hstage]
      · simp [pending, stageItem, hstage]
    next s₁ hsome =>
      refine ⟨_, _, ?_, .mark (Or.inl ⟨_, hstage⟩) (hmark hsome) ?_, rfl⟩
      · constructor <;> rcases hrest with rfl | rfl <;> simp [isOver, hstage]
      · rcases hrest with rfl | rfl <;> simp [pending, stageItem, hstage]
    · refine ⟨_, _, ?_, .none ?_ ?_ ?_, rfl⟩
      · constructor <;> rcases hrest with rfl | rfl <;> simp [isOver, hstage]
      all_goals rcases hrest with rfl | rfl <;> simp [pending, stageItem, hstage]
  case h_14 item =>
    split
    next s₁ hmark _ =>
      refine ⟨_, _, ?_, .mark (Or.inr hstage) hmark ?_, rfl⟩
      · constructor <;> simp [isOver, hstage]
      · simp [pending, stageItem, hstage]
    · refine moves_only ?_ ?_ ?_ ?_
      · constructor <;> simp [isOver, hstage]
      all_goals simp [pending, stageItem, hstage]
  case h_15 =>
    have hmark : ∀ {s₁}, (if s.leased attempt.job then s.markAllFailed attempt else none) =
        some s₁ → s.markAllFailed attempt = some s₁ := by
      intro s₁ h
      split at h
      · exact h
      · cases h
    split
    next s₁ hsome =>
      refine ⟨_, _, ?_, .markAll hstage (hmark hsome) ?_, rfl⟩
      · constructor <;> simp [isOver, hstage]
      · simp [pending, stageItem, hstage]
    next s₁ hsome =>
      refine ⟨_, _, ?_, .markAll hstage (hmark hsome) ?_, rfl⟩
      · constructor <;> simp [isOver, hstage]
      · simp [pending, stageItem, hstage]
    · refine moves_only ?_ ?_ ?_ ?_
      · constructor <;> simp [isOver, hstage]
      all_goals simp [pending, stageItem, hstage]
  case h_16 =>
    split
    · refine ⟨_, _, ?_, .status ?_ ?_, rfl⟩
      · constructor <;> split <;> simp [isOver, hstage]
      all_goals split <;> simp [isOver, pending, stageItem, hstage]
    · refine moves_only ?_ ?_ ?_ ?_
      · constructor <;> simp [isOver, hstage]
      all_goals simp [pending, stageItem, hstage]
  case h_17 =>
    split
    · refine ⟨_, _, ?_, .status ?_ ?_, rfl⟩
      · constructor <;> simp [isOver, hstage]
      all_goals simp [isOver, pending, stageItem, hstage]
    · refine moves_only ?_ ?_ ?_ ?_
      · constructor <;> simp [isOver, hstage]
      all_goals simp [pending, stageItem, hstage]

/-! ### What every step keeps -/

/-- The attempt has written its intent for the artifact, or never will. -/
def Begun (attempt : CaptureAttempt) (artifact : ℕ) : Prop :=
  attempt.stage ≠ .capturing ∧ (∀ item ∈ attempt.todo, item.artifact ≠ artifact) ∧
    ∀ item, attempt.stage = .opening item → item.artifact ≠ artifact

/-- The attempt will not store the object of the artifact any more. -/
def Past (attempt : CaptureAttempt) (artifact : ℕ) : Prop :=
  Begun attempt artifact ∧ ∀ item,
    attempt.stage = .intended item ∨ attempt.stage = .putting item → item.artifact ≠ artifact

theorem Moves.begun {artifact : ℕ} (h : Moves attempt next) (hbegun : Begun attempt artifact) :
    Begun next artifact := by
  obtain ⟨hloaded, htodo, -⟩ := hbegun
  refine ⟨h.loaded, fun item hitem => htodo item (h.todo hloaded item hitem), ?_⟩
  intro item hitem
  exact htodo item (h.opening hitem).2

theorem Moves.past {artifact : ℕ} (h : Moves attempt next) (hpast : Past attempt artifact) :
    Past next artifact := by
  refine ⟨h.begun hpast.1, ?_⟩
  rintro item (hitem | hitem)
  · exact hpast.1.2.2 item (h.intended hitem)
  · exact hpast.2 item (Or.inl (h.putting hitem))

/-- An attempt after some step. -/
structure Advances (attempt next : CaptureAttempt) : Prop where
  token : next.token = attempt.token
  job : next.job = attempt.job
  point : next.point = attempt.point
  target : next.target = attempt.target
  isOver : isOver attempt = true → isOver next = true
  begun : ∀ {artifact}, Begun attempt artifact → Begun next artifact
  past : ∀ {artifact}, Past attempt artifact → Past next artifact

theorem Advances.refl (attempt : CaptureAttempt) : Advances attempt attempt :=
  ⟨rfl, rfl, rfl, rfl, id, id, id⟩

theorem Moves.advances (h : Moves attempt next) : Advances attempt next :=
  ⟨h.token, h.job, h.point, h.target, h.isOver, h.begun, h.past⟩

theorem Advances.object_eq (h : Advances attempt next) (item : UploadItem) :
    next.object item = attempt.object item := by
  rw [CaptureAttempt.object, CaptureAttempt.object, h.token, h.point, h.target]

theorem Advances.attemptLock (h : Advances attempt next) :
    s.attemptLock next = s.attemptLock attempt := by
  rw [LedgerSystem.attemptLock, LedgerSystem.attemptLock, h.token, h.job, h.point]

/-- What is the same or has moved on after a step. -/
structure Later (s s' : LedgerSystem) : Prop where
  attempts : ∀ {token attempt}, s.attempts.find token = some attempt →
    ∃ next, s'.attempts.find token = some next ∧ Advances attempt next
  artifacts : ∀ {id artifact}, s.artifacts.find id = some artifact →
    ∃ artifact', s'.artifacts.find id = some artifact' ∧ artifact'.point = artifact.point ∧
      artifact'.storageKey = artifact.storageKey
  locked : ∀ {token attempt}, s.attempts.find token = some attempt →
    s.attemptLock attempt = false → s'.attemptLock attempt = false
  locators : ∀ {object}, s.locator object = true → s'.locator object = true
  committed : ∀ {object}, s'.locator object = true → s.locator object = true ∨
    ∃ attempt, s.attempts.find object.key.attempt = some attempt ∧ isOver attempt = false ∧
      s.attemptLock attempt = true

/-- No locator of the attempt is committed any more. -/
def Dead (s : LedgerSystem) (token : ℕ) : Prop :=
  ∃ attempt, s.attempts.find token = some attempt ∧
    (isOver attempt = true ∨ s.attemptLock attempt = false)

theorem Dead.later {token : ℕ} (h : Dead s token) (hlater : Later s s') : Dead s' token := by
  obtain ⟨attempt, hattempt, hdead⟩ := h
  obtain ⟨next, hnext, hadv⟩ := hlater.attempts hattempt
  refine ⟨next, hnext, ?_⟩
  rcases hdead with hover | hlock
  · exact Or.inl (hadv.isOver hover)
  · right
    rw [hadv.attemptLock]
    exact hlater.locked hattempt hlock

/-- The object is no verified locator and never will be one. -/
def Lost (s : LedgerSystem) (object : RemoteObject) : Prop :=
  s.locator object = false ∧ Dead s object.key.attempt

theorem Lost.later (h : Lost s object) (hlater : Later s s') : Lost s' object := by
  refine ⟨?_, h.2.later hlater⟩
  rw [Bool.eq_false_iff]
  intro hlocator
  rcases hlater.committed hlocator with hold | ⟨attempt, hattempt, hover, hlock⟩
  · rw [h.1] at hold
    cases hold
  · obtain ⟨attempt', hattempt', hdead⟩ := h.2
    obtain rfl : attempt' = attempt := Option.some.inj (hattempt'.symm.trans hattempt)
    rw [hover, hlock] at hdead
    simp at hdead

/-- A row of the ledger, or one that a run has read: it is the row of an artifact that the attempt
    has begun. -/
def RowSound (s : LedgerSystem) (row : LedgerRow) : Prop :=
  ∃ attempt artifact, s.attempts.find row.attempt = some attempt ∧
    s.artifacts.find row.owner = some artifact ∧ artifact.point = attempt.point ∧
    row.object = attempt.object ⟨row.owner, artifact.storageKey⟩ ∧ Begun attempt row.owner

theorem RowSound.later (h : RowSound s row) (hlater : Later s s') : RowSound s' row := by
  obtain ⟨attempt, artifact, hattempt, hartifact, hpoint, hobject, hbegun⟩ := h
  obtain ⟨next, hnext, hadv⟩ := hlater.attempts hattempt
  obtain ⟨artifact', hartifact', hpoint', hkey'⟩ := hlater.artifacts hartifact
  refine ⟨next, artifact', hnext, hartifact', ?_, ?_, hadv.begun hbegun⟩
  · rw [hpoint', hpoint, hadv.point]
  · rw [hkey', hadv.object_eq, hobject]

/-- The attempt of the row will not store its object any more. -/
def RowPast (s : LedgerSystem) (row : LedgerRow) : Prop :=
  ∃ attempt, s.attempts.find row.attempt = some attempt ∧ Past attempt row.owner

theorem RowPast.later (h : RowPast s row) (hlater : Later s s') : RowPast s' row := by
  obtain ⟨attempt, hattempt, hpast⟩ := h
  obtain ⟨next, hnext, hadv⟩ := hlater.attempts hattempt
  exact ⟨next, hnext, hadv.past hpast⟩

/-! ### Leases -/

/-- At most one unfinished job for each point; while the lease of an attempt that has the point is
    active, the point is running. -/
structure Leases (s : LedgerSystem) : Prop where
  exclusive : ∀ {id id' job job'}, s.jobs.find id = some job → s.jobs.find id' = some job' →
    job.phase ≠ .ended → job'.phase ≠ .ended → job.point = job'.point → id = id'
  owned : ∀ {token attempt}, s.attempts.find token = some attempt →
    ∃ job, s.jobs.find attempt.job = some job ∧ job.point = attempt.point ∧ job.phase ≠ .queued
  present : ∀ {token attempt}, s.attempts.find token = some attempt →
    ∃ point, s.points.find attempt.point = some point
  running : ∀ {token attempt point}, s.attempts.find token = some attempt →
    isOver attempt = false → s.leased attempt.job = true →
    s.points.find attempt.point = some point → point.captureAttemptToken = some attempt.token →
    point.status = .running ∧ point.deletionClaimed = false

theorem leases_initial : Leases initial where
  exclusive h := by cases h
  owned h := by cases h
  present h := by cases h
  running h := by cases h

theorem Leases.congr (h : Leases s) (hjobs : s'.jobs = s.jobs) (hpoints : s'.points = s.points)
    (hattempts : s'.attempts = s.attempts) : Leases s' := by
  have hleased : ∀ job, s'.leased job = s.leased job := fun job => by simp [leased, hjobs]
  constructor
  · rw [hjobs]; exact h.exclusive
  · rw [hjobs, hattempts]; exact h.owned
  · rw [hpoints, hattempts]; exact h.present
  · simp only [hpoints, hattempts, hleased]; exact h.running

theorem leased_iff {job : ℕ} : s.leased job = true ↔
    ∃ row, s.jobs.find job = some row ∧ row.phase = .leased := by
  simp [leased, Option.any_eq_true]

/-- A job that goes on without a lease; the point of the job may change its status. -/
theorem Leases.withdraw {id : ℕ} {job : CaptureJob} {phase : LeasePhase} (h : Leases s)
    (hjob : s.jobs.find id = some job) (hlive : job.phase ≠ .ended)
    (hphase : phase = .expired ∨ phase = .ended)
    (hjobs : s'.jobs = s.jobs.upsert { job with phase := phase })
    (hattempts : s'.attempts = s.attempts)
    (hpoints : ∀ k, s'.points.find k = s.points.find k ∨ k = job.point ∧
      (s'.points.find k).isSome = (s.points.find k).isSome) : Leases s' := by
  have hid : job.id = id := (Table.find_eq_some.mp hjob).2
  have hfind : ∀ k, s'.jobs.find k = if id = k then some { job with phase := phase }
      else s.jobs.find k := by
    intro k
    rw [hjobs, Table.find_upsert]
    simp [hid]
  -- a row of the new table was live before, with the same point
  have hback : ∀ {k row}, s'.jobs.find k = some row → row.phase ≠ .ended →
      ∃ row', s.jobs.find k = some row' ∧ row'.phase ≠ .ended ∧ row'.point = row.point := by
    intro k row hrow hrowlive
    rw [hfind] at hrow
    split at hrow
    next hk =>
      obtain rfl := Option.some.inj hrow
      exact ⟨job, hk ▸ hjob, hlive, rfl⟩
    · exact ⟨row, hrow, hrowlive, rfl⟩
  constructor
  · intro k k' row row' hrow hrow' hl hl' hp
    obtain ⟨row₁, hrow₁, hl₁, hp₁⟩ := hback hrow hl
    obtain ⟨row₂, hrow₂, hl₂, hp₂⟩ := hback hrow' hl'
    exact h.exclusive hrow₁ hrow₂ hl₁ hl₂ (by rw [hp₁, hp₂, hp])
  · intro token attempt hattempt
    rw [hattempts] at hattempt
    obtain ⟨row, hrow, hpoint, hqueued⟩ := h.owned hattempt
    rw [hfind]
    split
    next hk =>
      obtain rfl : row = job := Option.some.inj (hrow.symm.trans (hk ▸ hjob))
      refine ⟨_, rfl, hpoint, ?_⟩
      rcases hphase with rfl | rfl <;> simp
    · exact ⟨row, hrow, hpoint, hqueued⟩
  · intro token attempt hattempt
    rw [hattempts] at hattempt
    obtain ⟨point, hpoint⟩ := h.present hattempt
    rcases hpoints attempt.point with hsame | ⟨-, hsome⟩
    · exact ⟨point, hsame.trans hpoint⟩
    · rw [hpoint, Option.isSome_some] at hsome
      exact Option.isSome_iff_exists.mp hsome
  · intro token attempt point hattempt hover hleased hpoint htoken
    rw [hattempts] at hattempt
    obtain ⟨row, hrow, hrowphase⟩ := leased_iff.mp hleased
    rw [hfind] at hrow
    split at hrow
    · obtain rfl := Option.some.inj hrow
      rcases hphase with rfl | rfl <;> cases hrowphase
    next hne =>
      obtain ⟨row', hrow', hrowpoint, -⟩ := h.owned hattempt
      obtain rfl : row' = row := Option.some.inj (hrow'.symm.trans hrow)
      have hother : attempt.point ≠ job.point := by
        intro heq
        refine hne (h.exclusive hjob hrow hlive ?_ (heq ▸ hrowpoint.symm))
        rw [hrowphase]
        simp
      rcases hpoints attempt.point with hsame | ⟨heq, -⟩
      · exact h.running hattempt hover (leased_iff.mpr ⟨_, hrow, hrowphase⟩) (hsame ▸ hpoint) htoken
      · exact absurd heq hother

theorem ended_of_not_busy {id point : ℕ} {job : CaptureJob} (h : s.busy point = false)
    (hjob : s.jobs.find id = some job) (hpoint : job.point = point) : job.phase = .ended := by
  have hall : ∀ row ∈ s.jobs, row.point = point → row.phase = .ended := by
    simpa [busy, imp_iff_not_or, or_comm] using h
  exact hall job (Table.find_eq_some.mp hjob).1 hpoint

theorem Leases.createPoint (h : Leases s) (row : CapturePoint) :
    Leases { s with points := s.points.insert row } := by
  refine ⟨h.exclusive, h.owned, ?_, ?_⟩
  · intro token attempt hattempt
    obtain ⟨point, hpoint⟩ := h.present hattempt
    exact ⟨point, Table.find_insert_of_some hpoint⟩
  · intro token attempt point hattempt hover hleased hpoint htoken
    obtain ⟨point', hpoint'⟩ := h.present hattempt
    obtain rfl : point' = point :=
      Option.some.inj ((Table.find_insert_of_some hpoint').symm.trans hpoint)
    exact h.running hattempt hover hleased hpoint' htoken

theorem Leases.enqueue {job point : ℕ} (h : Leases s) (hbusy : s.busy point = false) :
    Leases { s with jobs := s.jobs.insert ⟨job, point, .queued⟩ } := by
  have hnew : ∀ {id row}, (s.jobs.insert ⟨job, point, .queued⟩).find id = some row →
      s.jobs.find id = some row ∨ id = job ∧ row = ⟨job, point, .queued⟩ := by
    intro id row hrow
    rcases Table.find_insert hrow with hold | ⟨-, hrownew⟩
    · exact Or.inl hold
    · subst hrownew
      exact Or.inr ⟨(Table.find_eq_some.mp hrow).2.symm, rfl⟩
  constructor
  · intro id id' row row' hrow hrow' hlive hlive' hpoint
    rcases hnew hrow with hold | ⟨rfl, rfl⟩ <;> rcases hnew hrow' with hold' | ⟨rfl, rfl⟩
    · exact h.exclusive hold hold' hlive hlive' hpoint
    · exact absurd (ended_of_not_busy hbusy hold hpoint) hlive
    · exact absurd (ended_of_not_busy hbusy hold' hpoint.symm) hlive'
    · rfl
  · intro token attempt hattempt
    obtain ⟨row, hrow, hpoint, hphase⟩ := h.owned hattempt
    exact ⟨row, Table.find_insert_of_some hrow, hpoint, hphase⟩
  · exact h.present
  · intro token attempt row hattempt hover hleased hrow htoken
    obtain ⟨jobRow, hjobRow, -⟩ := h.owned hattempt
    have hold : s.leased attempt.job = true := by
      obtain ⟨jobRow', hjobRow', hphase⟩ := leased_iff.mp hleased
      obtain rfl : jobRow = jobRow' :=
        Option.some.inj ((Table.find_insert_of_some hjobRow).symm.trans hjobRow')
      exact leased_iff.mpr ⟨jobRow, hjobRow, hphase⟩
    exact h.running hattempt hover hold hrow htoken

/-- A job that is claimed has no attempt yet. -/
theorem Leases.claimJob {id : ℕ} {job : CaptureJob} (h : Leases s)
    (hjob : s.jobs.find id = some job) (hphase : job.phase = .queued) :
    Leases { s with jobs := s.jobs.upsert { job with phase := .leased } } := by
  have hid : job.id = id := (Table.find_eq_some.mp hjob).2
  have hfind : ∀ k, (s.jobs.upsert { job with phase := .leased }).find k =
      if id = k then some { job with phase := .leased } else s.jobs.find k := by
    intro k
    rw [Table.find_upsert]
    simp [hid]
  have hother : ∀ {token attempt}, s.attempts.find token = some attempt → id ≠ attempt.job := by
    rintro token attempt hattempt rfl
    obtain ⟨row, hrow, -, hqueued⟩ := h.owned hattempt
    obtain rfl : row = job := Option.some.inj (hrow.symm.trans hjob)
    exact hqueued hphase
  have hback : ∀ {k row}, (s.jobs.upsert { job with phase := .leased }).find k = some row →
      row.phase ≠ .ended →
      ∃ row', s.jobs.find k = some row' ∧ row'.phase ≠ .ended ∧ row'.point = row.point := by
    intro k row hrow hlive
    rw [hfind] at hrow
    split at hrow
    next hk =>
      obtain rfl := Option.some.inj hrow
      exact ⟨job, hk ▸ hjob, by simp [hphase], rfl⟩
    · exact ⟨row, hrow, hlive, rfl⟩
  constructor
  · intro k k' row row' hrow hrow' hlive hlive' hpoint
    obtain ⟨row₁, hrow₁, hl₁, hp₁⟩ := hback hrow hlive
    obtain ⟨row₂, hrow₂, hl₂, hp₂⟩ := hback hrow' hlive'
    exact h.exclusive hrow₁ hrow₂ hl₁ hl₂ (by rw [hp₁, hp₂, hpoint])
  · intro token attempt hattempt
    obtain ⟨row, hrow, hrest⟩ := h.owned hattempt
    exact ⟨row, by rw [hfind, if_neg (hother hattempt)]; exact hrow, hrest⟩
  · exact h.present
  · intro token attempt point hattempt hover hleased hpoint htoken
    have hold : s.leased attempt.job = true := by
      rw [leased, hfind, if_neg (hother hattempt)] at hleased
      exact hleased
    exact h.running hattempt hover hold hpoint htoken

theorem Leases.claimDeletion {id : ℕ} {row : CapturePoint} (h : Leases s)
    (hrow : s.points.find id = some row) (hbusy : s.busy id = false) :
    Leases { s with points := s.points.upsert { row with deletionClaimed := true } } := by
  have hid : row.id = id := (Table.find_eq_some.mp hrow).2
  refine ⟨h.exclusive, h.owned, ?_, ?_⟩
  · intro token attempt hattempt
    obtain ⟨point, hpoint⟩ := h.present hattempt
    show ∃ point, (Table.upsert _ _).find attempt.point = some point
    rw [Table.find_upsert]
    split
    · exact ⟨_, rfl⟩
    · exact ⟨point, hpoint⟩
  · intro token attempt point hattempt hover hleased hpoint htoken
    have hne : id ≠ attempt.point := by
      rintro rfl
      obtain ⟨job, hjob, hphase⟩ := leased_iff.mp hleased
      obtain ⟨job', hjob', hjobpoint, -⟩ := h.owned hattempt
      obtain rfl : job' = job := Option.some.inj (hjob'.symm.trans hjob)
      rw [ended_of_not_busy hbusy hjob hjobpoint] at hphase
      cases hphase
    have hold : s.points.find attempt.point = some point := by
      have hpoint : (s.points.upsert { row with deletionClaimed := true }).find attempt.point =
        some point := hpoint
      rw [Table.find_upsert] at hpoint
      simpa [hid, hne] using hpoint
    exact h.running hattempt hover hleased hold htoken

theorem Leases.startCapture {token id : ℕ} {job : CaptureJob} (h : Leases s)
    (hfresh : s.attempts.find token = none) (hjob : s.jobs.find id = some job)
    (hphase : job.phase = .leased) : Leases (s.startCapture token job) := by
  unfold LedgerSystem.startCapture
  split
  · exact h
  next point hpoint =>
    split
    · exact h
    next hclaim =>
      have hpid : point.id = job.point := (Table.find_eq_some.mp hpoint).2
      have hjid : job.id = id := (Table.find_eq_some.mp hjob).2
      have hattempts : ∀ {token' attempt}, (s.attempts.insert
          ⟨token, job.id, point.id, point.backupTarget, .capturing, [], 0⟩).find token' =
            some attempt → s.attempts.find token' = some attempt ∨ attempt =
            ⟨token, job.id, point.id, point.backupTarget, .capturing, [], 0⟩ := by
        intro token' attempt hattempt
        rcases Table.find_insert hattempt with hold | ⟨-, hnew⟩
        · exact Or.inl hold
        · exact Or.inr hnew
      have hpoints : ∀ k, (s.points.upsert
          { point with status := .running, captureAttemptToken := some token }).find k =
          if job.point = k then
            some { point with status := .running, captureAttemptToken := some token }
          else s.points.find k := by
        intro k
        rw [Table.find_upsert]
        simp [hpid]
      refine ⟨h.exclusive, ?_, ?_, ?_⟩
      · intro token' attempt hattempt
        rcases hattempts hattempt with hold | rfl
        · exact h.owned hold
        · exact ⟨job, hjid ▸ hjob, hpid.symm, by simp [hphase]⟩
      · intro token' attempt hattempt
        show ∃ point', (Table.upsert _ _).find attempt.point = some point'
        rw [hpoints]
        split
        · exact ⟨_, rfl⟩
        next hne =>
          rcases hattempts hattempt with hold | rfl
          · exact h.present hold
          · exact absurd hpid.symm hne
      · intro token' attempt point' hattempt hover hleased hpoint' htoken
        have hpoint' : (Table.upsert _ _).find attempt.point = some point' := hpoint'
        rw [hpoints] at hpoint'
        rcases hattempts hattempt with hold | rfl
        · split at hpoint'
          · -- the point has a new token, which is not that of an older attempt
            obtain rfl := Option.some.inj hpoint'
            have htoken : token = attempt.token := Option.some.inj htoken
            rw [htoken, (Table.find_eq_some.mp hold).2, hold] at hfresh
            cases hfresh
          · exact h.running hold hover hleased hpoint' htoken
        · rw [if_pos hpid.symm] at hpoint'
          obtain rfl := Option.some.inj hpoint'
          exact ⟨rfl, by simpa using hclaim⟩

/-! ### The effects of an upload -/

/-- The artifact with its new locator. -/
def located (attempt : CaptureAttempt) (item : UploadItem) (artifact : CaptureArtifact) :
    CaptureArtifact :=
  { artifact with
      backupTarget := some attempt.target
      remoteObjectKey := some (attempt.object item).key
      remoteCaptureAttemptToken := some attempt.token
      remoteVerified := true }

theorem commitLocator_eq (h : s.commitLocator attempt item = some s') :
    ∃ artifact, s.artifacts.find item.artifact = some artifact ∧ s.attemptLock attempt = true ∧
      s' = { s.clearIntent attempt item with
        artifacts := s.artifacts.upsert (located attempt item artifact) } := by
  unfold commitLocator at h
  split at h
  · cases h
  next artifact hartifact =>
    split at h
    next hguard =>
      simp only [Bool.and_eq_true] at hguard
      exact ⟨artifact, hartifact, hguard.1.1, (Option.some.inj h).symm⟩
    · cases h

theorem markFailed_eq {orphaned : Bool} (h : s.markFailed attempt item orphaned = some s') :
    ∃ artifact target, s.artifacts.find item.artifact = some artifact ∧
      s' =
        { s with
            artifacts := s.artifacts.upsert
              { artifact with backupTarget := target, remoteVerified := false } } := by
  unfold markFailed at h
  split at h
  · cases h
  next artifact hartifact =>
    split at h
    · exact ⟨artifact, _, hartifact, (Option.some.inj h).symm⟩
    · cases h

theorem markAllFailed_eq (h : s.markAllFailed attempt = some s') :
    ∃ p : CaptureArtifact → Bool, (∀ artifact, p artifact = true → artifact.point = attempt.point) ∧
      s' =
        { s with
            artifacts := s.artifacts.update p
              (fun artifact => { artifact with remoteVerified := false }) fun _ => rfl } := by
  unfold markAllFailed at h
  simp only at h
  split at h
  · refine ⟨_, ?_, (Option.some.inj h).symm⟩
    intro artifact hartifact
    simp only [Bool.and_eq_true, decide_eq_true_eq] at hartifact
    exact hartifact.1.1
  · cases h

/-- What no statement of an upload changes. -/
structure SameProcesses (s s' : LedgerSystem) : Prop where
  jobs : s'.jobs = s.jobs
  attempts : s'.attempts = s.attempts
  runs : s'.runs = s.runs
  reclaimed : s'.reclaimed = s.reclaimed

theorem UploadEffect.same (h : UploadEffect s attempt next s') : SameProcesses s s' := by
  cases h with
  | commit _ hcommit =>
    obtain ⟨-, -, -, rfl⟩ := commitLocator_eq hcommit
    exact ⟨rfl, rfl, rfl, rfl⟩
  | mark _ hmark =>
    obtain ⟨-, -, -, rfl⟩ := markFailed_eq hmark
    exact ⟨rfl, rfl, rfl, rfl⟩
  | markAll _ hmark =>
    obtain ⟨-, -, rfl⟩ := markAllFailed_eq hmark
    exact ⟨rfl, rfl, rfl, rfl⟩
  | _ => exact ⟨rfl, rfl, rfl, rfl⟩

/-- An upload changes the status of its point only when it is over. -/
theorem UploadEffect.points (h : UploadEffect s attempt next s') : s'.points = s.points ∨
    isOver next = true ∧ ∃ status, s'.points = s.points.update
      (fun row => row.id = attempt.point && decide (row.captureAttemptToken = some attempt.token))
      (fun row => { row with status := status }) fun _ => rfl := by
  cases h with
  | commit _ hcommit =>
    obtain ⟨-, -, -, rfl⟩ := commitLocator_eq hcommit
    exact Or.inl rfl
  | mark _ hmark =>
    obtain ⟨-, -, -, rfl⟩ := markFailed_eq hmark
    exact Or.inl rfl
  | markAll _ hmark =>
    obtain ⟨-, -, rfl⟩ := markAllFailed_eq hmark
    exact Or.inl rfl
  | status hnext => exact Or.inr ⟨hnext, _, rfl⟩
  | _ => exact Or.inl rfl

theorem find_upsert_attempt {token token' : ℕ} {found : CaptureAttempt}
    (hattempt : s.attempts.find token = some attempt) (htoken : next.token = attempt.token)
    (h : (s.attempts.upsert next).find token' = some found) :
    token' = token ∧ found = next ∨ token' ≠ token ∧ s.attempts.find token' = some found := by
  have hid : next.token = token := htoken.trans (Table.find_eq_some.mp hattempt).2
  rw [Table.find_upsert, hid] at h
  split at h
  next heq => exact Or.inl ⟨heq.symm, (Option.some.inj h).symm⟩
  next hne => exact Or.inr ⟨Ne.symm hne, h⟩

theorem Leases.upload {token : ℕ} {s₁ : LedgerSystem} (h : Leases s)
    (hattempt : s.attempts.find token = some attempt) (hmoves : Moves attempt next)
    (heffect : UploadEffect s attempt next s₁) :
    Leases { s₁ with attempts := s₁.attempts.upsert next } := by
  obtain ⟨hjobs, hattempts, -, -⟩ := heffect.same
  have hold : ∀ {token' found}, (s₁.attempts.upsert next).find token' = some found →
      ∃ old, s.attempts.find token' = some old ∧ Advances old found := by
    intro token' found hfound
    rw [hattempts] at hfound
    rcases find_upsert_attempt hattempt hmoves.token hfound with ⟨rfl, rfl⟩ | ⟨-, hsame⟩
    · exact ⟨attempt, hattempt, hmoves.advances⟩
    · exact ⟨found, hsame, .refl found⟩
  have hpresent : ∀ {k point}, s.points.find k = some point →
      ∃ point', s₁.points.find k = some point' := by
    intro k point hpoint
    rcases heffect.points with hsame | ⟨-, status, hset⟩
    · exact ⟨point, hsame ▸ hpoint⟩
    · rw [hset]
      exact Option.ne_none_iff_exists'.mp (Table.find_update_ne_none hpoint)
  constructor
  · rw [hjobs]
    exact h.exclusive
  · intro token' found hfound
    obtain ⟨old, hold, hadv⟩ := hold hfound
    obtain ⟨job, hjob, hpoint, hphase⟩ := h.owned hold
    refine ⟨job, ?_, by rw [hadv.point, hpoint], hphase⟩
    rw [hjobs, hadv.job]
    exact hjob
  · intro token' found hfound
    obtain ⟨old, hold, hadv⟩ := hold hfound
    obtain ⟨point, hpoint⟩ := h.present hold
    rw [hadv.point]
    exact hpresent hpoint
  · intro token' found point hfound hover hleased hpoint htoken
    rw [hattempts] at hfound
    have hleased : s.leased found.job = true := by simpa [leased, hjobs] using hleased
    have hunder : ∀ {old : CaptureAttempt}, s.attempts.find token' = some old →
        LedgerSystem.isOver old = false → Advances old found →
        s.points.find found.point = some point →
        point.status = .running ∧ point.deletionClaimed = false := by
      intro old hold holdover hadv hpoint
      rw [hadv.point] at hpoint
      exact h.running hold holdover (hadv.job ▸ hleased) hpoint (hadv.token ▸ htoken)
    rcases heffect.points with hsame | ⟨hnextover, status, hset⟩
    · have hkept : s.points.find found.point = some point := hsame ▸ hpoint
      rcases find_upsert_attempt hattempt hmoves.token hfound with ⟨rfl, rfl⟩ | ⟨-, hsame'⟩
      · refine hunder hattempt ?_ hmoves.advances hkept
        rw [Bool.eq_false_iff]
        intro hold
        rw [hmoves.isOver hold] at hover
        cases hover
      · exact hunder hsame' hover (.refl found) hkept
    · rcases find_upsert_attempt hattempt hmoves.token hfound with ⟨rfl, rfl⟩ | ⟨hne, hsame'⟩
      · rw [hnextover] at hover
        cases hover
      · -- the status is set only where the token is that of the other attempt
        have hpoint : s₁.points.find found.point = some point := hpoint
        rw [hset, Table.find_update, Option.map_eq_some_iff] at hpoint
        obtain ⟨point', hpoint', hif⟩ := hpoint
        split at hif
        next hcond =>
          simp only [Bool.and_eq_true, decide_eq_true_eq] at hcond
          subst hif
          have htok : attempt.token = found.token :=
            Option.some.inj (hcond.2.symm.trans htoken)
          rw [(Table.find_eq_some.mp hattempt).2, (Table.find_eq_some.mp hsame').2] at htok
          exact absurd htok.symm hne
        · subst hif
          exact h.running hsame' hover hleased hpoint' htoken

/-- A statement of an attempt, whichever it is. -/
theorem withAttempt_rule {P : LedgerSystem → Prop} {token : ℕ} {f : CaptureAttempt → LedgerSystem}
    (hs : P s) (h : ∀ attempt, s.attempts.find token = some attempt → P (f attempt)) :
    P (s.withAttempt token f) := by
  unfold withAttempt
  split
  · exact hs
  next attempt hattempt => exact h attempt hattempt

/-- A step of a job, whichever it is. -/
theorem withJob_rule {P : LedgerSystem → Prop} {id : ℕ} {phase : LeasePhase}
    {f : CaptureJob → LedgerSystem} (hs : P s)
    (h : ∀ job, s.jobs.find id = some job → job.phase = phase → P (f job)) :
    P (s.withJob id phase f) := by
  unfold withJob
  split
  · exact hs
  next job hjob =>
    split
    next hphase => exact h job hjob hphase
    · exact hs

theorem captureThrows_moves (h : attempt.stage = .capturing) :
    Moves attempt { attempt with stage := .failing } := by
  constructor <;> simp [isOver, h]

theorem captureThrows_effect (h : attempt.stage = .capturing) :
    UploadEffect s attempt { attempt with stage := .failing } s :=
  .none (by simp [pending, stageItem, h]) (by simp) (by simp)

theorem find_failLinked (s : LedgerSystem) (point k : ℕ) :
    (s.failLinked point).points.find k = (s.points.find k).map fun row =>
      if row.id = point && row.status.unfinished then { row with status := .failed } else row := by
  simp only [failLinked, setStatus]
  rw [Table.find_update]

theorem find_failLinked_cases (s : LedgerSystem) (point k : ℕ) :
    (s.failLinked point).points.find k = s.points.find k ∨ k = point ∧
      ((s.failLinked point).points.find k).isSome = (s.points.find k).isSome := by
  rw [find_failLinked]
  by_cases hk : k = point
  · exact Or.inr ⟨hk, by simp⟩
  · left
    cases hpoint : s.points.find k with
    | none => rfl
    | some row =>
      have hid : row.id ≠ point := fun h => hk ((Table.find_eq_some.mp hpoint).2.symm.trans h)
      simp [hid]

theorem Leases.fail {id : ℕ} {job : CaptureJob} (h : Leases s) (hjob : s.jobs.find id = some job)
    (hphase : job.phase ≠ .ended) : Leases ((s.endJob job).failLinked job.point) :=
  h.withdraw hjob hphase (Or.inr rfl) rfl rfl
    (find_failLinked_cases (s.endJob job) job.point)

/-- What no statement of a reconciler changes. -/
theorem advanceRun_same (s : LedgerSystem) (run : ReconcileRun) (reply : Reply) :
    (s.advanceRun run reply).points = s.points ∧
      (s.advanceRun run reply).artifacts = s.artifacts ∧
      (s.advanceRun run reply).jobs = s.jobs ∧
      (s.advanceRun run reply).attempts = s.attempts := by
  unfold advanceRun
  split
  · split
    · exact ⟨rfl, rfl, rfl, rfl⟩
    · split <;> exact ⟨rfl, rfl, rfl, rfl⟩
  · cases reply <;> exact ⟨rfl, rfl, rfl, rfl⟩
  · cases reply <;> exact ⟨rfl, rfl, rfl, rfl⟩
  · cases reply <;> exact ⟨rfl, rfl, rfl, rfl⟩
  · cases reply <;> exact ⟨rfl, rfl, rfl, rfl⟩
  · cases reply <;> exact ⟨rfl, rfl, rfl, rfl⟩

theorem leases_step (op : LedgerOp) (h : Leases s) : Leases (s.step op) := by
  cases op with
  | createPoint point backupTarget => exact h.createPoint _
  | planArtifact point artifact source =>
    simp only [step]
    split
    · exact h
    · exact h.congr rfl rfl rfl
  | enqueueCapture job point =>
    simp only [step]
    split
    · exact h
    · split
      · exact h
      next hguard =>
        simp only [Bool.or_eq_true, not_or, Bool.not_eq_true] at hguard
        exact h.enqueue hguard.2
  | claimJob id =>
    exact withJob_rule (P := Leases) h fun job hjob hphase => h.claimJob hjob hphase
  | expireLease id =>
    refine withJob_rule (P := Leases) h fun job hjob hphase => ?_
    exact h.withdraw hjob (by simp [hphase]) (Or.inl rfl) rfl rfl fun k => Or.inl rfl
  | recoverExpiredJob id =>
    exact withJob_rule (P := Leases) h fun job hjob hphase => h.fail hjob (by simp [hphase])
  | failJob id =>
    exact withJob_rule (P := Leases) h fun job hjob hphase => h.fail hjob (by simp [hphase])
  | completeJob id =>
    refine withJob_rule (P := Leases) h fun job hjob hphase => ?_
    exact h.withdraw hjob (by simp [hphase]) (Or.inr rfl) rfl rfl fun k => Or.inl rfl
  | cancelQueuedJob id =>
    exact withJob_rule (P := Leases) h fun job hjob hphase => h.fail hjob (by simp [hphase])
  | claimDeletion point =>
    simp only [step]
    split
    · exact h
    next row hrow =>
      split
      · exact h
      next hguard =>
        simp only [Bool.or_eq_true, not_or, Bool.not_eq_true] at hguard
        exact h.claimDeletion hrow hguard.2
  | startCapture token id =>
    simp only [step]
    split
    · exact h
    next hfresh =>
      exact withJob_rule (P := Leases) h fun job hjob hphase =>
        h.startCapture hfresh hjob hphase
  | insertArtifact token artifact source =>
    refine withAttempt_rule (P := Leases) h fun attempt _ => ?_
    split
    · exact h.congr rfl rfl rfl
    · exact h
  | setArtifactStatus token artifact status =>
    refine withAttempt_rule (P := Leases) h fun attempt _ => ?_
    split
    · exact h.congr rfl rfl rfl
    · exact h
  | captureThrows token =>
    refine withAttempt_rule (P := Leases) h fun attempt hattempt => ?_
    split
    next hstage => exact h.upload hattempt (captureThrows_moves hstage) (captureThrows_effect hstage)
    · exact h
  | upload token reply =>
    refine withAttempt_rule (P := Leases) h fun attempt hattempt => ?_
    rcases advanceUpload_cases s attempt reply with hsame | ⟨next, s₁, hmoves, heffect, hstep⟩
    · rw [hsame]
      exact h
    · rw [hstep]
      exact h.upload hattempt hmoves heffect
  | claimOrphans claimToken chosen =>
    simp only [step]
    split
    · exact h
    · exact h.congr rfl rfl rfl
  | reconcile claimToken reply =>
    simp only [step]
    split
    · exact h
    next run _ =>
      obtain ⟨hpoints, -, hjobs, hattempts⟩ := advanceRun_same s run reply
      exact h.congr hjobs hpoints hattempts
  | tick => exact h.congr rfl rfl rfl

/-! ### A lock that is lost stays lost -/

theorem attemptLock_iff : s.attemptLock attempt = true ↔ s.leased attempt.job = true ∧
    ∃ point, s.points.find attempt.point = some point ∧
      point.captureAttemptToken = some attempt.token ∧ point.deletionClaimed = false := by
  simp [attemptLock, Option.any_eq_true]

/-- The lock of an attempt is not gained when its job gets no lease and its point loses no claim
    and does not get its token. -/
theorem attemptLock_of_later (h : s'.attemptLock attempt = true)
    (hleased : s'.leased attempt.job = true → s.leased attempt.job = true)
    (hpoints : ∀ point', s'.points.find attempt.point = some point' →
      point'.captureAttemptToken = some attempt.token → point'.deletionClaimed = false →
      ∃ point, s.points.find attempt.point = some point ∧
        point.captureAttemptToken = some attempt.token ∧ point.deletionClaimed = false) :
    s.attemptLock attempt = true := by
  obtain ⟨hjob, point', hpoint', htoken, hclaim⟩ := attemptLock_iff.mp h
  exact attemptLock_iff.mpr ⟨hleased hjob, hpoints point' hpoint' htoken hclaim⟩

/-- A job that gets no lease. -/
theorem leased_upsert {job : ℕ} {row : CaptureJob} {phase : LeasePhase}
    (hphase : phase ≠ .leased)
    (hjobs : s'.jobs = s.jobs.upsert { row with phase := phase }) (h : s'.leased job = true) :
    s.leased job = true := by
  obtain ⟨row', hrow', hleased⟩ := leased_iff.mp h
  rw [hjobs, Table.find_upsert] at hrow'
  split at hrow'
  · obtain rfl := Option.some.inj hrow'
    exact absurd hleased hphase
  · exact leased_iff.mpr ⟨row', hrow', hleased⟩

theorem attemptLock_fail {job : CaptureJob}
    (h : ((s.endJob job).failLinked job.point).attemptLock attempt = true) :
    s.attemptLock attempt = true := by
  refine attemptLock_of_later h (leased_upsert (by simp) rfl) ?_
  intro point' hpoint' htoken hclaim
  rw [find_failLinked, Option.map_eq_some_iff] at hpoint'
  obtain ⟨point, hpoint, rfl⟩ := hpoint'
  refine ⟨point, hpoint, ?_⟩
  split at htoken <;> split at hclaim <;> exact ⟨htoken, hclaim⟩

theorem attemptLock_congr (hjobs : s'.jobs = s.jobs) (hpoints : s'.points = s.points) :
    s'.attemptLock attempt = s.attemptLock attempt := by
  simp [attemptLock, leased, hjobs, hpoints]

theorem attemptLock_claimJob {token id : ℕ} {job : CaptureJob} (hs : Leases s)
    (hattempt : s.attempts.find token = some attempt) (hjob : s.jobs.find id = some job)
    (hphase : job.phase = .queued)
    (h : attemptLock { s with jobs := s.jobs.upsert { job with phase := .leased } } attempt =
      true) : s.attemptLock attempt = true := by
  refine attemptLock_of_later h ?_ fun point hpoint htoken hclaim => ⟨point, hpoint, htoken, hclaim⟩
  intro hleased
  obtain ⟨row, hrow, -, hqueued⟩ := hs.owned hattempt
  have hne : job.id ≠ attempt.job := by
    rw [(Table.find_eq_some.mp hjob).2]
    rintro rfl
    obtain rfl : row = job := Option.some.inj (hrow.symm.trans hjob)
    exact hqueued hphase
  rw [leased, Table.find_upsert, if_neg hne] at hleased
  exact hleased

theorem attemptLock_startCapture {token token' : ℕ} {job : CaptureJob}
    (hattempt : s.attempts.find token' = some attempt) (hfresh : s.attempts.find token = none)
    (h : (s.startCapture token job).attemptLock attempt = true) :
    s.attemptLock attempt = true := by
  unfold startCapture at h
  split at h
  · exact h
  next point hpoint =>
    split at h
    · exact h
    · refine attemptLock_of_later h id ?_
      intro point' hpoint' htoken hclaim
      rw [Table.find_upsert] at hpoint'
      split at hpoint'
      · obtain rfl := Option.some.inj hpoint'
        have htoken : token = attempt.token := Option.some.inj htoken
        rw [htoken, (Table.find_eq_some.mp hattempt).2, hattempt] at hfresh
        cases hfresh
      · exact ⟨point', hpoint', htoken, hclaim⟩

theorem attemptLock_effect {s₁ : LedgerSystem} {other : CaptureAttempt}
    (heffect : UploadEffect s attempt next s₁)
    (h : attemptLock { s₁ with attempts := s₁.attempts.upsert next } other = true) :
    s.attemptLock other = true := by
  refine attemptLock_of_later h ?_ ?_
  · intro hleased
    simpa [leased, heffect.same.jobs] using hleased
  · intro point' hpoint' htoken hclaim
    rcases heffect.points with hsame | ⟨-, status, hset⟩
    · exact ⟨point', hsame ▸ hpoint', htoken, hclaim⟩
    · have hpoint' : s₁.points.find other.point = some point' := hpoint'
      rw [hset, Table.find_update, Option.map_eq_some_iff] at hpoint'
      obtain ⟨point, hpoint, rfl⟩ := hpoint'
      refine ⟨point, hpoint, ?_⟩
      split at htoken <;> split at hclaim <;> exact ⟨htoken, hclaim⟩

/-- No step gives an attempt its lock back. -/
theorem attemptLock_step (op : LedgerOp) {token : ℕ} (hs : Leases s)
    (hattempt : s.attempts.find token = some attempt) :
    (s.step op).attemptLock attempt = true → s.attemptLock attempt = true := by
  cases op with
  | createPoint point backupTarget =>
    intro h
    refine attemptLock_of_later h id ?_
    intro point' hpoint' htoken hclaim
    obtain ⟨point₀, hpoint₀⟩ := hs.present hattempt
    obtain rfl : point₀ = point' :=
      Option.some.inj ((Table.find_insert_of_some hpoint₀).symm.trans hpoint')
    exact ⟨point₀, hpoint₀, htoken, hclaim⟩
  | planArtifact point artifact source =>
    simp only [step]
    split
    · exact id
    · exact id
  | enqueueCapture job point =>
    simp only [step]
    split
    · exact id
    · split
      · exact id
      · intro h
        refine attemptLock_of_later h ?_ fun point hpoint htoken hclaim =>
          ⟨point, hpoint, htoken, hclaim⟩
        intro hleased
        obtain ⟨row, hrow, -⟩ := hs.owned hattempt
        rw [leased, Table.find_insert_of_some hrow] at hleased
        rw [leased, hrow]
        exact hleased
  | claimJob id =>
    refine withJob_rule (P := fun s' => s'.attemptLock attempt = true → _) (fun h => h) ?_
    exact fun job hjob hphase => attemptLock_claimJob hs hattempt hjob hphase
  | expireLease id =>
    refine withJob_rule (P := fun s' => s'.attemptLock attempt = true → _) (fun h => h) ?_
    intro job hjob hphase h
    exact attemptLock_of_later h (leased_upsert (by simp) rfl) fun point hpoint htoken hclaim =>
      ⟨point, hpoint, htoken, hclaim⟩
  | recoverExpiredJob id =>
    refine withJob_rule (P := fun s' => s'.attemptLock attempt = true → _) (fun h => h) ?_
    exact fun job hjob hphase => attemptLock_fail
  | failJob id =>
    refine withJob_rule (P := fun s' => s'.attemptLock attempt = true → _) (fun h => h) ?_
    exact fun job hjob hphase => attemptLock_fail
  | completeJob id =>
    refine withJob_rule (P := fun s' => s'.attemptLock attempt = true → _) (fun h => h) ?_
    intro job hjob hphase h
    exact attemptLock_of_later h (leased_upsert (by simp) rfl) fun point hpoint htoken hclaim =>
      ⟨point, hpoint, htoken, hclaim⟩
  | cancelQueuedJob id =>
    refine withJob_rule (P := fun s' => s'.attemptLock attempt = true → _) (fun h => h) ?_
    exact fun job hjob hphase => attemptLock_fail
  | claimDeletion id =>
    simp only [step]
    split
    · exact fun h => h
    next row hrow =>
      split
      · exact fun h => h
      · intro h
        refine attemptLock_of_later h (fun h => h) ?_
        intro point' hpoint' htoken hclaim
        rw [Table.find_upsert] at hpoint'
        split at hpoint'
        · obtain rfl := Option.some.inj hpoint'
          cases hclaim
        · exact ⟨point', hpoint', htoken, hclaim⟩
  | startCapture token' id =>
    simp only [step]
    split
    · exact fun h => h
    next hfresh =>
      refine withJob_rule (P := fun s' => s'.attemptLock attempt = true → _) (fun h => h) ?_
      exact fun job _ _ => attemptLock_startCapture hattempt hfresh
  | insertArtifact token' artifact source =>
    refine withAttempt_rule (P := fun s' => s'.attemptLock attempt = true → _) (fun h => h) ?_
    intro other _
    split <;> exact fun h => h
  | setArtifactStatus token' artifact status =>
    refine withAttempt_rule (P := fun s' => s'.attemptLock attempt = true → _) (fun h => h) ?_
    intro other _
    split <;> exact fun h => h
  | captureThrows token' =>
    refine withAttempt_rule (P := fun s' => s'.attemptLock attempt = true → _) (fun h => h) ?_
    intro other _
    split <;> exact fun h => h
  | upload token' reply =>
    refine withAttempt_rule (P := fun s' => s'.attemptLock attempt = true → _) (fun h => h) ?_
    intro other _
    rcases advanceUpload_cases s other reply with hsame | ⟨next, s₁, -, heffect, hstep⟩
    · rw [hsame]
      exact fun h => h
    · rw [hstep]
      exact attemptLock_effect heffect
  | claimOrphans claimToken chosen =>
    simp only [step]
    split <;> exact fun h => h
  | reconcile claimToken reply =>
    simp only [step]
    split
    · exact fun h => h
    next run _ =>
      obtain ⟨hpoints, -, hjobs, -⟩ := advanceRun_same s run reply
      rw [attemptLock_congr hjobs hpoints]
      exact fun h => h
  | tick => exact fun h => h

end LedgerSystem

end ComposeBastion
