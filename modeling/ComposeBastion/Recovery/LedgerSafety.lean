import ComposeBastion.Recovery.LedgerSteps

namespace ComposeBastion

open Runs

/-!
# What the ledger protects

The object that an artifact names as its verified locator is not deleted by the reconciler, and an
object that is not such a locator has a ledger row.  Both fail when two artifacts of a point share a
storage key, when a later attempt replaces a locator, and when an object is stored after the
reconciler has removed its intent.

* `LedgerSystem.Safe`, `ledgerCondition` — what is claimed, and when it holds;
* `LedgerSystem.Sound` — the invariant;
* `remote_ledger_safe` — every run whose steps meet `ledgerCondition` is safe.
-/

/-! ### The claim and its condition -/

namespace LedgerSystem

/-- No verified locator has been deleted by a reconciler, and the objects that are no locator have
    a ledger row. -/
structure Safe (s : LedgerSystem) : Prop where
  kept : ∀ object ∈ s.reclaimed, s.locator object = false
  tracked : ∀ object ∈ s.objects, s.locator object = true ∨ (s.ledger.find object).isSome = true

/-- An artifact of the point has this storage key. -/
def storageKeyUsed (s : LedgerSystem) (point : ℕ) (source : ArtifactSource) : Bool :=
  s.artifacts.rows.any fun artifact =>
    artifact.point = point && artifact.storageKey = artifactRelativePath source

/-- The artifact has a verified locator. -/
def verified (s : LedgerSystem) (artifact : ℕ) : Bool :=
  (s.artifacts.find artifact).any (·.remoteVerified)

/-- The attempt is between the intent for the artifact and the end of its upload. -/
def storing (s : LedgerSystem) (token artifact : ℕ) : Bool :=
  (s.attempts.find token).any fun attempt =>
    match attempt.stage with
    | .intended item | .putting item => item.artifact = artifact
    | _ => false

/-- The statement of the upload takes no verified locator from an artifact. -/
def keepsLocators (s : LedgerSystem) (attempt : CaptureAttempt) : Bool :=
  match attempt.stage with
  | .committing item | .marking item _ | .evidence item => !s.verified item.artifact
  | .threw => s.artifacts.rows.all fun artifact =>
      artifact.point ≠ attempt.point || !artifact.remoteVerified
  | _ => true

end LedgerSystem

/-- No two artifacts of a point get the same storage key, no statement replaces or withdraws a
    verified locator, and no reconciler deletes the object of an upload that is still to store
    it. -/
def ledgerCondition (s : LedgerSystem) : LedgerOp → Bool
  | .planArtifact point _ source => !s.storageKeyUsed point source
  | .insertArtifact token _ source =>
    (s.attempts.find token).all fun attempt => !s.storageKeyUsed attempt.point source
  | .upload token _ => (s.attempts.find token).all s.keepsLocators
  | .reconcile claimToken _ =>
    (s.runs.find claimToken).all fun run =>
      match run.stage with
      | .decided row .abandoned => !s.storing row.attempt row.owner
      | _ => true
  | _ => true

namespace LedgerSystem

variable {s s' : LedgerSystem} {attempt next : CaptureAttempt} {item : UploadItem}
variable {object : RemoteObject} {row : LedgerRow} {reply : Reply}

/-! ### The invariant -/

/-- What holds of an attempt: its artifacts are distinct rows of its point, an upload that is to
    store its object has a ledger row, and one that clears its intent has no object. -/
structure AttemptSound (s : LedgerSystem) (attempt : CaptureAttempt) : Prop where
  nodup : ((pending attempt).map (·.artifact)).Nodup
  items : ∀ item ∈ pending attempt, ∃ artifact, s.artifacts.find item.artifact = some artifact ∧
    artifact.point = attempt.point ∧ artifact.storageKey = item.storageKey
  window : ∀ item, attempt.stage = .intended item ∨ attempt.stage = .putting item →
    (s.ledger.find (attempt.object item)).isSome = true
  cleared : ∀ item, attempt.stage = .clearing item → attempt.object item ∉ s.objects

/-- What holds of the row that a run is at. -/
def StageSound (s : LedgerSystem) : ReconcileStage → Prop
  | .next => True
  | .decided row disposition => RowSound s row ∧
      (disposition = .committed → s.locator row.object = true) ∧
      (disposition = .abandoned → Lost s row.object)
  | .removing row => RowSound s row ∧ RowPast s row ∧ row.object ∉ s.objects
  | .failing _ => True

def RunSound (s : LedgerSystem) (run : ReconcileRun) : Prop :=
  (∀ row ∈ run.todo, RowSound s row) ∧ StageSound s run.stage

/-- The artifact names the object of an attempt that is past it. -/
def LocatorSound (s : LedgerSystem) (artifact : CaptureArtifact) : Prop :=
  ∃ token attempt, s.attempts.find token = some attempt ∧ artifact.point = attempt.point ∧
    artifact.backupTarget = some attempt.target ∧
    artifact.remoteObjectKey = some ⟨attempt.point, token, artifact.storageKey⟩ ∧
    artifact.remoteCaptureAttemptToken = some token ∧ Past attempt artifact.id

/-- The artifacts of a point have different storage keys. -/
def DistinctKeys (s : LedgerSystem) : Prop :=
  ∀ ⦃id id' artifact artifact'⦄, s.artifacts.find id = some artifact →
    s.artifacts.find id' = some artifact' → artifact.point = artifact'.point →
    artifact.storageKey = artifact'.storageKey → id = id'

/-- The invariant of the runs that meet the condition. -/
structure Sound (s : LedgerSystem) : Prop where
  leases : Leases s
  names : DistinctKeys s
  attempts : ∀ {token attempt}, s.attempts.find token = some attempt → AttemptSound s attempt
  locators : ∀ {id artifact}, s.artifacts.find id = some artifact →
    artifact.remoteVerified = true → LocatorSound s artifact
  ledger : ∀ {object row}, s.ledger.find object = some row → RowSound s row
  runs : ∀ {token run}, s.runs.find token = some run → RunSound s run
  reclaimed : ∀ object ∈ s.reclaimed, Lost s object
  tracked : ∀ object ∈ s.objects, s.locator object = true ∨ (s.ledger.find object).isSome = true

theorem sound_initial : Sound initial where
  leases := leases_initial
  names _ _ _ _ h := by cases h
  attempts h := by cases h
  locators h := by cases h
  ledger h := by cases h
  runs h := by cases h
  reclaimed object h := by cases h
  tracked object h := by cases h

theorem Sound.safe (h : Sound s) : Safe s := ⟨fun object hobject => (h.reclaimed object hobject).1, h.tracked⟩

theorem StageSound.later {stage : ReconcileStage} (h : StageSound s stage) (hlater : Later s s')
    (hremoving : ∀ {row}, stage = .removing row → row.object ∉ s'.objects) :
    StageSound s' stage := by
  cases stage with
  | next => trivial
  | decided row disposition =>
    obtain ⟨hrow, hcommitted, habandoned⟩ := h
    exact ⟨hrow.later hlater, fun hd => hlater.locators (hcommitted hd),
      fun hd => (habandoned hd).later hlater⟩
  | removing row =>
    obtain ⟨hrow, hpast, -⟩ := h
    exact ⟨hrow.later hlater, hpast.later hlater, hremoving rfl⟩
  | failing row => trivial

theorem LocatorSound.later {artifact artifact' : CaptureArtifact} (h : LocatorSound s artifact)
    (hlater : Later s s') (hid : artifact'.id = artifact.id)
    (hpoint : artifact'.point = artifact.point)
    (hkey : artifact'.storageKey = artifact.storageKey)
    (htarget : artifact'.backupTarget = artifact.backupTarget)
    (hobject : artifact'.remoteObjectKey = artifact.remoteObjectKey)
    (htoken : artifact'.remoteCaptureAttemptToken = artifact.remoteCaptureAttemptToken) :
    LocatorSound s' artifact' := by
  obtain ⟨token, attempt, hattempt, h₁, h₂, h₃, h₄, hpast⟩ := h
  obtain ⟨next, hnext, hadv⟩ := hlater.attempts hattempt
  refine ⟨token, next, hnext, ?_, ?_, ?_, by rw [htoken, h₄], hid ▸ hadv.past hpast⟩
  · rw [hpoint, h₁, hadv.point]
  · rw [htarget, h₂, hadv.target]
  · rw [hobject, h₃, hadv.point, hkey]

/-! ### Whose row it is -/

/-- The row of the object of an upload is that of its artifact. -/
theorem RowSound.owner {token : ℕ} {artifact : CaptureArtifact} (h : RowSound s row)
    (hs : Sound s) (hattempt : s.attempts.find token = some attempt)
    (hartifact : s.artifacts.find item.artifact = some artifact)
    (hpoint : artifact.point = attempt.point) (hkey : artifact.storageKey = item.storageKey)
    (hobject : row.object = attempt.object item) :
    row.attempt = token ∧ row.owner = item.artifact := by
  obtain ⟨attempt', artifact', hattempt', hartifact', hpoint', hobject', -⟩ := h
  have heq : attempt'.object ⟨row.owner, artifact'.storageKey⟩ = attempt.object item :=
    hobject'.symm.trans hobject
  simp only [CaptureAttempt.object, RemoteObject.mk.injEq, ObjectKey.mk.injEq] at heq
  obtain ⟨-, hpt, htok, hsk⟩ := heq
  rw [(Table.find_eq_some.mp hattempt').2, (Table.find_eq_some.mp hattempt).2] at htok
  refine ⟨htok, hs.names hartifact' hartifact ?_ (hsk.trans hkey.symm)⟩
  rw [hpoint', hpt, hpoint]

/-- A locator is the object of its artifact, which its attempt is past. -/
theorem RowSound.past_of_locator (h : RowSound s row) (hs : Sound s)
    (hlocator : s.locator row.object = true) : RowPast s row := by
  obtain ⟨artifact', hmem, hverified, -, hkey⟩ := locator_iff.mp hlocator
  have hartifact' : s.artifacts.find artifact'.id = some artifact' :=
    Table.find_eq_some.mpr ⟨hmem, rfl⟩
  obtain ⟨token', attempt', hattempt', hpoint', -, hkey', -, hpast⟩ :=
    hs.locators hartifact' hverified
  obtain ⟨attempt, artifact, hattempt, hartifact, hpoint, hobject, -⟩ := h
  rw [hkey', hobject, Option.some.injEq] at hkey
  simp only [CaptureAttempt.object, ObjectKey.mk.injEq] at hkey
  obtain ⟨hpt, htok, hsk⟩ := hkey
  rw [(Table.find_eq_some.mp hattempt).2] at htok
  have hid : artifact'.id = row.owner := by
    refine hs.names hartifact' hartifact ?_ hsk
    rw [hpoint', hpt, hpoint]
  exact ⟨attempt', htok ▸ hattempt', hid ▸ hpast⟩

/-! ### Steps that leave the ledger and the locators alone -/

/-- An artifact with a new status. -/
structure SameArtifact (artifact artifact' : CaptureArtifact) : Prop where
  id : artifact'.id = artifact.id
  point : artifact'.point = artifact.point
  storageKey : artifact'.storageKey = artifact.storageKey
  backupTarget : artifact'.backupTarget = artifact.backupTarget
  remoteObjectKey : artifact'.remoteObjectKey = artifact.remoteObjectKey
  remoteCaptureAttemptToken :
    artifact'.remoteCaptureAttemptToken = artifact.remoteCaptureAttemptToken
  remoteVerified : artifact'.remoteVerified = artifact.remoteVerified

theorem SameArtifact.refl (artifact : CaptureArtifact) : SameArtifact artifact artifact :=
  ⟨rfl, rfl, rfl, rfl, rfl, rfl, rfl⟩

/-- The step changes jobs, points, attempts and the status of artifacts, and adds artifacts without
    a locator. -/
structure Quiet (s s' : LedgerSystem) : Prop where
  ledger : s'.ledger = s.ledger
  objects : s'.objects = s.objects
  runs : s'.runs = s.runs
  reclaimed : s'.reclaimed = s.reclaimed
  attempts : ∀ {token attempt}, s.attempts.find token = some attempt →
    s'.attempts.find token = some attempt
  started : ∀ {token attempt}, s'.attempts.find token = some attempt →
    s.attempts.find token = some attempt ∨ attempt.stage = .capturing ∧ attempt.todo = []
  artifacts : ∀ {id artifact}, s.artifacts.find id = some artifact →
    ∃ artifact', s'.artifacts.find id = some artifact' ∧ SameArtifact artifact artifact'
  inserted : ∀ {id artifact'}, s'.artifacts.find id = some artifact' →
    (∃ artifact, s.artifacts.find id = some artifact ∧ SameArtifact artifact artifact') ∨
      artifact'.remoteVerified = false

theorem locator_of_find {id : ℕ} {artifact : CaptureArtifact}
    (h : s.artifacts.find id = some artifact) (hverified : artifact.remoteVerified = true)
    (htarget : artifact.backupTarget = some object.target)
    (hkey : artifact.remoteObjectKey = some object.key) : s.locator object = true :=
  locator_iff.mpr ⟨artifact, (Table.find_eq_some.mp h).1, hverified, htarget, hkey⟩

theorem Quiet.locator (h : Quiet s s') : s'.locator object = s.locator object := by
  rw [Bool.eq_iff_iff]
  constructor
  · intro hlocator
    obtain ⟨artifact', hmem, hverified, htarget, hkey⟩ := locator_iff.mp hlocator
    rcases h.inserted (Table.find_eq_some.mpr ⟨hmem, rfl⟩) with ⟨artifact, hfind, hsame⟩ | hnew
    · exact locator_of_find hfind (hsame.remoteVerified ▸ hverified)
        (hsame.backupTarget ▸ htarget) (hsame.remoteObjectKey ▸ hkey)
    · rw [hnew] at hverified
      cases hverified
  · intro hlocator
    obtain ⟨artifact, hmem, hverified, htarget, hkey⟩ := locator_iff.mp hlocator
    obtain ⟨artifact', hfind, hsame⟩ := h.artifacts (Table.find_eq_some.mpr ⟨hmem, rfl⟩)
    exact locator_of_find hfind (hsame.remoteVerified ▸ hverified)
      (hsame.backupTarget.trans htarget) (hsame.remoteObjectKey.trans hkey)

theorem Quiet.later (h : Quiet s s')
    (hlocked : ∀ {token attempt}, s.attempts.find token = some attempt →
      s'.attemptLock attempt = true → s.attemptLock attempt = true) : Later s s' where
  attempts hattempt := ⟨_, h.attempts hattempt, .refl _⟩
  artifacts hartifact := by
    obtain ⟨artifact', hfind, hsame⟩ := h.artifacts hartifact
    exact ⟨artifact', hfind, hsame.point, hsame.storageKey⟩
  locked hattempt hlock := by
    rw [Bool.eq_false_iff] at hlock ⊢
    exact fun hlock' => hlock (hlocked hattempt hlock')
  locators hlocator := h.locator.trans hlocator
  committed hlocator := Or.inl (h.locator.symm.trans hlocator)

theorem Sound.quiet (hs : Sound s) (h : Quiet s s') (hlater : Later s s') (hleases : Leases s')
    (hnames : DistinctKeys s') : Sound s' where
  leases := hleases
  names := hnames
  attempts {token attempt} hattempt := by
    rcases h.started hattempt with hold | ⟨hstage, htodo⟩
    · have hsound := hs.attempts hold
      refine ⟨hsound.nodup, ?_, ?_, ?_⟩
      · intro item hitem
        obtain ⟨artifact, hartifact, hpoint, hkey⟩ := hsound.items item hitem
        obtain ⟨artifact', hartifact', hpoint', hkey'⟩ := hlater.artifacts hartifact
        exact ⟨artifact', hartifact', hpoint'.trans hpoint, hkey'.trans hkey⟩
      · rw [h.ledger]
        exact hsound.window
      · rw [h.objects]
        exact hsound.cleared
    · have hpending : pending attempt = [] := by rw [pending, hstage, htodo]; rfl
      refine ⟨?_, ?_, ?_, ?_⟩
      · simp [hpending]
      · simp [hpending]
      · simp [hstage]
      · simp [hstage]
  locators {id artifact'} hartifact' hverified := by
    rcases h.inserted hartifact' with ⟨artifact, hartifact, hsame⟩ | hnew
    · exact (hs.locators hartifact (hsame.remoteVerified ▸ hverified)).later hlater hsame.id
        hsame.point hsame.storageKey hsame.backupTarget hsame.remoteObjectKey
        hsame.remoteCaptureAttemptToken
    · rw [hnew] at hverified
      cases hverified
  ledger {object row} hrow := (hs.ledger (h.ledger ▸ hrow)).later hlater
  runs {token run} hrun := by
    obtain ⟨htodo, hstage⟩ := hs.runs (h.runs ▸ hrun)
    refine ⟨fun row hrow => (htodo row hrow).later hlater, hstage.later hlater ?_⟩
    intro row hremoving
    rw [hremoving] at hstage
    rw [h.objects]
    exact hstage.2.2
  reclaimed object hobject := (hs.reclaimed object (h.reclaimed ▸ hobject)).later hlater
  tracked object hobject := by
    rw [h.locator, h.ledger]
    exact hs.tracked object (h.objects ▸ hobject)

/-- A step of the system that is quiet and keeps the names. -/
theorem Sound.quiet_step {op : LedgerOp} (hs : Sound s) (h : Quiet s (s.step op))
    (hnames : DistinctKeys (s.step op)) : Sound (s.step op) :=
  hs.quiet h (h.later fun hattempt => attemptLock_step op hs.leases hattempt)
    (leases_step op hs.leases) hnames

theorem names_update {p : CaptureArtifact → Bool} {f : CaptureArtifact → CaptureArtifact}
    (hf : ∀ artifact, (f artifact).id = artifact.id) (hs : Sound s)
    (hsame : ∀ artifact, SameArtifact artifact (f artifact))
    (hs' : s'.artifacts = s.artifacts.update p f hf) : DistinctKeys s' := by
  intro id id' artifact artifact' h h' hpoint hkey
  rw [hs'] at h h'
  have hback : ∀ {k row}, (s.artifacts.update p f hf).find k = some row → ∃ row₀,
      s.artifacts.find k = some row₀ ∧ SameArtifact row₀ row := by
    intro k row hrow
    rw [Table.find_update, Option.map_eq_some_iff] at hrow
    obtain ⟨row₀, hrow₀, rfl⟩ := hrow
    refine ⟨row₀, hrow₀, ?_⟩
    split
    · exact hsame row₀
    · exact .refl row₀
  obtain ⟨row, hrow, hr⟩ := hback h
  obtain ⟨row', hrow', hr'⟩ := hback h'
  refine hs.names hrow hrow' ?_ ?_
  · rw [← hr.point, ← hr'.point, hpoint]
  · rw [← hr.storageKey, ← hr'.storageKey, hkey]

theorem quiet_update {p : CaptureArtifact → Bool} {f : CaptureArtifact → CaptureArtifact}
    (hf : ∀ artifact, (f artifact).id = artifact.id)
    (hartifacts : s'.artifacts = s.artifacts.update p f hf)
    (hsame : ∀ artifact, SameArtifact artifact (f artifact)) (hattempts : s'.attempts = s.attempts)
    (hledger : s'.ledger = s.ledger) (hobjects : s'.objects = s.objects)
    (hruns : s'.runs = s.runs) (hreclaimed : s'.reclaimed = s.reclaimed) : Quiet s s' where
  ledger := hledger
  objects := hobjects
  runs := hruns
  reclaimed := hreclaimed
  attempts hattempt := hattempts ▸ hattempt
  started hattempt := Or.inl (hattempts ▸ hattempt)
  artifacts {id artifact} hartifact := by
    rw [hartifacts, Table.find_update, hartifact]
    refine ⟨_, rfl, ?_⟩
    show SameArtifact artifact (if p artifact then f artifact else artifact)
    split
    · exact hsame artifact
    · exact .refl artifact
  inserted {id artifact'} hartifact' := by
    rw [hartifacts, Table.find_update, Option.map_eq_some_iff] at hartifact'
    obtain ⟨artifact, hartifact, rfl⟩ := hartifact'
    refine Or.inl ⟨artifact, hartifact, ?_⟩
    split
    · exact hsame artifact
    · exact .refl artifact

/-- The artifacts are not touched. -/
theorem quiet_same (hartifacts : s'.artifacts = s.artifacts) (hledger : s'.ledger = s.ledger)
    (hobjects : s'.objects = s.objects) (hruns : s'.runs = s.runs)
    (hreclaimed : s'.reclaimed = s.reclaimed)
    (hattempts : ∀ {token attempt}, s.attempts.find token = some attempt →
      s'.attempts.find token = some attempt)
    (hstarted : ∀ {token attempt}, s'.attempts.find token = some attempt →
      s.attempts.find token = some attempt ∨ attempt.stage = .capturing ∧ attempt.todo = []) :
    Quiet s s' where
  ledger := hledger
  objects := hobjects
  runs := hruns
  reclaimed := hreclaimed
  attempts := hattempts
  started := hstarted
  artifacts {_ artifact} hartifact := ⟨artifact, hartifacts ▸ hartifact, .refl artifact⟩
  inserted {_ artifact} hartifact := Or.inl ⟨artifact, hartifacts ▸ hartifact, .refl artifact⟩

theorem quiet_refl (s : LedgerSystem) : Quiet s s :=
  quiet_same rfl rfl rfl rfl rfl id Or.inl

theorem quiet_addArtifact (id point : ℕ) (source : ArtifactSource) (target : Option ℕ) :
    Quiet s (s.addArtifact id point source target) where
  ledger := rfl
  objects := rfl
  runs := rfl
  reclaimed := rfl
  attempts := fun h => h
  started := Or.inl
  artifacts {_ artifact} hartifact :=
    ⟨artifact, Table.find_insert_of_some hartifact, .refl artifact⟩
  inserted {id artifact} hartifact := by
    rcases Table.find_insert hartifact with hold | ⟨-, rfl⟩
    · exact Or.inl ⟨artifact, hold, .refl artifact⟩
    · exact Or.inr rfl

theorem names_addArtifact {new point : ℕ} {source : ArtifactSource} {target : Option ℕ}
    (hs : Sound s) (hunused : s.storageKeyUsed point source = false) :
    DistinctKeys (s.addArtifact new point source target) := by
  intro id id' artifact artifact' h h' hpoint hkey
  have hother : ∀ {k row}, s.artifacts.find k = some row →
      ¬(row.point = point ∧ row.storageKey = artifactRelativePath source) := by
    rintro k row hrow ⟨hrowpoint, hrowkey⟩
    have hused : s.storageKeyUsed point source = true :=
      List.any_eq_true.mpr ⟨row, (Table.find_eq_some.mp hrow).1, by simp [hrowpoint, hrowkey]⟩
    rw [hused] at hunused
    cases hunused
  rcases Table.find_insert h with hold | ⟨hnone, hnew⟩ <;>
    rcases Table.find_insert h' with hold' | ⟨hnone', hnew'⟩
  · exact hs.names hold hold' hpoint hkey
  · subst hnew'
    exact absurd ⟨hpoint, hkey⟩ (hother hold)
  · subst hnew
    exact absurd ⟨hpoint.symm, hkey.symm⟩ (hother hold')
  · rw [← (Table.find_eq_some.mp h).2, ← (Table.find_eq_some.mp h').2, hnew, hnew']

theorem quiet_startCapture {token : ℕ} {job : CaptureJob} :
    Quiet s (s.startCapture token job) := by
  unfold startCapture
  split
  · exact quiet_refl s
  · split
    · exact quiet_refl s
    · refine quiet_same rfl rfl rfl rfl rfl ?_ ?_
      · exact fun hattempt => Table.find_insert_of_some hattempt
      · intro token' attempt hattempt
        rcases Table.find_insert hattempt with hold | ⟨-, rfl⟩
        · exact Or.inl hold
        · exact Or.inr ⟨rfl, rfl⟩

theorem startCapture_artifacts (s : LedgerSystem) (token : ℕ) (job : CaptureJob) :
    (s.startCapture token job).artifacts = s.artifacts := by
  unfold startCapture
  split
  · rfl
  · split <;> rfl

/-- The status of a failed job, on its point and its artifacts. -/
theorem quiet_fail (job : CaptureJob) (point : ℕ) : Quiet s ((s.endJob job).failLinked point) :=
  quiet_update (f := fun row => { row with status := .failed }) (fun _ => rfl) rfl
    (fun _ => ⟨rfl, rfl, rfl, rfl, rfl, rfl, rfl⟩) rfl rfl rfl rfl rfl

/-! ### Uploads: locators -/

/-- The artifacts after a statement of an upload: verified locators are kept, and a new one is that
    of the artifact that is committed. -/
structure Relocates (s s' : LedgerSystem) (attempt : CaptureAttempt) : Prop where
  artifacts : ∀ {id artifact}, s.artifacts.find id = some artifact →
    ∃ artifact', s'.artifacts.find id = some artifact' ∧ artifact'.point = artifact.point ∧
      artifact'.storageKey = artifact.storageKey ∧
      (artifact.remoteVerified = true → artifact' = artifact)
  names : ∀ {id artifact'}, s'.artifacts.find id = some artifact' →
    ∃ artifact, s.artifacts.find id = some artifact ∧ artifact'.point = artifact.point ∧
      artifact'.storageKey = artifact.storageKey
  committed : ∀ {id artifact'}, s'.artifacts.find id = some artifact' →
    artifact'.remoteVerified = true → s.artifacts.find id = some artifact' ∨
    ∃ item artifact, attempt.stage = .committing item ∧ item.artifact = id ∧
      s.artifacts.find id = some artifact ∧ artifact' = located attempt item artifact ∧
      s.attemptLock attempt = true

theorem relocates_same (h : s'.artifacts = s.artifacts) : Relocates s s' attempt where
  artifacts {_ artifact} hartifact := ⟨artifact, h ▸ hartifact, rfl, rfl, fun _ => rfl⟩
  names {_ artifact} hartifact := ⟨artifact, h ▸ hartifact, rfl, rfl⟩
  committed hartifact _ := Or.inl (h ▸ hartifact)

/-- One artifact that has no verified locator is changed. -/
theorem relocates_upsert {artifact changed : CaptureArtifact} {id : ℕ}
    (hartifact : s.artifacts.find id = some artifact) (hunverified : s.verified id = false)
    (hs' : s'.artifacts = s.artifacts.upsert changed) (hid : changed.id = artifact.id)
    (hpoint : changed.point = artifact.point) (hkey : changed.storageKey = artifact.storageKey)
    (hcommitted : changed.remoteVerified = true → ∃ item, attempt.stage = .committing item ∧
      item.artifact = id ∧ changed = located attempt item artifact ∧
      s.attemptLock attempt = true) : Relocates s s' attempt := by
  have hcid : changed.id = id := hid.trans (Table.find_eq_some.mp hartifact).2
  have hfind : ∀ k, s'.artifacts.find k = if id = k then some changed else s.artifacts.find k := by
    intro k
    rw [hs', Table.find_upsert, hcid]
  have hnot : artifact.remoteVerified = false := by simpa [verified, hartifact] using hunverified
  constructor
  · intro k row hrow
    rw [hfind]
    split
    next heq =>
      subst heq
      obtain rfl : artifact = row := Option.some.inj (hartifact.symm.trans hrow)
      refine ⟨changed, rfl, hpoint, hkey, ?_⟩
      rw [hnot]
      exact fun h => absurd h (by simp)
    · exact ⟨row, hrow, rfl, rfl, fun _ => rfl⟩
  · intro k row hrow
    rw [hfind] at hrow
    split at hrow
    next heq =>
      subst heq
      obtain rfl := Option.some.inj hrow
      exact ⟨artifact, hartifact, hpoint, hkey⟩
    · exact ⟨row, hrow, rfl, rfl⟩
  · intro k row hrow hverified
    rw [hfind] at hrow
    split at hrow
    next heq =>
      subst heq
      obtain rfl := Option.some.inj hrow
      obtain ⟨item, hstage, hitem, hlocated, hlock⟩ := hcommitted hverified
      exact Or.inr ⟨item, artifact, hstage, hitem, hartifact, hlocated, hlock⟩
    · exact Or.inl hrow

/-- Artifacts that have no verified locator lose nothing. -/
theorem relocates_markAll {p : CaptureArtifact → Bool}
    (hunverified : ∀ artifact ∈ s.artifacts, p artifact = true → artifact.remoteVerified = false)
    (hs' : s'.artifacts = s.artifacts.update p
      (fun artifact => { artifact with remoteVerified := false }) fun _ => rfl) :
    Relocates s s' attempt := by
  have hfind : ∀ k, s'.artifacts.find k = s.artifacts.find k ∨ ∃ artifact,
      s.artifacts.find k = some artifact ∧ artifact.remoteVerified = false ∧
      s'.artifacts.find k = some { artifact with remoteVerified := false } := by
    intro k
    rw [hs', Table.find_update]
    cases hk : s.artifacts.find k with
    | none => exact Or.inl rfl
    | some artifact =>
      by_cases hp : p artifact = true
      · right
        exact ⟨artifact, rfl, hunverified artifact (Table.find_eq_some.mp hk).1 hp, by simp [hp]⟩
      · left
        simp [hp]
  constructor
  · intro k row hrow
    rcases hfind k with hsame | ⟨artifact, hartifact, hnot, hnew⟩
    · exact ⟨row, hsame.trans hrow, rfl, rfl, fun _ => rfl⟩
    · obtain rfl : artifact = row := Option.some.inj (hartifact.symm.trans hrow)
      refine ⟨_, hnew, rfl, rfl, ?_⟩
      rw [hnot]
      exact fun h => absurd h (by simp)
  · intro k row hrow
    rcases hfind k with hsame | ⟨artifact, hartifact, hnot, hnew⟩
    · exact ⟨row, hsame.symm.trans hrow, rfl, rfl⟩
    · obtain rfl := Option.some.inj (hnew.symm.trans hrow)
      exact ⟨artifact, hartifact, rfl, rfl⟩
  · intro k row hrow hverified
    rcases hfind k with hsame | ⟨artifact, hartifact, hnot, hnew⟩
    · exact Or.inl (hsame.symm.trans hrow)
    · obtain rfl := Option.some.inj (hnew.symm.trans hrow)
      cases hverified

theorem UploadEffect.relocates {s₁ : LedgerSystem} (h : UploadEffect s attempt next s₁)
    (hkeeps : s.keepsLocators attempt = true) : Relocates s s₁ attempt := by
  cases h with
  | @commit item s₁ hstage hcommit =>
    obtain ⟨artifact, hartifact, hlock, rfl⟩ := commitLocator_eq hcommit
    have hunverified : s.verified item.artifact = false := by
      simpa [keepsLocators, hstage] using hkeeps
    exact relocates_upsert hartifact hunverified rfl rfl rfl rfl fun _ =>
      ⟨item, hstage, rfl, rfl, hlock⟩
  | @mark item orphaned s₁ hstage hmark =>
    obtain ⟨artifact, target, hartifact, rfl⟩ := markFailed_eq hmark
    have hunverified : s.verified item.artifact = false := by
      rcases hstage with ⟨b, hstage⟩ | hstage <;> simpa [keepsLocators, hstage] using hkeeps
    exact relocates_upsert hartifact hunverified rfl rfl rfl rfl fun hverified => by cases hverified
  | markAll hstage hmark =>
    obtain ⟨p, hp, rfl⟩ := markAllFailed_eq hmark
    refine relocates_markAll ?_ rfl
    intro artifact hartifact hpart
    simp only [keepsLocators, hstage, List.all_eq_true] at hkeeps
    simpa [hp artifact hpart] using hkeeps artifact hartifact
  | _ => exact relocates_same rfl

theorem later_upload {token : ℕ} {s₁ : LedgerSystem}
    (hattempt : s.attempts.find token = some attempt) (hmoves : Moves attempt next)
    (heffect : UploadEffect s attempt next s₁) (hkeeps : s.keepsLocators attempt = true) :
    Later s { s₁ with attempts := s₁.attempts.upsert next } := by
  have hrelocates := heffect.relocates hkeeps
  constructor
  · intro token' found hfound
    show ∃ next', (s₁.attempts.upsert next).find token' = some next' ∧ Advances found next'
    rw [heffect.same.attempts, Table.find_upsert, hmoves.token, (Table.find_eq_some.mp hattempt).2]
    split
    next heq =>
      subst heq
      obtain rfl : attempt = found := Option.some.inj (hattempt.symm.trans hfound)
      exact ⟨next, rfl, hmoves.advances⟩
    · exact ⟨found, hfound, .refl found⟩
  · intro id artifact hartifact
    obtain ⟨artifact', hfind, hpoint, hkey, -⟩ := hrelocates.artifacts hartifact
    exact ⟨artifact', hfind, hpoint, hkey⟩
  · intro token' found _ hlock
    rw [Bool.eq_false_iff] at hlock ⊢
    exact fun hlock' => hlock (attemptLock_effect heffect hlock')
  · intro object hlocator
    obtain ⟨artifact, hmem, hverified, htarget, hkey⟩ := locator_iff.mp hlocator
    obtain ⟨artifact', hfind, -, -, hsame⟩ :=
      hrelocates.artifacts (Table.find_eq_some.mpr ⟨hmem, rfl⟩)
    obtain rfl := hsame hverified
    exact locator_of_find (s := { s₁ with attempts := s₁.attempts.upsert next }) hfind hverified
      htarget hkey
  · intro object hlocator
    obtain ⟨artifact', hmem, hverified, htarget, hkey⟩ := locator_iff.mp hlocator
    rcases hrelocates.committed (Table.find_eq_some.mpr ⟨hmem, rfl⟩) hverified with
      hold | ⟨item, artifact, hstage, -, -, rfl, hlock⟩
    · exact Or.inl (locator_of_find hold hverified htarget hkey)
    · right
      have hkey : (attempt.object item).key = object.key := Option.some.inj hkey
      refine ⟨attempt, ?_, by simp [isOver, hstage], hlock⟩
      rw [← hkey]
      show s.attempts.find attempt.token = some attempt
      rw [(Table.find_eq_some.mp hattempt).2]
      exact hattempt

/-! ### Uploads: the ledger and the objects -/

theorem ledger_delete_names (attempt : CaptureAttempt) (item : UploadItem)
    (hsome : (s.ledger.find object).isSome = true) :
    ((s.ledger.delete (names attempt item)).find object).isSome = true ∨
      object = attempt.object item := by
  obtain ⟨row, hrow⟩ := Option.isSome_iff_exists.mp hsome
  rw [Table.find_delete, hrow]
  by_cases hnames : names attempt item row = true
  · right
    simp only [names, Bool.and_eq_true, decide_eq_true_eq] at hnames
    exact (Table.find_eq_some.mp hrow).2.symm.trans hnames.1.1
  · left
    simp [Option.filter, hnames]

/-- Only a commit and a clearing take a row out of the ledger, that of their object. -/
theorem UploadEffect.ledger_kept {s₁ : LedgerSystem} (h : UploadEffect s attempt next s₁)
    (hsome : (s.ledger.find object).isSome = true) : (s₁.ledger.find object).isSome = true ∨
    ∃ item, object = attempt.object item ∧
      (attempt.stage = .committing item ∧ s₁.locator object = true ∨
        attempt.stage = .clearing item) := by
  cases h with
  | @commit item _ hstage hcommit =>
    obtain ⟨artifact, hartifact, -, rfl⟩ := commitLocator_eq hcommit
    rcases ledger_delete_names attempt item hsome with hkept | rfl
    · exact Or.inl hkept
    · refine Or.inr ⟨item, rfl, Or.inl ⟨hstage, ?_⟩⟩
      have hfind : (s.artifacts.upsert (located attempt item artifact)).find artifact.id =
          some (located attempt item artifact) := by
        rw [Table.find_upsert]
        exact if_pos rfl
      exact locator_iff.mpr ⟨_, (Table.find_eq_some.mp hfind).1, rfl, rfl, rfl⟩
  | @clear item hstage =>
    rcases ledger_delete_names attempt item hsome with hkept | rfl
    · exact Or.inl hkept
    · exact Or.inr ⟨item, rfl, Or.inr hstage⟩
  | mark _ hmark =>
    obtain ⟨_, _, -, rfl⟩ := markFailed_eq hmark
    exact Or.inl hsome
  | markAll _ hmark =>
    obtain ⟨_, -, rfl⟩ := markAllFailed_eq hmark
    exact Or.inl hsome
  | intent =>
    left
    show ((Table.upsert _ _).find object).isSome = true
    rw [Table.find_upsert]
    split
    · rfl
    · exact hsome
  | release =>
    left
    obtain ⟨row, hrow⟩ := Option.isSome_iff_exists.mp hsome
    simp only [releaseIntent]
    rw [Table.find_update, hrow]
    rfl
  | _ => exact Or.inl hsome

/-- A row after a statement of an upload was there with another claim, or is its new intent. -/
theorem UploadEffect.ledger_rows {s₁ : LedgerSystem} (h : UploadEffect s attempt next s₁)
    (hrow : s₁.ledger.find object = some row) :
    (∃ row₀, s.ledger.find object = some row₀ ∧ row = { row₀ with claim := row.claim }) ∨
    ∃ item claim, (attempt.stage = .opening item ∨ attempt.stage = .recording item) ∧
      row = ⟨attempt.object item, item.artifact, attempt.token, claim⟩ := by
  have hdelete : ∀ {item}, (s.ledger.delete (names attempt item)).find object = some row →
      ∃ row₀, s.ledger.find object = some row₀ ∧ row = { row₀ with claim := row.claim } := by
    intro item hfind
    rw [Table.find_delete] at hfind
    exact ⟨row, (Option.filter_eq_some_iff.mp hfind).1, rfl⟩
  cases h with
  | commit hstage hcommit =>
    obtain ⟨artifact, -, -, rfl⟩ := commitLocator_eq hcommit
    exact Or.inl (hdelete hrow)
  | clear hstage => exact Or.inl (hdelete hrow)
  | mark _ hmark =>
    obtain ⟨_, _, -, rfl⟩ := markFailed_eq hmark
    exact Or.inl ⟨row, hrow, rfl⟩
  | markAll _ hmark =>
    obtain ⟨_, -, rfl⟩ := markAllFailed_eq hmark
    exact Or.inl ⟨row, hrow, rfl⟩
  | @intent item claim hstage =>
    have hrow : (Table.upsert _ _).find object = some row := hrow
    rw [Table.find_upsert] at hrow
    split at hrow
    · exact Or.inr ⟨item, claim, hstage, (Option.some.inj hrow).symm⟩
    · exact Or.inl ⟨row, hrow, rfl⟩
  | @release item hstage =>
    simp only [releaseIntent] at hrow
    rw [Table.find_update, Option.map_eq_some_iff] at hrow
    obtain ⟨row₀, hrow₀, hif⟩ := hrow
    refine Or.inl ⟨row₀, hrow₀, ?_⟩
    split at hif <;> subst hif <;> rfl
  | _ => exact Or.inl ⟨row, hrow, rfl⟩

/-- An object after a statement of an upload was there, or is the one it stores. -/
theorem UploadEffect.objects {s₁ : LedgerSystem} (h : UploadEffect s attempt next s₁)
    (hobject : object ∈ s₁.objects) : object ∈ s.objects ∨
    ∃ item, attempt.stage = .putting item ∧ object = attempt.object item ∧
      s₁.ledger = s.ledger := by
  cases h with
  | commit hstage hcommit =>
    obtain ⟨artifact, -, -, rfl⟩ := commitLocator_eq hcommit
    exact Or.inl hobject
  | mark _ hmark =>
    obtain ⟨_, _, -, rfl⟩ := markFailed_eq hmark
    exact Or.inl hobject
  | markAll _ hmark =>
    obtain ⟨_, -, rfl⟩ := markAllFailed_eq hmark
    exact Or.inl hobject
  | @put item hstage =>
    rcases List.mem_cons.mp hobject with rfl | hold
    · exact Or.inr ⟨item, hstage, rfl, rfl⟩
    · exact Or.inl hold
  | delete => exact Or.inl (List.mem_filter.mp hobject).1
  | _ => exact Or.inl hobject

/-- The items of an attempt after a statement. -/
theorem UploadEffect.pending_cases {s₁ : LedgerSystem} (h : UploadEffect s attempt next s₁) :
    (pending next).Sublist (pending attempt) ∨
      attempt.stage = .capturing ∧ pending next = s.uploadItems attempt.point := by
  cases h with
  | load hstage hpending => exact Or.inr ⟨hstage, hpending⟩
  | none hpending => exact Or.inl hpending
  | intent _ _ hpending => exact Or.inl hpending
  | put _ hpending => exact Or.inl hpending
  | delete _ _ hpending => exact Or.inl hpending
  | clear _ hpending => exact Or.inl hpending
  | release _ hpending => exact Or.inl hpending
  | commit _ _ hpending => exact Or.inl hpending
  | mark _ _ hpending => exact Or.inl hpending
  | markAll _ _ hpending => exact Or.inl hpending
  | status _ hpending => exact Or.inl hpending

theorem uploadItems_nodup (point : ℕ) : ((s.uploadItems point).map (·.artifact)).Nodup := by
  rw [uploadItems, List.map_map]
  exact s.artifacts.nodup.sublist (List.Sublist.map _ List.filter_sublist)

theorem mem_uploadItems {point : ℕ} (h : item ∈ s.uploadItems point) :
    ∃ artifact, s.artifacts.find item.artifact = some artifact ∧ artifact.point = point ∧
      artifact.storageKey = item.storageKey := by
  obtain ⟨artifact, hmem, rfl⟩ := List.mem_map.mp h
  obtain ⟨hmem, hfilter⟩ := List.mem_filter.mp hmem
  simp only [Bool.and_eq_true, decide_eq_true_eq] at hfilter
  exact ⟨artifact, Table.find_eq_some.mpr ⟨hmem, rfl⟩, hfilter.1, rfl⟩

/-- The artifact that an upload is at is not before it any more. -/
theorem AttemptSound.current (h : AttemptSound s attempt) (hitem : stageItem attempt.stage = some item) :
    ∀ other ∈ attempt.todo, other.artifact ≠ item.artifact := by
  have hnodup := h.nodup
  rw [pending, hitem, Option.toList_some, List.singleton_append, List.map_cons,
    List.nodup_cons] at hnodup
  intro other hother heq
  exact hnodup.1 (List.mem_map.mpr ⟨other, hother, heq⟩)

/-! ### Uploads keep the invariant -/

section Upload

variable {token : ℕ} {s₁ : LedgerSystem}

/-- The attempt that has moved on. -/
theorem attemptSound_next (hs : Sound s) (hattempt : s.attempts.find token = some attempt)
    (hmoves : Moves attempt next) (heffect : UploadEffect s attempt next s₁)
    (hlater : Later s { s₁ with attempts := s₁.attempts.upsert next }) :
    AttemptSound { s₁ with attempts := s₁.attempts.upsert next } next := by
  have hsound := hs.attempts hattempt
  refine ⟨?_, ?_, ?_, ?_⟩
  · rcases heffect.pending_cases with hsub | ⟨-, hload⟩
    · exact hsound.nodup.sublist (hsub.map _)
    · rw [hload]
      exact uploadItems_nodup _
  · intro item hitem
    have hold : ∃ artifact, s.artifacts.find item.artifact = some artifact ∧
        artifact.point = attempt.point ∧ artifact.storageKey = item.storageKey := by
      rcases heffect.pending_cases with hsub | ⟨-, hload⟩
      · exact hsound.items item (hsub.subset hitem)
      · exact mem_uploadItems (hload ▸ hitem)
    obtain ⟨artifact, hartifact, hpoint, hkey⟩ := hold
    obtain ⟨artifact', hartifact', hpoint', hkey'⟩ := hlater.artifacts hartifact
    exact ⟨artifact', hartifact', by rw [hpoint', hpoint, hmoves.point], hkey'.trans hkey⟩
  · have hobject : ∀ item, next.object item = attempt.object item :=
      fun item => hmoves.advances.object_eq item
    rintro item (hstage | hstage)
    · -- the intent has just been written
      have hopening := hmoves.intended hstage
      rw [hobject]
      cases heffect with
      | none _ hintended => exact absurd hstage hintended
      | load hcapturing => rw [hcapturing] at hopening; cases hopening
      | @intent item' _ hitem hintended =>
        obtain rfl := hintended hstage
        show ((Table.upsert _ _).find _).isSome = true
        rw [Table.find_upsert, if_pos rfl]
        rfl
      | put hputting => rw [hputting] at hopening; cases hopening
      | delete hdeleting => rw [hdeleting] at hopening; cases hopening
      | clear hclearing => rw [hclearing] at hopening; cases hopening
      | release hreleasing => rw [hreleasing] at hopening; cases hopening
      | commit hcommitting => rw [hcommitting] at hopening; cases hopening
      | mark hmarking =>
        rcases hmarking with ⟨b, hmarking⟩ | hmarking <;> rw [hmarking] at hopening <;>
          cases hopening
      | markAll hthrew => rw [hthrew] at hopening; cases hopening
      | status hover => rw [isOver, hstage] at hover; simp at hover
    · have hintended := hmoves.putting hstage
      rw [hobject]
      rcases heffect.ledger_kept (hsound.window item (Or.inl hintended)) with
        hkept | ⟨item', -, ⟨hitem', -⟩ | hitem'⟩
      · exact hkept
      · rw [hitem'] at hintended; cases hintended
      · rw [hitem'] at hintended; cases hintended
  · intro item hstage
    have hdeleting := hmoves.clearing hstage
    rw [hmoves.advances.object_eq]
    cases heffect with
    | none _ _ hclearing => exact absurd hstage hclearing
    | load hcapturing => rw [hcapturing] at hdeleting; cases hdeleting
    | intent hitem =>
      rcases hitem with hitem | hitem <;> rw [hitem] at hdeleting <;> cases hdeleting
    | put hputting => rw [hputting] at hdeleting; cases hdeleting
    | @delete item' _ hclearing =>
      obtain rfl := hclearing hstage
      exact fun hmem => by simpa using (List.mem_filter.mp hmem).2
    | clear hclearing => rw [hclearing] at hdeleting; cases hdeleting
    | release hreleasing => rw [hreleasing] at hdeleting; cases hdeleting
    | commit hcommitting => rw [hcommitting] at hdeleting; cases hdeleting
    | mark hmarking =>
      rcases hmarking with ⟨b, hmarking⟩ | hmarking <;> rw [hmarking] at hdeleting <;>
        cases hdeleting
    | markAll hthrew => rw [hthrew] at hdeleting; cases hdeleting
    | status hover => rw [isOver, hstage] at hover; simp at hover

/-- Objects of different attempts differ. -/
theorem object_ne {token' : ℕ} {other : CaptureAttempt} {item' : UploadItem}
    (hattempt : s.attempts.find token = some attempt)
    (hother : s.attempts.find token' = some other) (hne : token' ≠ token) :
    other.object item' ≠ attempt.object item := by
  intro heq
  have htoken : other.token = attempt.token := congrArg (fun o => o.key.attempt) heq
  rw [(Table.find_eq_some.mp hother).2, (Table.find_eq_some.mp hattempt).2] at htoken
  exact hne htoken

/-- An attempt beside the one that moves on. -/
theorem attemptSound_other {token' : ℕ} {other : CaptureAttempt} (hs : Sound s)
    (hattempt : s.attempts.find token = some attempt)
    (heffect : UploadEffect s attempt next s₁)
    (hlater : Later s { s₁ with attempts := s₁.attempts.upsert next })
    (hother : s.attempts.find token' = some other) (hne : token' ≠ token) :
    AttemptSound { s₁ with attempts := s₁.attempts.upsert next } other := by
  have hsound := hs.attempts hother
  refine ⟨hsound.nodup, ?_, ?_, ?_⟩
  · intro item hitem
    obtain ⟨artifact, hartifact, hpoint, hkey⟩ := hsound.items item hitem
    obtain ⟨artifact', hartifact', hpoint', hkey'⟩ := hlater.artifacts hartifact
    exact ⟨artifact', hartifact', hpoint'.trans hpoint, hkey'.trans hkey⟩
  · intro item hitem
    rcases heffect.ledger_kept (hsound.window item hitem) with hkept | ⟨item', heq, -⟩
    · exact hkept
    · exact absurd heq (object_ne hattempt hother hne)
  · intro item hitem hmem
    rcases heffect.objects hmem with hold | ⟨item', -, heq, -⟩
    · exact hsound.cleared item hitem hold
    · exact object_ne hattempt hother hne heq

theorem Sound.upload (hs : Sound s) (hattempt : s.attempts.find token = some attempt)
    (hmoves : Moves attempt next) (heffect : UploadEffect s attempt next s₁)
    (hkeeps : s.keepsLocators attempt = true) :
    Sound { s₁ with attempts := s₁.attempts.upsert next } := by
  have hlater := later_upload hattempt hmoves heffect hkeeps
  have hrelocates := heffect.relocates hkeeps
  have hsound := hs.attempts hattempt
  have htoken : attempt.token = token := (Table.find_eq_some.mp hattempt).2
  have hnext : (s₁.attempts.upsert next).find token = some next := by
    rw [Table.find_upsert, if_pos (hmoves.token.trans htoken)]
  constructor
  · exact hs.leases.upload hattempt hmoves heffect
  · intro id id' artifact artifact' hartifact hartifact' hpoint hkey
    obtain ⟨row, hrow, hrp, hrk⟩ := hrelocates.names hartifact
    obtain ⟨row', hrow', hrp', hrk'⟩ := hrelocates.names hartifact'
    exact hs.names hrow hrow' (by rw [← hrp, ← hrp', hpoint]) (by rw [← hrk, ← hrk', hkey])
  · intro token' found hfound
    have hfound : (s.attempts.upsert next).find token' = some found :=
      heffect.same.attempts ▸ hfound
    rcases find_upsert_attempt hattempt hmoves.token hfound with ⟨-, rfl⟩ | ⟨hne, hother⟩
    · exact attemptSound_next hs hattempt hmoves heffect hlater
    · exact attemptSound_other hs hattempt heffect hlater hother hne
  · intro id artifact' hartifact' hverified
    rcases hrelocates.committed hartifact' hverified with
      hold | ⟨item, artifact, hstage, rfl, hartifact, rfl, -⟩
    · exact (hs.locators hold hverified).later hlater rfl rfl rfl rfl rfl rfl
    · obtain ⟨artifact₀, hartifact₀, hpoint, hkey⟩ :=
        hsound.items item (by simp [pending, stageItem, hstage])
      obtain rfl : artifact = artifact₀ := Option.some.inj (hartifact.symm.trans hartifact₀)
      have hpast : Past attempt item.artifact := by
        refine ⟨⟨by simp [hstage], hsound.current (by simp [stageItem, hstage]), ?_⟩, ?_⟩
        · simp [hstage]
        · simp [hstage]
      refine ⟨token, next, hnext, ?_, ?_, ?_, ?_, ?_⟩
      · exact hpoint.trans hmoves.point.symm
      · exact congrArg some hmoves.target.symm
      · show some (attempt.object item).key = some ⟨next.point, token, artifact.storageKey⟩
        rw [hmoves.point, hkey, ← htoken]
        rfl
      · exact congrArg some htoken
      · have hid : artifact.id = item.artifact := (Table.find_eq_some.mp hartifact).2
        show Past next artifact.id
        rw [hid]
        exact hmoves.past hpast
  · intro object row hrow
    rcases heffect.ledger_rows hrow with ⟨row₀, hrow₀, hsame⟩ | ⟨item, claim, hstage, rfl⟩
    · rw [hsame]
      exact (hs.ledger hrow₀).later hlater
    · have hitem : stageItem attempt.stage = some item := by
        rcases hstage with hstage | hstage <;> rw [hstage] <;> rfl
      obtain ⟨artifact, hartifact, hpoint, hkey⟩ :=
        hsound.items item (by simp [pending, hitem])
      obtain ⟨artifact', hartifact', hpoint', hkey'⟩ := hlater.artifacts hartifact
      have hloaded : attempt.stage ≠ .capturing := by
        rcases hstage with hstage | hstage <;> rw [hstage] <;> simp
      refine ⟨next, artifact', ?_, hartifact', ?_, ?_, ⟨hmoves.loaded, ?_, ?_⟩⟩
      · rw [htoken]
        exact hnext
      · rw [hpoint', hpoint, hmoves.point]
      · show attempt.object item = next.object ⟨item.artifact, artifact'.storageKey⟩
        rw [hmoves.advances.object_eq, hkey', hkey]
      · exact fun other hother =>
          hsound.current hitem other (hmoves.todo hloaded other hother)
      · intro other hopening
        rw [(hmoves.opening hopening).1] at hitem
        cases hitem
  · intro claimToken run hrun
    obtain ⟨htodo, hstage⟩ := hs.runs (heffect.same.runs ▸ hrun)
    refine ⟨fun row hrow => (htodo row hrow).later hlater, hstage.later hlater ?_⟩
    intro row hremoving hmem
    rw [hremoving] at hstage
    obtain ⟨hrow, ⟨attempt', hattempt', hpast⟩, hgone⟩ := hstage
    rcases heffect.objects hmem with hold | ⟨item, hputting, heq, -⟩
    · exact hgone hold
    · obtain ⟨artifact, hartifact, hpoint, hkey⟩ :=
        hsound.items item (by simp [pending, stageItem, hputting])
      obtain ⟨htok, howner⟩ := hrow.owner hs hattempt hartifact hpoint hkey heq
      obtain rfl : attempt' = attempt :=
        Option.some.inj ((htok ▸ hattempt').symm.trans hattempt)
      exact hpast.2 item (Or.inr hputting) howner.symm
  · intro object hobject
    exact (hs.reclaimed object (heffect.same.reclaimed ▸ hobject)).later hlater
  · intro object hobject
    rcases heffect.objects hobject with hold | ⟨item, hputting, rfl, hledger⟩
    · rcases hs.tracked object hold with hlocator | hrow
      · exact Or.inl (hlater.locators hlocator)
      · rcases heffect.ledger_kept hrow with hkept | ⟨item, rfl, ⟨-, hlocator⟩ | hclearing⟩
        · exact Or.inr hkept
        · exact Or.inl hlocator
        · exact absurd hold (hsound.cleared item hclearing)
    · right
      show (s₁.ledger.find _).isSome = true
      rw [hledger]
      exact hsound.window item (Or.inr hputting)

end Upload

/-! ### The reconciler keeps the invariant -/

/-- What the runs leave alone. -/
theorem later_of_same (hpoints : s'.points = s.points) (hartifacts : s'.artifacts = s.artifacts)
    (hjobs : s'.jobs = s.jobs) (hattempts : s'.attempts = s.attempts) : Later s s' where
  attempts hattempt := ⟨_, hattempts ▸ hattempt, .refl _⟩
  artifacts hartifact := ⟨_, hartifacts ▸ hartifact, rfl, rfl⟩
  locked _ hlock := (attemptLock_congr hjobs hpoints).trans hlock
  locators hlocator := by simpa [locator, hartifacts] using hlocator
  committed hlocator := Or.inl (by simpa [locator, hartifacts] using hlocator)

/-- A step of a run keeps the invariant when the ledger and the objects fit, and the new stage of
    the run is sound. -/
theorem Sound.run {claimToken : ℕ} {run : ReconcileRun} (run' : ReconcileRun) (hs : Sound s)
    (hrun : s.runs.find claimToken = some run)
    (htodo : ∀ row ∈ run'.todo, row ∈ run.todo)
    (hpoints : s'.points = s.points) (hartifacts : s'.artifacts = s.artifacts)
    (hjobs : s'.jobs = s.jobs) (hattempts : s'.attempts = s.attempts)
    (hruns : s'.runs = s.runs.upsert run')
    (hledger : ∀ {object row}, s'.ledger.find object = some row →
      ∃ row₀, s.ledger.find object = some row₀ ∧ row = { row₀ with claim := row.claim })
    (hkept : ∀ {object}, (s.ledger.find object).isSome = true →
      (s'.ledger.find object).isSome = true ∨ s.locator object = true ∨
        ∃ row, row.object = object ∧ RowSound s row ∧ RowPast s row ∧ object ∉ s.objects)
    (hobjects : ∀ object ∈ s'.objects, object ∈ s.objects)
    (hreclaimed : ∀ object ∈ s'.reclaimed, object ∈ s.reclaimed ∨ Lost s object)
    (hstage : StageSound s' run'.stage) : Sound s' := by
  have hlater := later_of_same hpoints hartifacts hjobs hattempts
  have hlocator : ∀ object, s'.locator object = s.locator object := fun object => by
    simp [locator, hartifacts]
  constructor
  · exact hs.leases.congr hjobs hpoints hattempts
  · rw [DistinctKeys, hartifacts]
    exact hs.names
  · intro token attempt hattempt
    rw [hattempts] at hattempt
    have hsound := hs.attempts hattempt
    refine ⟨hsound.nodup, ?_, ?_, ?_⟩
    · rw [hartifacts]
      exact hsound.items
    · intro item hitem
      rcases hkept (hsound.window item hitem) with hsome | hgone
      · exact hsome
      · -- a row that is removed is one that its attempt is past
        have hpast : ∃ row, row.object = attempt.object item ∧ RowSound s row ∧ RowPast s row := by
          rcases hgone with hloc | ⟨row, hobject, hrow, hpast, -⟩
          · obtain ⟨row, hrow⟩ := Option.isSome_iff_exists.mp (hsound.window item hitem)
            have hobject := (Table.find_eq_some.mp hrow).2
            exact ⟨row, hobject, hs.ledger hrow,
              (hs.ledger hrow).past_of_locator hs (hobject ▸ hloc)⟩
          · exact ⟨row, hobject, hrow, hpast⟩
        obtain ⟨row, hobject, hrow, attempt', hattempt', hpast⟩ := hpast
        have hmem : item ∈ pending attempt := by
          rcases hitem with hitem | hitem <;> simp [pending, stageItem, hitem]
        obtain ⟨artifact, hartifact, hpoint, hkey⟩ := hsound.items item hmem
        obtain ⟨htok, howner⟩ := hrow.owner hs hattempt hartifact hpoint hkey hobject
        obtain rfl : attempt' = attempt :=
          Option.some.inj ((htok ▸ hattempt').symm.trans hattempt)
        exact absurd howner.symm (hpast.2 item hitem)
    · exact fun item hitem hmem => hsound.cleared item hitem (hobjects _ hmem)
  · intro id artifact hartifact hverified
    rw [hartifacts] at hartifact
    exact (hs.locators hartifact hverified).later hlater rfl rfl rfl rfl rfl rfl
  · intro object row hrow
    obtain ⟨row₀, hrow₀, hsame⟩ := hledger hrow
    rw [hsame]
    exact (hs.ledger hrow₀).later hlater
  · intro token found hfound
    rw [hruns, Table.find_upsert] at hfound
    split at hfound
    · obtain rfl := Option.some.inj hfound
      exact ⟨fun row hrow => ((hs.runs hrun).1 row (htodo row hrow)).later hlater, hstage⟩
    · obtain ⟨htodo', hstage'⟩ := hs.runs hfound
      refine ⟨fun row hrow => (htodo' row hrow).later hlater, hstage'.later hlater ?_⟩
      intro row hremoving hmem
      rw [hremoving] at hstage'
      exact hstage'.2.2 (hobjects _ hmem)
  · intro object hobject
    rcases hreclaimed object hobject with hold | hlost
    · exact (hs.reclaimed object hold).later hlater
    · exact hlost.later hlater
  · intro object hobject
    rw [hlocator]
    rcases hs.tracked object (hobjects object hobject) with hloc | hsome
    · exact Or.inl hloc
    · rcases hkept hsome with hsome' | hloc | ⟨row, rfl, -, -, hgone⟩
      · exact Or.inr hsome'
      · exact Or.inl hloc
      · exact absurd (hobjects _ hobject) hgone

section Reconcile

variable {claimToken : ℕ} {run : ReconcileRun}

/-- What a run reads of the owner of a row. -/
theorem disposition_sound (hs : Sound s) (hrow : RowSound s row) :
    (s.disposition row = .committed → s.locator row.object = true) ∧
      (s.disposition row = .abandoned → Lost s row.object) := by
  have hrow' := hrow
  obtain ⟨attempt, artifact, hattempt, hartifact, hpoint, hobject, hbegun⟩ := hrow'
  obtain ⟨point, hfind⟩ := hs.leases.present hattempt
  have htoken : attempt.token = row.attempt := (Table.find_eq_some.mp hattempt).2
  simp only [disposition, hartifact, hpoint, hfind]
  split
  next hcommitted =>
    refine ⟨fun _ => ?_, fun h => by cases h⟩
    simp only [Bool.and_eq_true, decide_eq_true_eq] at hcommitted
    exact locator_of_find hartifact hcommitted.2 hcommitted.1.1.1 hcommitted.1.1.2
  next hnot =>
    have hnolocator : s.locator row.object = false := by
      rw [Bool.eq_false_iff]
      intro hlocator
      obtain ⟨artifact', hmem, hverified, htarget', hkey'⟩ := locator_iff.mp hlocator
      have hartifact' : s.artifacts.find artifact'.id = some artifact' :=
        Table.find_eq_some.mpr ⟨hmem, rfl⟩
      obtain ⟨token', attempt', hattempt', hpoint', -, hkey, htok', -⟩ :=
        hs.locators hartifact' hverified
      have hkeys : (⟨attempt'.point, token', artifact'.storageKey⟩ : ObjectKey) =
          row.object.key := Option.some.inj (hkey.symm.trans hkey')
      have hparts := hkeys
      rw [hobject] at hparts
      simp only [CaptureAttempt.object, ObjectKey.mk.injEq] at hparts
      have hid : artifact'.id = row.owner := by
        refine hs.names hartifact' hartifact ?_ hparts.2.2
        rw [hpoint', hparts.1, hpoint]
      obtain rfl : artifact' = artifact :=
        Option.some.inj ((hid ▸ hartifact').symm.trans hartifact)
      have htoken' : token' = row.attempt := hparts.2.1.trans htoken
      apply hnot
      simp [htarget', hkey', htok', htoken', hverified]
    split
    · exact ⟨fun h => (by cases h), fun h => (by cases h)⟩
    next hinactive =>
      refine ⟨fun h => (by cases h), fun _ => ⟨hnolocator, attempt, ?_, ?_⟩⟩
      · rw [hobject]
        show s.attempts.find attempt.token = some attempt
        rw [htoken]
        exact hattempt
      · by_contra hdead
        simp only [not_or, Bool.not_eq_true, Bool.not_eq_false] at hdead
        obtain ⟨hleased, point', hpoint', htok, hclaim⟩ := attemptLock_iff.mp hdead.2
        obtain rfl : point' = point := Option.some.inj (hpoint'.symm.trans hfind)
        obtain ⟨hrunning, -⟩ := hs.leases.running hattempt hdead.1 hleased hfind htok
        apply hinactive
        rw [htoken] at htok
        simp [hrunning, htok, hclaim]

theorem claims_update_rows {claim : Option LedgerClaim} {found : LedgerRow}
    (h : (s.setClaim run row claim).ledger.find object = some found) :
    ∃ row₀, s.ledger.find object = some row₀ ∧ found = { row₀ with claim := found.claim } := by
  simp only [setClaim] at h
  rw [Table.find_update, Option.map_eq_some_iff] at h
  obtain ⟨row₀, hrow₀, hif⟩ := h
  refine ⟨row₀, hrow₀, ?_⟩
  split at hif <;> subst hif <;> rfl

theorem claims_update_kept {claim : Option LedgerClaim}
    (h : (s.ledger.find object).isSome = true) :
    ((s.setClaim run row claim).ledger.find object).isSome = true := by
  obtain ⟨found, hfound⟩ := Option.isSome_iff_exists.mp h
  simp only [setClaim]
  rw [Table.find_update, hfound]
  rfl

theorem claims_delete_rows {found : LedgerRow}
    (h : (s.deleteClaimed run row).ledger.find object = some found) :
    s.ledger.find object = some found := by
  simp only [deleteClaimed] at h
  rw [Table.find_delete] at h
  exact (Option.filter_eq_some_iff.mp h).1

theorem claims_delete_kept (run : ReconcileRun) (row : LedgerRow)
    (h : (s.ledger.find object).isSome = true) :
    ((s.deleteClaimed run row).ledger.find object).isSome = true ∨ object = row.object := by
  obtain ⟨found, hfound⟩ := Option.isSome_iff_exists.mp h
  simp only [deleteClaimed]
  rw [Table.find_delete, hfound]
  by_cases hclaims : claims run row found = true
  · right
    simp only [claims, Bool.and_eq_true, decide_eq_true_eq] at hclaims
    exact (Table.find_eq_some.mp hfound).2.symm.trans hclaims.1
  · left
    simp [Option.filter, hclaims]

/-- A run that only moves on. -/
theorem Sound.gotoRun (run' : ReconcileRun) (hs : Sound s)
    (hrun : s.runs.find claimToken = some run)
    (htodo : ∀ row ∈ run'.todo, row ∈ run.todo) {stage : ReconcileStage}
    (hstage : StageSound s stage) : Sound (s.gotoRun run' stage) := by
  refine hs.run { run' with stage := stage } hrun htodo rfl rfl rfl rfl rfl ?_ ?_ ?_ ?_ ?_
  · exact fun hrow => ⟨_, hrow, rfl⟩
  · exact Or.inl
  · exact fun object hobject => hobject
  · exact fun object hobject => Or.inl hobject
  · exact hstage.later (later_of_same rfl rfl rfl rfl) fun hremoving => by
      rw [hremoving] at hstage
      exact hstage.2.2

/-- A run removes the ledger row of an object that is a locator, or that its attempt is past. -/
theorem Sound.deleteClaimed (hs : Sound s) (hrun : s.runs.find claimToken = some run)
    (hrow : s.locator row.object = true ∨
      RowSound s row ∧ RowPast s row ∧ row.object ∉ s.objects) {stage : ReconcileStage}
    (hstage : StageSound s stage) : Sound ((s.deleteClaimed run row).gotoRun run stage) := by
  refine hs.run { run with stage := stage } hrun (fun _ h => h) rfl rfl rfl rfl rfl
    ?_ ?_ ?_ ?_ ?_
  · exact fun hfound => ⟨_, claims_delete_rows hfound, rfl⟩
  · intro object hsome
    rcases claims_delete_kept run row hsome with hkept | rfl
    · exact Or.inl hkept
    · rcases hrow with hlocator | ⟨hsound, hpast, hgone⟩
      · exact Or.inr (Or.inl hlocator)
      · exact Or.inr (Or.inr ⟨row, rfl, hsound, hpast, hgone⟩)
  · exact fun object hobject => hobject
  · exact fun object hobject => Or.inl hobject
  · exact hstage.later (later_of_same rfl rfl rfl rfl) fun hremoving => by
      rw [hremoving] at hstage
      exact hstage.2.2

theorem Sound.setClaim {claim : Option LedgerClaim} (hs : Sound s)
    (hrun : s.runs.find claimToken = some run) {stage : ReconcileStage}
    (hstage : StageSound s stage) : Sound ((s.setClaim run row claim).gotoRun run stage) := by
  refine hs.run { run with stage := stage } hrun (fun _ h => h) rfl rfl rfl rfl rfl
    ?_ ?_ ?_ ?_ ?_
  · exact fun hfound => claims_update_rows hfound
  · exact fun hsome => Or.inl (claims_update_kept hsome)
  · exact fun object hobject => hobject
  · exact fun object hobject => Or.inl hobject
  · exact hstage.later (later_of_same rfl rfl rfl rfl) fun hremoving => by
      rw [hremoving] at hstage
      exact hstage.2.2

/-- A run deletes the object of an abandoned row. -/
theorem Sound.reclaim (hs : Sound s) (hrun : s.runs.find claimToken = some run)
    (hlost : Lost s row.object) (hrow : RowSound s row) (hpast : RowPast s row)
    {stage : ReconcileStage} (hstage : stage = .removing row ∨ stage = .failing row) :
    Sound (LedgerSystem.gotoRun
      { s.deleteObject row.object with reclaimed := row.object :: s.reclaimed } run stage) := by
  refine hs.run { run with stage := stage } hrun (fun _ h => h) rfl rfl rfl rfl rfl
    ?_ ?_ ?_ ?_ ?_
  · exact fun hfound => ⟨_, hfound, rfl⟩
  · exact Or.inl
  · exact fun object hobject => (List.mem_filter.mp hobject).1
  · intro object hobject
    rcases List.mem_cons.mp hobject with rfl | hold
    · exact Or.inr hlost
    · exact Or.inl hold
  · have hlater : Later s (LedgerSystem.gotoRun
        { s.deleteObject row.object with reclaimed := row.object :: s.reclaimed } run stage) :=
      later_of_same rfl rfl rfl rfl
    rcases hstage with rfl | rfl
    · refine ⟨hrow.later hlater, hpast.later hlater, ?_⟩
      exact fun hmem => by simpa using (List.mem_filter.mp hmem).2
    · trivial

theorem stageSound_afterClaimed (reply : Reply) : StageSound s (s.afterClaimed run row reply) := by
  unfold afterClaimed
  split <;> trivial

/-- The attempt of a row that no upload is still to store is past it. -/
theorem RowSound.past (h : RowSound s row) (hstoring : s.storing row.attempt row.owner = false) :
    RowPast s row := by
  obtain ⟨attempt, artifact, hattempt, -, -, -, hbegun⟩ := h
  refine ⟨attempt, hattempt, hbegun, ?_⟩
  intro item hitem heq
  have hstores : s.storing row.attempt row.owner = true := by
    rcases hitem with hitem | hitem <;> simp [storing, hattempt, hitem, heq]
  rw [hstores] at hstoring
  cases hstoring

theorem Sound.advanceRun (hs : Sound s) (hrun : s.runs.find claimToken = some run)
    (hok : ∀ {row}, run.stage = .decided row .abandoned →
      s.storing row.attempt row.owner = false) (reply : Reply) :
    Sound (s.advanceRun run reply) := by
  obtain ⟨htodo, hstage⟩ := hs.runs hrun
  unfold LedgerSystem.advanceRun
  split
  next hnext =>
    split
    · exact hs
    next row rest hrows =>
      have hrow : RowSound s row := htodo row (by simp [hrows])
      have hrest : ∀ row ∈ rest, row ∈ run.todo := fun row hrow => by simp [hrows, hrow]
      split
      · refine hs.gotoRun { run with todo := rest } hrun hrest ?_
        exact ⟨hrow, disposition_sound hs hrow⟩
      · exact hs.gotoRun { run with todo := rest } hrun hrest trivial
  next row hdecided =>
    split
    · exact hs.setClaim hrun (stageSound_afterClaimed reply)
    · exact hs.gotoRun run hrun (fun _ h => h) (stageSound_afterClaimed reply)
  next row hdecided =>
    rw [hdecided] at hstage
    split
    · exact hs.deleteClaimed hrun (Or.inl (hstage.2.1 rfl)) (stageSound_afterClaimed reply)
    · exact hs.gotoRun run hrun (fun _ h => h) (stageSound_afterClaimed reply)
  next row hdecided =>
    have hpast := fun hrow : RowSound s row => hrow.past (hok hdecided)
    rw [hdecided] at hstage
    obtain ⟨hrow, -, hlost⟩ := hstage
    split
    · exact hs.reclaim hrun (hlost rfl) hrow (hpast hrow) (Or.inl rfl)
    · exact hs.reclaim hrun (hlost rfl) hrow (hpast hrow) (Or.inr rfl)
    · exact hs.gotoRun run hrun (fun _ h => h) trivial
  next row hremoving =>
    rw [hremoving] at hstage
    split
    · exact hs.deleteClaimed hrun (Or.inr hstage) (stageSound_afterClaimed reply)
    · exact hs.gotoRun run hrun (fun _ h => h) (stageSound_afterClaimed reply)
  next row hfailing =>
    split
    · exact hs.setClaim hrun trivial
    · exact hs.gotoRun run hrun (fun _ h => h) trivial

end Reconcile

/-- A run claims rows and keeps what it has read of them. -/
theorem Sound.claimOrphans (hs : Sound s) (claimToken : ℕ) (chosen : List RemoteObject) :
    Sound (s.claimOrphans claimToken chosen) := by
  have hlater : Later s (s.claimOrphans claimToken chosen) := later_of_same rfl rfl rfl rfl
  have hfind : ∀ object, (s.claimOrphans claimToken chosen).ledger.find object =
      (s.ledger.find object).map fun row =>
        if s.claimable row && chosen.contains row.object then
          { row with claim := some ⟨.run claimToken, s.now⟩ } else row := by
    intro object
    simp only [LedgerSystem.claimOrphans]
    rw [Table.find_update]
  constructor
  · exact hs.leases.congr rfl rfl rfl
  · exact hs.names
  · intro token attempt hattempt
    have hsound := hs.attempts hattempt
    refine ⟨hsound.nodup, hsound.items, ?_, hsound.cleared⟩
    intro item hitem
    rw [hfind, Option.isSome_map]
    exact hsound.window item hitem
  · exact fun hartifact hverified =>
      (hs.locators hartifact hverified).later hlater rfl rfl rfl rfl rfl rfl
  · intro object row hrow
    rw [hfind, Option.map_eq_some_iff] at hrow
    obtain ⟨row₀, hrow₀, rfl⟩ := hrow
    have hsound := (hs.ledger hrow₀).later hlater
    split <;> exact hsound
  · intro token run hrun
    rcases Table.find_insert hrun with hold | ⟨-, rfl⟩
    · obtain ⟨htodo, hstage⟩ := hs.runs hold
      refine ⟨fun row hrow => (htodo row hrow).later hlater, hstage.later hlater ?_⟩
      intro row hremoving
      rw [hremoving] at hstage
      exact hstage.2.2
    · refine ⟨fun row hrow => ?_, trivial⟩
      have hmem : row ∈ s.ledger := (List.mem_filter.mp hrow).1
      exact (hs.ledger (Table.find_eq_some.mpr ⟨hmem, rfl⟩)).later hlater
  · exact fun object hobject => (hs.reclaimed object hobject).later hlater
  · intro object hobject
    rcases hs.tracked object hobject with hlocator | hsome
    · exact Or.inl (hlater.locators hlocator)
    · right
      rw [hfind, Option.isSome_map]
      exact hsome

/-! ### Every step -/

/-- The step of a job; the artifacts may get a new status. -/
theorem Sound.job_step {op : LedgerOp} {id : ℕ} {phase : LeasePhase}
    {f : CaptureJob → LedgerSystem} (hs : Sound s) (hop : s.step op = s.withJob id phase f)
    (hquiet : ∀ job, Quiet s (f job))
    (hnames : ∀ job, (f job).artifacts = s.artifacts ∨ ∃ point, f job =
      (s.endJob job).failLinked point) : Sound (s.step op) := by
  have hcases : s.step op = s ∨ ∃ job, s.step op = f job := by
    rw [hop, withJob]
    split
    · exact Or.inl rfl
    next job _ =>
      split
      · exact Or.inr ⟨job, rfl⟩
      · exact Or.inl rfl
  rcases hcases with heq | ⟨job, heq⟩
  · rw [heq]
    exact hs
  · refine hs.quiet_step (heq ▸ hquiet job) ?_
    rw [heq]
    rcases hnames job with hsame | ⟨point, hfail⟩
    · rw [DistinctKeys, hsame]
      exact hs.names
    · rw [hfail]
      exact names_update (f := fun row => { row with status := .failed }) (fun _ => rfl) hs
        (fun _ => ⟨rfl, rfl, rfl, rfl, rfl, rfl, rfl⟩) rfl

theorem sound_step (s : LedgerSystem) (op : LedgerOp) (hok : ledgerCondition s op = true)
    (hs : Sound s) : Sound (s.step op) := by
  have hsame : ∀ {s' : LedgerSystem}, s'.artifacts = s.artifacts → s'.ledger = s.ledger →
      s'.objects = s.objects → s'.runs = s.runs → s'.reclaimed = s.reclaimed →
      s'.attempts = s.attempts → Quiet s s' := fun ha hl ho hr hc ht =>
    quiet_same ha hl ho hr hc (fun h => ht ▸ h) fun h => Or.inl (ht ▸ h)
  cases op with
  | createPoint point backupTarget =>
    exact hs.quiet_step (hsame rfl rfl rfl rfl rfl rfl) hs.names
  | planArtifact point artifact source =>
    have hunused : s.storageKeyUsed point source = false := by simpa [ledgerCondition] using hok
    cases hpoint : s.points.find point with
    | none =>
      have heq : s.step (.planArtifact point artifact source) = s := by simp [step, hpoint]
      rw [heq]
      exact hs
    | some row =>
      have heq : s.step (.planArtifact point artifact source) =
          s.addArtifact artifact point source (some row.backupTarget) := by simp [step, hpoint]
      exact hs.quiet_step (heq ▸ quiet_addArtifact ..) (by rw [heq]; exact names_addArtifact hs hunused)
  | enqueueCapture job point =>
    refine hs.quiet_step ?_ ?_
    · simp only [step]
      split
      · exact quiet_refl s
      · split
        · exact quiet_refl s
        · exact hsame rfl rfl rfl rfl rfl rfl
    · simp only [step]
      split
      · exact hs.names
      · split <;> exact hs.names
  | claimJob id =>
    exact hs.job_step rfl (fun _ => hsame rfl rfl rfl rfl rfl rfl) fun _ => Or.inl rfl
  | expireLease id =>
    exact hs.job_step rfl (fun _ => hsame rfl rfl rfl rfl rfl rfl) fun _ => Or.inl rfl
  | recoverExpiredJob id =>
    exact hs.job_step rfl (fun job => quiet_fail job job.point) fun job => Or.inr ⟨_, rfl⟩
  | failJob id =>
    exact hs.job_step rfl (fun job => quiet_fail job job.point) fun job => Or.inr ⟨_, rfl⟩
  | completeJob id =>
    exact hs.job_step rfl (fun _ => hsame rfl rfl rfl rfl rfl rfl) fun _ => Or.inl rfl
  | cancelQueuedJob id =>
    exact hs.job_step rfl (fun job => quiet_fail job job.point) fun job => Or.inr ⟨_, rfl⟩
  | claimDeletion point =>
    refine hs.quiet_step ?_ ?_
    · simp only [step]
      split
      · exact quiet_refl s
      · split
        · exact quiet_refl s
        · exact hsame rfl rfl rfl rfl rfl rfl
    · simp only [step]
      split
      · exact hs.names
      · split <;> exact hs.names
  | startCapture token id =>
    cases hfresh : s.attempts.find token with
    | some _ =>
      have heq : s.step (.startCapture token id) = s := by simp [step, hfresh]
      rw [heq]
      exact hs
    | none =>
      have heq : s.step (.startCapture token id) = s.withJob id .leased (s.startCapture token) := by
        simp [step, hfresh]
      exact hs.job_step heq (fun _ => quiet_startCapture) fun job =>
        Or.inl (startCapture_artifacts s token job)
  | insertArtifact token artifact source =>
    refine hs.quiet_step ?_ ?_
    · refine withAttempt_rule (P := Quiet s) (quiet_refl s) fun attempt hattempt => ?_
      split
      · exact quiet_addArtifact ..
      · exact quiet_refl s
    · refine withAttempt_rule (P := DistinctKeys) hs.names fun attempt hattempt => ?_
      have hunused : s.storageKeyUsed attempt.point source = false := by
        simpa [ledgerCondition, hattempt] using hok
      split
      · exact names_addArtifact hs hunused
      · exact hs.names
  | setArtifactStatus token artifact status =>
    refine hs.quiet_step ?_ ?_
    · refine withAttempt_rule (P := Quiet s) (quiet_refl s) fun attempt hattempt => ?_
      split
      · exact quiet_update (f := fun row => { row with status := status }) (fun _ => rfl) rfl
          (fun _ => ⟨rfl, rfl, rfl, rfl, rfl, rfl, rfl⟩) rfl rfl rfl rfl rfl
      · exact quiet_refl s
    · refine withAttempt_rule (P := DistinctKeys) hs.names fun attempt hattempt => ?_
      split
      · exact names_update (f := fun row => { row with status := status }) (fun _ => rfl) hs
          (fun _ => ⟨rfl, rfl, rfl, rfl, rfl, rfl, rfl⟩) rfl
      · exact hs.names
  | captureThrows token =>
    refine withAttempt_rule (P := Sound) hs fun attempt hattempt => ?_
    split
    next hstage =>
      exact hs.upload hattempt (captureThrows_moves hstage) (captureThrows_effect hstage)
        (by simp [keepsLocators, hstage])
    · exact hs
  | upload token reply =>
    refine withAttempt_rule (P := Sound) hs fun attempt hattempt => ?_
    have hkeeps : s.keepsLocators attempt = true := by
      simpa [ledgerCondition, hattempt] using hok
    rcases advanceUpload_cases s attempt reply with hsame | ⟨next, s₁, hmoves, heffect, hstep⟩
    · rw [hsame]
      exact hs
    · rw [hstep]
      exact hs.upload hattempt hmoves heffect hkeeps
  | claimOrphans claimToken chosen =>
    simp only [step]
    split
    · exact hs
    · exact hs.claimOrphans claimToken chosen
  | reconcile claimToken reply =>
    simp only [step]
    split
    · exact hs
    next run hrun =>
      refine hs.advanceRun hrun ?_ reply
      intro row hstage
      simpa [ledgerCondition, hrun, hstage] using hok
  | tick => exact hs.quiet_step (hsame rfl rfl rfl rfl rfl rfl) hs.names

end LedgerSystem

/-! ### The claim -/

open LedgerSystem

/-- In every run whose steps meet the condition, no reconciler deletes the object of a verified
    locator, before or after its commit, and every object that is no locator has a ledger row. -/
theorem remote_ledger_safe (ops : List LedgerOp)
    (hops : Meets LedgerSystem.step (fun s op => ledgerCondition s op = true) initial ops) :
    Safe (exec LedgerSystem.step initial ops) :=
  (exec_invariant_of_meets sound_step sound_initial hops).safe

/-- One artifact is stored and committed, then a run finds nothing to do. -/
def committedRun : List LedgerOp :=
  [.createPoint 1 7, .planArtifact 1 10 .metadata, .enqueueCapture 100 1, .claimJob 100,
    .startCapture 50 100, .setArtifactStatus 50 10 .completed] ++
  List.replicate 7 (.upload 50 .done) ++ [.claimOrphans 900 [], .reconcile 900 .done]

theorem committedRun_safe : (exec LedgerSystem.step initial committedRun).locator
      ⟨7, ⟨1, 50, "manifest.json"⟩⟩ = true ∧ Safe (exec LedgerSystem.step initial committedRun) :=
  ⟨by decide +kernel, remote_ledger_safe committedRun (by decide +kernel)⟩

/-- The worker stalls after its last check of the lease.  The lease expires, the point fails, a
    reconciler removes the intent, and then the object is stored. -/
def lateUpload : List LedgerOp :=
  [.createPoint 1 7, .planArtifact 1 10 .metadata, .enqueueCapture 100 1, .claimJob 100,
    .startCapture 50 100, .setArtifactStatus 50 10 .completed] ++
  List.replicate 4 (.upload 50 .done) ++ [.expireLease 100, .recoverExpiredJob 100] ++
  List.replicate 6 .tick ++ [.claimOrphans 900 [⟨7, ⟨1, 50, "manifest.json"⟩⟩]] ++
  List.replicate 3 (.reconcile 900 .done) ++ [.upload 50 .done]

/-- Two folders of one application have the same storage key.  The second of them is left behind by
    a lost lease, and its intent lets a reconciler delete the locator of the first. -/
def sharedStorageKey : List LedgerOp :=
  [.createPoint 1 7, .planArtifact 1 10 (.hostFolder "/srv/a_b"),
    .planArtifact 1 11 (.hostFolder "/srv/a/b"), .enqueueCapture 100 1, .claimJob 100,
    .startCapture 50 100, .setArtifactStatus 50 10 .completed,
    .setArtifactStatus 50 11 .completed] ++
  List.replicate 10 (.upload 50 .done) ++ [.expireLease 100, .recoverExpiredJob 100] ++
  List.replicate 6 .tick ++ [.claimOrphans 900 [⟨7, ⟨1, 50, "binds/srv_a_b.tar.gz"⟩⟩]] ++
  List.replicate 2 (.reconcile 900 .done)

theorem ledger_not_safe :
    (∃ object ∈ (exec LedgerSystem.step initial sharedStorageKey).reclaimed,
      (exec LedgerSystem.step initial sharedStorageKey).locator object = true) ∧
    ¬(∀ ops, Safe (exec LedgerSystem.step initial ops)) := by
  refine ⟨⟨⟨7, ⟨1, 50, "binds/srv_a_b.tar.gz"⟩⟩, by decide +kernel, by decide +kernel⟩, ?_⟩
  intro h
  have htracked := (h lateUpload).tracked ⟨7, ⟨1, 50, "manifest.json"⟩⟩ (by decide +kernel)
  revert htracked
  decide +kernel

end ComposeBastion
