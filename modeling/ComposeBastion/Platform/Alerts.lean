import ComposeBastion.Jobs.Model
import ComposeBastion.Lib.Runs

namespace ComposeBastion

open Runs

/-!
# Alert checks

`services/alerts.ts`: `runAlertChecks` evaluates every enabled rule, writes the new state into the
rule's row, and then sends at most one message for it.  The row is the only memory the next pass
has: `last_state`, which is written before the delivery, and `last_notified_at`, which both kinds
of message set.

* `runAlertCheck` — one round of the loop, with the outcome of the evaluation, the silence in
  force and the outcome of `sendChannel` as inputs;
* `runAlertChecks` — one pass; `history` — what a sequence of passes does for one rule;
* `Paired` — alerts and recoveries alternate, and a recovery is tried until it is delivered;
* `KeepsPairing` — the checks after which the row still says whether a recovery is owed.
-/

/-! ### Rules and checks -/

/-- `alert_rules.last_state`. -/
inductive AlertState
  | ok | triggered
  deriving DecidableEq, Repr

/-- A row of `alert_rules`, as far as the checks read and write it. -/
structure AlertRule where
  id : Id
  name : String
  enabled : Bool
  lastState : Option AlertState
  lastCheckedAt : Option Time
  lastNotifiedAt : Option Time
  lastError : Option String
  breachingSince : Option Time
  deriving DecidableEq, Repr

/-- What a condition evaluates to. -/
structure Evaluation where
  triggered : Bool
  message : String
  nextBreachingSince : Option Time
  deriving DecidableEq, Repr

/-- What one check meets: the evaluation of its condition, the name of the silence in force, the
    time, and what becomes of a call of `sendChannel`. -/
structure CheckInput where
  evaluation : Except String Evaluation
  silence : Option String
  now : Time
  delivery : Except String Unit

/-- A row of `alert_events`. -/
structure AlertEvent where
  state : String
  message : String
  notified : Bool
  silenced : Bool
  error : Option String
  deriving DecidableEq, Repr

inductive NoticeKind
  | alert | recovered
  deriving DecidableEq, Repr

/-- A call of `sendChannel` and its outcome. -/
structure Notice where
  kind : NoticeKind
  subject : String
  message : String
  delivered : Bool
  deriving DecidableEq, Repr

/-- What a check leaves behind. -/
structure CheckOutcome where
  rule : AlertRule
  notices : List Notice
  events : List AlertEvent
  deriving DecidableEq, Repr

/-- The name of a state in `alert_events`. -/
def AlertState.text : AlertState → String
  | ok => "ok"
  | triggered => "triggered"

/-- `triggered ? "triggered" : "ok"`. -/
def Evaluation.nextState (e : Evaluation) : AlertState := if e.triggered then .triggered else .ok

/-- `!row.last_notified_at || Date.now() - row.last_notified_at > 15 * 60_000`. -/
def cooledDown (rule : AlertRule) (now : Time) : Bool :=
  match rule.lastNotifiedAt with
  | none => true
  | some lastNotifiedAt => seconds (15 * 60) < now - lastNotifiedAt

/-- `shouldNotify`. -/
def shouldNotify (rule : AlertRule) (e : Evaluation) (input : CheckInput) : Bool :=
  input.silence.isNone && e.triggered && cooledDown rule input.now

/-- `recovered`. -/
def recovered (rule : AlertRule) (e : Evaluation) (input : CheckInput) : Bool :=
  input.silence.isNone && rule.lastState = some .triggered && e.nextState = .ok
    && rule.lastNotifiedAt.isSome

/-- The first `UPDATE` of a check. -/
def checkedRule (rule : AlertRule) (e : Evaluation) (now : Time) : AlertRule :=
  { rule with
    lastCheckedAt := some now
    lastState := some e.nextState
    lastError := none
    breachingSince := e.nextBreachingSince }

/-- The event a check records. -/
def checkEvent (rule : AlertRule) (e : Evaluation) (input : CheckInput) (notified : Bool) :
    AlertEvent where
  state := e.nextState.text
  message :=
    let text := if e.message = "" then rule.name else e.message
    match input.silence with
    | some name => text ++ " (silenced by " ++ name ++ ")"
    | none => text
  notified := notified
  silenced := input.silence.isSome
  error := none

/-- The `catch` of the loop. -/
def failedCheck (rule : AlertRule) (notices : List Notice) (message : String) : CheckOutcome :=
  ⟨{ rule with lastError := some message }, notices,
    [⟨"error", message, false, false, some message⟩]⟩

/-- A message is sent; `last_notified_at` is set when `sendChannel` returns. -/
def sendNotice (rule : AlertRule) (e : Evaluation) (input : CheckInput) (kind : NoticeKind)
    (subject message : String) : CheckOutcome :=
  let checked := checkedRule rule e input.now
  match input.delivery with
  | .error error => failedCheck checked [⟨kind, subject, message, false⟩] error
  | .ok _ => ⟨{ checked with lastNotifiedAt := some input.now }, [⟨kind, subject, message, true⟩],
      [checkEvent rule e input true]⟩

/-- One round of the loop of `runAlertChecks`. -/
def runAlertCheck (rule : AlertRule) (input : CheckInput) : CheckOutcome :=
  match input.evaluation with
  | .error error => failedCheck rule [] error
  | .ok e =>
    if shouldNotify rule e input then
      sendNotice rule e input .alert ("ComposeBastion alert: " ++ rule.name) e.message
    else if recovered rule e input then
      sendNotice rule e input .recovered ("ComposeBastion recovered: " ++ rule.name)
        (rule.name ++ " recovered.")
    else ⟨checkedRule rule e input.now, [],
      if rule.lastState ≠ some e.nextState ∨ input.silence.isSome then
        [checkEvent rule e input false]
      else []⟩

/-- `alert_rules`. -/
abbrev AlertRules := Table AlertRule AlertRule.id

/-- What the checks of one pass meet, rule by rule. -/
abbrev AlertPass := Id → CheckInput

theorem runAlertCheck_id (rule : AlertRule) (input : CheckInput) :
    (runAlertCheck rule input).rule.id = rule.id := by
  unfold runAlertCheck sendNotice
  repeat' split
  all_goals rfl

/-- `runAlertChecks`: every enabled rule is checked once, on the row the pass has read. -/
def runAlertChecks (rules : AlertRules) (pass : AlertPass) : AlertRules :=
  rules.update (fun rule => rule.enabled) (fun rule => (runAlertCheck rule (pass rule.id)).rule)
    fun rule => runAlertCheck_id rule (pass rule.id)

/-! ### Histories -/

/-- What the history of a rule keeps of a check: whether it found the rule in order while no
    silence was in force, and the messages it sent. -/
structure CheckRecord where
  unsilencedOk : Bool
  notices : List Notice
  deriving DecidableEq, Repr

/-- A message of this kind was delivered. -/
def CheckRecord.delivered (r : CheckRecord) (kind : NoticeKind) : Bool :=
  r.notices.any fun notice => notice.kind = kind && notice.delivered

/-- A message of this kind was attempted. -/
def CheckRecord.attempted (r : CheckRecord) (kind : NoticeKind) : Bool :=
  r.notices.any fun notice => notice.kind = kind

/-- The record of a check. -/
def checkRecord (rule : AlertRule) (input : CheckInput) : CheckRecord where
  unsilencedOk := match input.evaluation with
    | .ok e => e.nextState = .ok && input.silence.isNone
    | .error _ => false
  notices := (runAlertCheck rule input).notices

/-- The records a pass adds to the history of a rule. -/
def passRecords (id : Id) (rules : AlertRules) (pass : AlertPass) (_ : AlertRules) :
    List CheckRecord :=
  match rules.find id with
  | some rule => if rule.enabled then [checkRecord rule (pass id)] else []
  | none => []

/-- The history of a rule over a sequence of passes. -/
def history (id : Id) (rules : AlertRules) (passes : List AlertPass) : List CheckRecord :=
  observe (passRecords id) runAlertChecks rules passes

/-- Whether a recovery is owed after a check: since an alert was delivered, no recovery was. -/
def owedAfter (owed : Bool) (r : CheckRecord) : Bool :=
  r.delivered .alert || (owed && !r.delivered .recovered)

/-- A recovery is delivered only when one is owed, and an unsilenced check that finds the rule in
    order tries to deliver the one that is. -/
def RecordPaired (owed : Bool) (r : CheckRecord) : Prop :=
  (r.delivered .recovered = true → owed = true)
    ∧ (r.unsilencedOk = true → owed = true → r.attempted .recovered = true)

instance (owed : Bool) (r : CheckRecord) : Decidable (RecordPaired owed r) :=
  inferInstanceAs (Decidable (_ ∧ _))

/-- **Alerts and recoveries are paired** throughout a history. -/
def Paired : Bool → List CheckRecord → Prop
  | _, [] => True
  | owed, r :: rs => RecordPaired owed r ∧ Paired (owedAfter owed r) rs

instance Paired.decidable : ∀ (owed : Bool) (rs : List CheckRecord), Decidable (Paired owed rs)
  | _, [] => isTrue trivial
  | owed, r :: rs => @instDecidableAnd _ _ _ (Paired.decidable (owedAfter owed r) rs)

theorem paired_append {owed : Bool} {rs rs' : List CheckRecord} :
    Paired owed (rs ++ rs') ↔ Paired owed rs ∧ Paired (rs.foldl owedAfter owed) rs' := by
  induction rs generalizing owed with
  | nil => simp [Paired]
  | cons r rs ih =>
    rw [List.cons_append, Paired, Paired, ih, List.foldl_cons, and_assoc]

/-! ### What the row remembers -/

/-- The row says that a recovery is owed. -/
def AlertRule.owes (rule : AlertRule) : Bool :=
  rule.lastState = some .triggered && rule.lastNotifiedAt.isSome

/-- An evaluation after which the row still says whether a recovery is owed: one that finds a rule
    with an owed recovery in order delivers it, and one that finds a recovered rule triggered
    again delivers the alert. -/
def EvaluationKeepsPairing (rule : AlertRule) (input : CheckInput) (e : Evaluation) : Prop :=
  if e.triggered then
    rule.lastState ≠ some .triggered → rule.lastNotifiedAt.isSome →
      input.silence = none ∧ cooledDown rule input.now ∧ input.delivery.toBool
  else rule.owes → input.silence = none ∧ input.delivery.toBool

instance (rule : AlertRule) (input : CheckInput) (e : Evaluation) :
    Decidable (EvaluationKeepsPairing rule input e) :=
  inferInstanceAs (Decidable (if e.triggered then
    rule.lastState ≠ some .triggered → rule.lastNotifiedAt.isSome →
      input.silence = none ∧ cooledDown rule input.now ∧ input.delivery.toBool
    else rule.owes → input.silence = none ∧ input.delivery.toBool))

/-- The checks after which the row still says whether a recovery is owed. -/
def KeepsPairing (rule : AlertRule) (input : CheckInput) : Prop :=
  match input.evaluation with
  | .error _ => True
  | .ok e => EvaluationKeepsPairing rule input e

instance : ∀ (rule : AlertRule) (input : CheckInput), Decidable (KeepsPairing rule input)
  | _, ⟨.error _, _, _, _⟩ => isTrue trivial
  | rule, ⟨.ok e, silence, now, delivery⟩ =>
    inferInstanceAs (Decidable (EvaluationKeepsPairing rule ⟨.ok e, silence, now, delivery⟩ e))

/-- The check a pass makes of the rule `id` keeps the pairing. -/
def PassKeepsPairing (id : Id) (rules : AlertRules) (pass : AlertPass) : Prop :=
  ∀ rule ∈ rules.rows, rule.id = id → rule.enabled → KeepsPairing rule (pass id)

instance (id : Id) (rules : AlertRules) (pass : AlertPass) :
    Decidable (PassKeepsPairing id rules pass) :=
  inferInstanceAs (Decidable (∀ rule ∈ rules.rows, rule.id = id → rule.enabled →
    KeepsPairing rule (pass id)))

theorem owes_iff {rule : AlertRule} :
    rule.owes = true ↔ rule.lastState = some .triggered ∧ rule.lastNotifiedAt.isSome = true := by
  simp [AlertRule.owes]

theorem owes_eq_notified {rule : AlertRule}
    (h : rule.lastNotifiedAt.isSome = true → rule.lastState = some .triggered) :
    rule.owes = rule.lastNotifiedAt.isSome :=
  Bool.eq_iff_iff.mpr ⟨fun ho => (owes_iff.mp ho).2, fun hn => owes_iff.mpr ⟨h hn, hn⟩⟩

theorem owes_checkedRule (rule : AlertRule) (e : Evaluation) (now : Time) :
    (checkedRule rule e now).owes = (e.triggered && rule.lastNotifiedAt.isSome) := by
  cases h : e.triggered <;> simp [AlertRule.owes, checkedRule, Evaluation.nextState, h]

theorem owes_notified (rule : AlertRule) (e : Evaluation) (now now' : Time) :
    { checkedRule rule e now with lastNotifiedAt := some now' }.owes = e.triggered := by
  cases h : e.triggered <;> simp [AlertRule.owes, checkedRule, Evaluation.nextState, h]

/-- What a check remembers in the row when it sends a message. -/
theorem owes_sendNotice (rule : AlertRule) (e : Evaluation) (input : CheckInput)
    (kind : NoticeKind) (subject message : String) :
    (sendNotice rule e input kind subject message).rule.owes
      = (e.triggered && (input.delivery.toBool || rule.lastNotifiedAt.isSome)) := by
  unfold sendNotice
  cases input.delivery with
  | error error =>
    show (checkedRule rule e input.now).owes = _
    rw [owes_checkedRule]
    rfl
  | ok u => exact (owes_notified ..).trans (Bool.and_true _).symm

theorem notices_sendNotice (rule : AlertRule) (e : Evaluation) (input : CheckInput)
    (kind : NoticeKind) (subject message : String) :
    (sendNotice rule e input kind subject message).notices
      = [⟨kind, subject, message, input.delivery.toBool⟩] := by
  unfold sendNotice
  cases input.delivery <;> rfl

/-- The row and the record of a check, in terms of what is owed. -/
def CheckPaired (rule : AlertRule) (input : CheckInput) : Prop :=
  RecordPaired rule.owes (checkRecord rule input)
    ∧ (runAlertCheck rule input).rule.owes = owedAfter rule.owes (checkRecord rule input)

/-- A check that tries to deliver an alert. -/
theorem alert_paired {rule : AlertRule} {input : CheckInput} {e : Evaluation}
    (he : input.evaluation = .ok e) (h : EvaluationKeepsPairing rule input e)
    (hnotify : shouldNotify rule e input = true) : CheckPaired rule input := by
  have htriggered : e.triggered = true := by
    simp only [shouldNotify, Bool.and_eq_true] at hnotify
    exact hnotify.1.2
  have hrun : runAlertCheck rule input
      = sendNotice rule e input .alert ("ComposeBastion alert: " ++ rule.name) e.message := by
    simp [runAlertCheck, he, hnotify]
  rw [EvaluationKeepsPairing, if_pos htriggered] at h
  unfold CheckPaired checkRecord
  rw [hrun, notices_sendNotice, owes_sendNotice, htriggered]
  refine ⟨by simp [RecordPaired, CheckRecord.delivered, he, Evaluation.nextState, htriggered], ?_⟩
  -- a delivery settles both sides; without one, the row was in `triggered` or had no notice yet
  cases hd : input.delivery.toBool with
  | true => simp [owedAfter, CheckRecord.delivered]
  | false =>
    have hstate : rule.lastNotifiedAt.isSome = true → rule.lastState = some .triggered := by
      intro hnotified
      by_contra hne
      simp [(h hne hnotified).2.2] at hd
    have howes := owes_eq_notified hstate
    simp [owedAfter, CheckRecord.delivered, howes]

/-- A check that tries to deliver a recovery. -/
theorem recovered_paired {rule : AlertRule} {input : CheckInput} {e : Evaluation}
    (he : input.evaluation = .ok e) (h : EvaluationKeepsPairing rule input e)
    (hnotify : shouldNotify rule e input = false) (hrecovered : recovered rule e input = true) :
    CheckPaired rule input := by
  have hrun : runAlertCheck rule input
      = sendNotice rule e input .recovered ("ComposeBastion recovered: " ++ rule.name)
          (rule.name ++ " recovered.") := by
    simp [runAlertCheck, he, hnotify, hrecovered]
  simp only [recovered, Bool.and_eq_true, decide_eq_true_eq] at hrecovered
  obtain ⟨⟨⟨-, hstate⟩, hok⟩, hnotified⟩ := hrecovered
  have htriggered : e.triggered = false := by
    by_contra hne
    simp [Evaluation.nextState, hne] at hok
  have howes : rule.owes = true := owes_iff.mpr ⟨hstate, hnotified⟩
  rw [EvaluationKeepsPairing, htriggered, if_neg Bool.false_ne_true] at h
  unfold CheckPaired checkRecord
  rw [hrun, notices_sendNotice, owes_sendNotice, htriggered, howes, (h howes).2]
  simp [RecordPaired, owedAfter, CheckRecord.delivered, CheckRecord.attempted]

/-- A check that sends nothing. -/
theorem silent_paired {rule : AlertRule} {input : CheckInput} {e : Evaluation}
    (he : input.evaluation = .ok e) (h : EvaluationKeepsPairing rule input e)
    (hnotify : shouldNotify rule e input = false) (hrecovered : recovered rule e input = false) :
    CheckPaired rule input := by
  have hnotices : (runAlertCheck rule input).notices = [] := by
    simp [runAlertCheck, he, hnotify, hrecovered]
  have hrow : (runAlertCheck rule input).rule.owes = (e.triggered && rule.lastNotifiedAt.isSome) := by
    simp [runAlertCheck, he, hnotify, hrecovered, owes_checkedRule]
  unfold CheckPaired checkRecord
  rw [hnotices, hrow]
  cases htriggered : e.triggered with
  | true =>
    rw [EvaluationKeepsPairing, if_pos htriggered] at h
    have hstate : rule.lastNotifiedAt.isSome = true → rule.lastState = some .triggered := by
      intro hnotified
      by_contra hne
      obtain ⟨hsilence, hcooled, -⟩ := h hne hnotified
      simp [shouldNotify, htriggered, hsilence, hcooled] at hnotify
    have howes := owes_eq_notified hstate
    simp [RecordPaired, owedAfter, CheckRecord.delivered, howes, he, Evaluation.nextState,
      htriggered]
  | false =>
    rw [EvaluationKeepsPairing, htriggered, if_neg Bool.false_ne_true] at h
    have howes : rule.owes = false := by
      by_contra hne
      rw [Bool.not_eq_false] at hne
      obtain ⟨hstate, hnotified⟩ := owes_iff.mp hne
      simp [recovered, (h hne).1, hstate, hnotified, Evaluation.nextState, htriggered]
        at hrecovered
    simp [RecordPaired, owedAfter, CheckRecord.delivered, howes]

/-- **One check.**  The record of a check that keeps the pairing is paired, and the row it leaves
    says what is owed. -/
theorem check_paired {rule : AlertRule} {input : CheckInput} (h : KeepsPairing rule input) :
    CheckPaired rule input := by
  unfold KeepsPairing at h
  cases he : input.evaluation with
  | error error =>
    have hrun : runAlertCheck rule input = failedCheck rule [] error := by
      simp [runAlertCheck, he]
    unfold CheckPaired checkRecord
    rw [hrun, he]
    exact ⟨by simp [RecordPaired, CheckRecord.delivered, failedCheck], by
      simp [owedAfter, CheckRecord.delivered, failedCheck, AlertRule.owes]; rfl⟩
  | ok e =>
    rw [he] at h
    cases hnotify : shouldNotify rule e input with
    | true => exact alert_paired he h hnotify
    | false =>
      cases hrecovered : recovered rule e input with
      | true => exact recovered_paired he h hnotify hrecovered
      | false => exact silent_paired he h hnotify hrecovered

/-! ### Passes -/

/-- Whether the row of the rule `id` says that a recovery is owed. -/
def owedIn (id : Id) (rules : AlertRules) : Bool := (rules.find id).any AlertRule.owes

/-- **One pass.**  The records it adds to the history of a rule are paired, and the table it
    leaves says what is owed. -/
theorem pass_paired {id : Id} {rules : AlertRules} {pass : AlertPass}
    (h : PassKeepsPairing id rules pass) :
    Paired (owedIn id rules) (passRecords id rules pass (runAlertChecks rules pass))
      ∧ owedIn id (runAlertChecks rules pass)
        = (passRecords id rules pass (runAlertChecks rules pass)).foldl owedAfter
            (owedIn id rules) := by
  have hnext : (runAlertChecks rules pass).find id = (rules.find id).map fun rule =>
      if rule.enabled then (runAlertCheck rule (pass rule.id)).rule else rule :=
    Table.find_update id
  unfold owedIn passRecords
  rw [hnext]
  cases hfind : rules.find id with
  | none => simp [Paired]
  | some rule =>
    obtain ⟨hmem, hid⟩ := Table.find_eq_some.mp hfind
    cases henabled : rule.enabled with
    | false => simp [Paired, henabled]
    | true =>
      obtain ⟨hrecord, howes⟩ := check_paired (h rule hmem hid henabled)
      simp only [Option.any_some, Option.map_some, henabled, if_true, hid, List.foldl_cons,
        List.foldl_nil]
      exact ⟨⟨hrecord, trivial⟩, howes⟩

/-- What one pass carries on, a sequence of passes does. -/
theorem history_paired {id : Id} {rules : AlertRules} {passes : List AlertPass}
    (h : Meets runAlertChecks (PassKeepsPairing id) rules passes) :
    Paired (owedIn id rules) (history id rules passes) := by
  induction passes generalizing rules with
  | nil => trivial
  | cons pass passes ih =>
    obtain ⟨hrecords, howed⟩ := pass_paired h.1
    refine paired_append.mpr ⟨hrecords, ?_⟩
    rw [← howed]
    exact ih h.2

/-- **Alert notification pairing.**  Over every sequence of passes over new rules whose checks of a
    rule keep its pairing, its alerts and recoveries are paired. -/
theorem alert_notifications_paired {id : Id} {rules : AlertRules} {passes : List AlertPass}
    (hnew : ∀ rule ∈ rules, rule.lastState = none ∧ rule.lastNotifiedAt = none)
    (hpasses : Meets runAlertChecks (PassKeepsPairing id) rules passes) :
    Paired false (history id rules passes) := by
  have howed : owedIn id rules = false := by
    unfold owedIn
    cases hfind : rules.find id with
    | none => rfl
    | some rule =>
      obtain ⟨hstate, -⟩ := hnew rule (Table.find_eq_some.mp hfind).1
      simp [AlertRule.owes, hstate]
  exact howed ▸ history_paired hpasses

/-! ### Runs -/

/-- A rule as it is created. -/
def offlineRule : AlertRule :=
  ⟨"r1", "nas", true, none, none, none, none, none⟩

def offlineRules : AlertRules := ⟨[offlineRule], by decide⟩

/-- A pass that finds the host offline. -/
def offlinePass (now : Time) : AlertPass := fun _ =>
  ⟨.ok ⟨true, "nas is offline: timeout", none⟩, none, now, .ok ()⟩

/-- A pass that finds the host online. -/
def onlinePass (delivery : Except String Unit) (now : Time) : AlertPass := fun _ =>
  ⟨.ok ⟨false, "nas is offline: No error recorded", none⟩, none, now, delivery⟩

theorem offlineRules_paired :
    (∀ rule ∈ offlineRules, rule.lastState = none ∧ rule.lastNotifiedAt = none)
      ∧ Meets runAlertChecks (PassKeepsPairing "r1") offlineRules
          [offlinePass 0, onlinePass (.ok ()) 60, offlinePass (seconds 3600)]
      ∧ Paired false (history "r1" offlineRules
          [offlinePass 0, onlinePass (.ok ()) 60, offlinePass (seconds 3600)]) := by
  have hnew : ∀ rule ∈ offlineRules, rule.lastState = none ∧ rule.lastNotifiedAt = none := by
    intro rule hrule
    rw [List.mem_singleton.mp hrule]
    exact ⟨rfl, rfl⟩
  have hpasses : Meets runAlertChecks (PassKeepsPairing "r1") offlineRules
      [offlinePass 0, onlinePass (.ok ()) 60, offlinePass (seconds 3600)] := by
    decide +kernel
  exact ⟨hnew, hpasses, alert_notifications_paired hnew hpasses⟩

/-- The host goes offline and the alert is delivered; when it is back the recovery is not, and
    the next check does not try again. -/
theorem failed_recovery_lost :
    ¬ Paired false (history "r1" offlineRules
      [offlinePass 0, onlinePass (.error "smtp timeout") 60, onlinePass (.ok ()) 120]) := by
  decide +kernel

end ComposeBastion
