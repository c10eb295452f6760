import ComposeBastion.Platform.Alerts
import ComposeBastion.Platform.HostThresholds

namespace ComposeBastion

open Runs

/-!
# Alert delivery

`services/alerts.ts`: one pass of `runAlertChecks` joins every enabled rule with its channel,
evaluates its condition, looks for a silence in force, and hands the joined row to `sendChannel`.

* `joinRow` — a row of the join.  Both tables have columns `id`, `name` and `enabled`; the row has
  one of each, the rule's;
* `evaluateCondition`, `activeSilenceForRule`, `sendChannel` — what a check reads and sends;
* `runPass` — the loop over the joined rows;
* `DeliveryDue` — the decision the rule, the silences and the evaluation lead to;
* `PassDelivers` — a pass attempts the deliveries that are due over enabled channels, each over
  its own rule's channel, and no rule is affected by what happens to another.
-/

variable {N : Type}

/-! ### Rows -/

/-- A row of `notification_channels`. -/
structure NotificationChannel where
  id : Id
  name : String
  type : String
  emailTo : Option String
  webhookUrl : Option String
  enabled : Bool
  deriving DecidableEq, Repr

/-- A row of `alert_rules`; `params` is what `hostThresholdParamsSchema` makes of the column. -/
structure AlertRuleRow (N : Type) extends AlertRule where
  condition : String
  hostId : Id
  containerId : Option String
  channelId : Id
  params : Except String (HostThresholdParams N)

/-- A row of `alert_silences`. -/
structure AlertSilence where
  name : String
  hostId : Option Id
  ruleId : Option Id
  startsAt : Time
  endsAt : Time
  createdAt : Time
  deriving DecidableEq, Repr

/-- The tables a pass reads; every rule has a channel. -/
structure AlertTables (N : Type) where
  rules : Table (AlertRuleRow N) (fun rule => rule.id)
  channels : Table NotificationChannel NotificationChannel.id
  silences : List AlertSilence
  channel_of : ∀ rule ∈ rules.rows, ∃ channel ∈ channels.rows, channel.id = rule.channelId

/-- A row of `SELECT notification_channels.*, alert_rules.*, …`. -/
structure JoinedAlertRow (N : Type) extends AlertRuleRow N where
  type : String
  emailTo : Option String
  webhookUrl : Option String
  ruleId : Id
  ruleName : String
  channelName : String

/-- The joined row of a rule and its channel.  Of two columns of one name the driver keeps the one
    selected last, so `id`, `name` and `enabled` are the rule's. -/
def joinRow (rule : AlertRuleRow N) (channel : NotificationChannel) : JoinedAlertRow N :=
  { rule with
    type := channel.type
    emailTo := channel.emailTo
    webhookUrl := channel.webhookUrl
    ruleId := rule.id
    ruleName := rule.name
    channelName := channel.name }

/-- `… JOIN notification_channels ON … WHERE alert_rules.enabled = true`. -/
def joinedRows (tables : AlertTables N) : List (JoinedAlertRow N) :=
  (tables.rules.rows.filter fun rule => rule.enabled).filterMap fun rule =>
    (tables.channels.find rule.channelId).map (joinRow rule)

/-- The columns the statements of a check write. -/
def AlertRuleRow.store (rule : AlertRuleRow N) (checked : AlertRule) : AlertRuleRow N :=
  { rule with
    lastState := checked.lastState
    lastCheckedAt := checked.lastCheckedAt
    lastNotifiedAt := checked.lastNotifiedAt
    lastError := checked.lastError
    breachingSince := checked.breachingSince }

@[simp] theorem AlertRuleRow.store_id (rule : AlertRuleRow N) (checked : AlertRule) :
    (rule.store checked).id = rule.id := rfl

/-! ### What a check meets -/

/-- The columns of `docker_hosts` a check reads. -/
structure AlertHost where
  name : String
  lastStatus : String
  lastError : Option String
  deriving DecidableEq, Repr

/-- The columns of `resource_snapshots` a check reads; `state` is `data.State`. -/
structure AlertContainer where
  name : String
  state : Option String
  deriving DecidableEq, Repr

/-- What the check of one rule meets outside the tables of the pass: the time, the rows and the
    metrics its condition is about, and what becomes of a message. -/
structure CheckWorld (N : Type) where
  now : Time
  host : Option AlertHost
  container : Option AlertContainer
  snapshot : Except String (HostStats N)
  /-- The status code `postJsonWebhook` returns. -/
  webhookStatus : Except String ℕ
  smtpHost : Bool
  sendMail : Except String Unit

/-- `alertSilenceMatches`. -/
def alertSilenceMatches (silence : AlertSilence) (ruleId hostId : Id) (now : Time) : Bool :=
  if now < silence.startsAt ∨ silence.endsAt < now then false
  else silence.ruleId = some ruleId || silence.hostId = some hostId

/-- The rows of the query of `activeSilenceForRule`. -/
def silenceSelected (ruleId hostId : Id) (now : Time) (silence : AlertSilence) : Bool :=
  silence.startsAt ≤ now && now ≤ silence.endsAt
    && (silence.ruleId = some ruleId || silence.hostId = some hostId)

/-- `ORDER BY rule_id NULLS LAST, created_at DESC`. -/
def silenceBefore (a b : AlertSilence) : Bool :=
  match a.ruleId, b.ruleId with
  | some _, none => true
  | none, some _ => false
  | none, none => b.createdAt < a.createdAt
  | some x, some y => x < y || (x = y && b.createdAt < a.createdAt)

/-- The query of `activeSilenceForRule`: `LIMIT 1`. -/
def firstSilence (silences : List AlertSilence) : Option AlertSilence :=
  silences.foldl (fun first silence =>
    match first with
    | none => some silence
    | some first => if silenceBefore silence first then some silence else some first) none

/-- `activeSilenceForRule`. -/
def activeSilenceForRule (silences : List AlertSilence) (ruleId hostId : Id) (now : Time) :
    Option AlertSilence :=
  (firstSilence (silences.filter (silenceSelected ruleId hostId now))).filter fun silence =>
    alertSilenceMatches silence ruleId hostId now

/-- Where a message goes. -/
inductive Destination
  | webhook (url : Option String)
  | email (emailTo : Option String)
  deriving DecidableEq, Repr

/-- The destination of a channel of this type. -/
def destinationOf (type : String) (webhookUrl emailTo : Option String) : Destination :=
  if type = "webhook" then .webhook webhookUrl else .email emailTo

/-- `sendChannel`: the destination it turns to, unless the row is disabled, and how it ends. -/
def sendChannel (row : JoinedAlertRow N) (world : CheckWorld N) :
    Option Destination × Except String Unit :=
  if !row.enabled then (none, .ok ())
  else
    (some (destinationOf row.type row.webhookUrl row.emailTo),
      if row.type = "webhook" then
        match world.webhookStatus with
        | .error error => .error error
        | .ok status =>
          if 200 ≤ status ∧ status < 300 then .ok ()
          else .error ("Webhook failed with " ++ toString status)
      else if !world.smtpHost then .error "SMTP_HOST is not configured"
      else world.sendMail)

/-! ### Conditions -/

variable [MetricNumber N]

/-- `isHostMetricCondition`. -/
def hostMetricCondition (condition : String) : Option HostMetricAlertCondition :=
  match condition with
  | "host.cpu" => some .cpu
  | "host.memory" => some .memory
  | "host.disk" => some .disk
  | "host.swap" => some .swap
  | "host.load" => some .load
  | _ => none

/-- The evaluation of a metric condition. -/
def evaluateMetric (row : AlertRuleRow N) (condition : HostMetricAlertCondition)
    (world : CheckWorld N) : Except String Evaluation := do
  let params ← row.params
  let stats ← world.snapshot
  let evaluation := evaluateHostThreshold condition params stats row.breachingSince world.now
    ((world.host.map AlertHost.name).getD "Host")
  return ⟨evaluation.triggered, evaluation.message, evaluation.nextBreachingSince⟩

/-- The first part of a check: `triggered`, `message` and `nextBreachingSince`. -/
def evaluateCondition (row : AlertRuleRow N) (world : CheckWorld N) : Except String Evaluation :=
  if row.condition = "host.offline" then
    .ok ⟨(world.host.map AlertHost.lastStatus) = some "offline",
      (world.host.map AlertHost.name).getD "Host" ++ " is offline: "
        ++ (world.host.bind AlertHost.lastError).getD "No error recorded", none⟩
  else if row.condition = "container.not_running" ∧ row.containerId.getD "" ≠ "" then
    let state := world.container.bind AlertContainer.state
    .ok ⟨state.any fun state => state ≠ "" && state ≠ "running",
      (world.container.map AlertContainer.name).getD (row.containerId.getD "") ++ " is "
        ++ state.getD "missing", none⟩
  else match hostMetricCondition row.condition with
    | some condition => evaluateMetric row condition world
    | none => .ok ⟨false, "", none⟩

/-! ### One pass -/

/-- The check of a joined row. -/
def checkInput (silences : List AlertSilence) (row : JoinedAlertRow N) (world : CheckWorld N) :
    CheckInput where
  evaluation := evaluateCondition row.toAlertRuleRow world
  silence := (activeSilenceForRule silences row.ruleId row.hostId world.now).map AlertSilence.name
  now := world.now
  delivery := (sendChannel row world).2

/-- A delivery that is attempted for a rule. -/
structure Delivery where
  ruleId : Id
  destination : Destination
  notice : Notice
  deriving DecidableEq, Repr

/-- The outcome of the check of a joined row. -/
def checkOutcome (silences : List AlertSilence) (row : JoinedAlertRow N) (world : CheckWorld N) :
    CheckOutcome :=
  runAlertCheck row.toAlertRule (checkInput silences row world)

/-- The deliveries a check attempts: its messages, when `sendChannel` turns to a destination. -/
def checkDeliveries (silences : List AlertSilence) (row : JoinedAlertRow N)
    (world : CheckWorld N) : List Delivery :=
  (checkOutcome silences row world).notices.filterMap fun notice =>
    (sendChannel row world).1.map fun destination => ⟨row.ruleId, destination, notice⟩

/-- What a pass has written and sent so far. -/
structure PassState (N : Type) where
  rules : Table (AlertRuleRow N) (fun rule => rule.id)
  events : List (Id × AlertEvent)
  deliveries : List Delivery

/-- One round of the loop. -/
def checkRow (silences : List AlertSilence) (world : Id → CheckWorld N) (s : PassState N)
    (row : JoinedAlertRow N) : PassState N :=
  let outcome := checkOutcome silences row (world row.ruleId)
  { rules := s.rules.update (fun rule => rule.id = row.ruleId) (fun rule => rule.store outcome.rule)
      fun rule => rule.store_id outcome.rule
    events := s.events ++ outcome.events.map fun event => (row.ruleId, event)
    deliveries := s.deliveries ++ checkDeliveries silences row (world row.ruleId) }

/-- `runAlertChecks`. -/
def runPass (tables : AlertTables N) (world : Id → CheckWorld N) : PassState N :=
  exec (checkRow tables.silences world) ⟨tables.rules, [], []⟩ (joinedRows tables)

/-- The deliveries of a pass for one rule. -/
def deliveriesFor (s : PassState N) (id : Id) : List Delivery :=
  s.deliveries.filter fun delivery => delivery.ruleId = id

/-! ### The decision -/

/-- A silence for the rule or its host covers the time. -/
def Silenced (silences : List AlertSilence) (rule : AlertRuleRow N) (now : Time) : Prop :=
  ∃ silence ∈ silences, (silence.ruleId = some rule.id ∨ silence.hostId = some rule.hostId)
    ∧ silence.startsAt ≤ now ∧ now ≤ silence.endsAt

/-- The last notification is absent or older than the cooldown. -/
def CooledDown (rule : AlertRuleRow N) (now : Time) : Prop :=
  ∀ lastNotifiedAt, rule.lastNotifiedAt = some lastNotifiedAt →
    seconds (15 * 60) < now - lastNotifiedAt

/-- A delivery is due for a rule whose condition evaluates to `e`. -/
structure DeliveryDue (silences : List AlertSilence) (now : Time) (rule : AlertRuleRow N)
    (e : Evaluation) : Prop where
  enabled : rule.enabled = true
  unsilenced : ¬Silenced silences rule now
  due : (e.triggered = true ∧ CooledDown rule now)
    ∨ (e.triggered = false ∧ rule.lastState = some .triggered ∧ rule.lastNotifiedAt ≠ none)

/-- What a pass delivers. -/
structure PassDelivers (tables : AlertTables N) (world : Id → CheckWorld N) : Prop where
  attempted : ∀ rule ∈ tables.rules.rows, ∀ channel ∈ tables.channels.rows,
    channel.id = rule.channelId → ∀ e, evaluateCondition rule (world rule.id) = .ok e →
      (deliveriesFor (runPass tables world) rule.id ≠ []
        ↔ channel.enabled = true ∧ DeliveryDue tables.silences (world rule.id).now rule e)
  own_channel : ∀ delivery ∈ (runPass tables world).deliveries,
    ∃ rule ∈ tables.rules.rows, ∃ channel ∈ tables.channels.rows,
      rule.id = delivery.ruleId ∧ channel.id = rule.channelId
        ∧ delivery.destination = destinationOf channel.type channel.webhookUrl channel.emailTo
  isolated : ∀ world' : Id → CheckWorld N, ∀ rule ∈ tables.rules.rows,
    world' rule.id = world rule.id →
      deliveriesFor (runPass tables world') rule.id = deliveriesFor (runPass tables world) rule.id
        ∧ (runPass tables world').rules.find rule.id = (runPass tables world).rules.find rule.id

/-! ### Silences -/

omit [MetricNumber N] in
theorem silenceSelected_eq (ruleId hostId : Id) (now : Time) (silence : AlertSilence) :
    silenceSelected ruleId hostId now silence = alertSilenceMatches silence ruleId hostId now := by
  unfold silenceSelected alertSilenceMatches
  by_cases h : now < silence.startsAt ∨ silence.endsAt < now
  · rw [if_pos h]
    have hoff : (decide (silence.startsAt ≤ now) && decide (now ≤ silence.endsAt)) = false := by
      rw [Bool.and_eq_false_iff, decide_eq_false_iff_not, decide_eq_false_iff_not, not_le, not_le]
      exact h
    rw [hoff, Bool.false_and]
  · rw [if_neg h]
    have hon : (decide (silence.startsAt ≤ now) && decide (now ≤ silence.endsAt)) = true := by
      rw [Bool.and_eq_true, decide_eq_true_eq, decide_eq_true_eq, ← not_lt, ← not_lt]
      exact not_or.mp h
    rw [hon, Bool.true_and]

/-- The choice among silences finds one of them. -/
theorem firstSilence_foldl (silences : List AlertSilence) (first : AlertSilence) :
    ∃ silence ∈ first :: silences,
      silences.foldl (fun first silence =>
        match first with
        | none => some silence
        | some first => if silenceBefore silence first then some silence else some first)
        (some first) = some silence := by
  induction silences generalizing first with
  | nil => exact ⟨first, List.mem_cons_self, rfl⟩
  | cons next silences ih =>
    rw [List.foldl_cons]
    by_cases hbefore : silenceBefore next first = true
    · obtain ⟨silence, hmem, hfold⟩ := ih next
      refine ⟨silence, List.mem_cons_of_mem _ hmem, ?_⟩
      simpa only [if_pos hbefore] using hfold
    · obtain ⟨silence, hmem, hfold⟩ := ih first
      refine ⟨silence, ?_, by simpa only [if_neg hbefore] using hfold⟩
      rcases List.mem_cons.mp hmem with rfl | hmem
      · exact List.mem_cons_self
      · exact List.mem_cons_of_mem _ (List.mem_cons_of_mem _ hmem)

/-- A silence is in force exactly when one of the silences matches. -/
theorem activeSilenceForRule_isSome (silences : List AlertSilence) (ruleId hostId : Id)
    (now : Time) :
    (activeSilenceForRule silences ruleId hostId now).isSome = true
      ↔ ∃ silence ∈ silences, alertSilenceMatches silence ruleId hostId now = true := by
  unfold activeSilenceForRule
  cases hselected : silences.filter (silenceSelected ruleId hostId now) with
  | nil =>
    refine ⟨fun h => absurd h Bool.false_ne_true, fun ⟨silence, hmem, hmatches⟩ => ?_⟩
    have hnone := List.filter_eq_nil_iff.mp hselected silence hmem
    rw [silenceSelected_eq] at hnone
    exact absurd hmatches hnone
  | cons first rest =>
    obtain ⟨silence, hmem, hfold⟩ := firstSilence_foldl rest first
    rw [← hselected] at hmem
    obtain ⟨hmem, hmatches⟩ := List.mem_filter.mp hmem
    rw [silenceSelected_eq] at hmatches
    have hfirst : firstSilence (first :: rest) = some silence := hfold
    rw [hfirst, Option.filter_some, if_pos hmatches]
    exact ⟨fun _ => ⟨silence, hmem, hmatches⟩, fun _ => rfl⟩

omit [MetricNumber N] in
theorem silenced_iff {silences : List AlertSilence} {rule : AlertRuleRow N} {now : Time} :
    Silenced silences rule now
      ↔ (activeSilenceForRule silences rule.id rule.hostId now).isSome = true := by
  rw [activeSilenceForRule_isSome]
  refine exists_congr fun silence => and_congr_right fun _ => ?_
  unfold alertSilenceMatches
  by_cases h : now < silence.startsAt ∨ silence.endsAt < now
  · rw [if_pos h]
    refine ⟨fun ⟨_, hstart, hend⟩ => ?_, fun hfalse => absurd hfalse Bool.false_ne_true⟩
    exact (h.elim (not_lt.mpr hstart) (not_lt.mpr hend)).elim
  · rw [if_neg h, Bool.or_eq_true, decide_eq_true_eq, decide_eq_true_eq]
    obtain ⟨hstart, hend⟩ := not_or.mp h
    exact ⟨fun ⟨hfor, _⟩ => hfor, fun hfor => ⟨hfor, not_lt.mp hstart, not_lt.mp hend⟩⟩

/-! ### One check -/

/-- A check sends a message exactly when one is due. -/
theorem notices_ne_nil_iff {rule : AlertRule} {input : CheckInput} {e : Evaluation}
    (he : input.evaluation = .ok e) :
    (runAlertCheck rule input).notices ≠ []
      ↔ shouldNotify rule e input = true ∨ recovered rule e input = true := by
  unfold runAlertCheck
  rw [he]
  simp only []
  by_cases hnotify : shouldNotify rule e input = true
  · rw [if_pos hnotify, notices_sendNotice]
    exact ⟨fun _ => .inl hnotify, fun _ => List.cons_ne_nil _ _⟩
  · rw [if_neg hnotify]
    by_cases hrecovered : recovered rule e input = true
    · rw [if_pos hrecovered, notices_sendNotice]
      exact ⟨fun _ => .inr hrecovered, fun _ => List.cons_ne_nil _ _⟩
    · rw [if_neg hrecovered]
      exact ⟨fun h => absurd rfl h, fun h => (h.elim hnotify hrecovered).elim⟩

omit [MetricNumber N] in
theorem cooledDown_iff {rule : AlertRuleRow N} {now : Time} :
    cooledDown rule.toAlertRule now = true ↔ CooledDown rule now := by
  unfold cooledDown CooledDown
  cases rule.lastNotifiedAt with
  | none => exact ⟨fun _ t ht => (nomatch ht), fun _ => rfl⟩
  | some lastNotifiedAt =>
    rw [decide_eq_true_eq]
    exact ⟨fun h t ht => Option.some.inj ht ▸ h, fun h => h lastNotifiedAt rfl⟩

/-- The messages of the check of an enabled rule are the deliveries that are due. -/
theorem notices_joinRow_iff {silences : List AlertSilence} {rule : AlertRuleRow N}
    {channel : NotificationChannel} {world : CheckWorld N} {e : Evaluation}
    (henabled : rule.enabled = true) (he : evaluateCondition rule world = .ok e) :
    (checkOutcome silences (joinRow rule channel) world).notices ≠ []
      ↔ DeliveryDue silences world.now rule e := by
  have hsilence : (checkInput silences (joinRow rule channel) world).silence.isNone = true
      ↔ ¬Silenced silences rule world.now := by
    rw [silenced_iff, Bool.not_eq_true, Option.isSome_eq_false_iff]
    show ((activeSilenceForRule silences rule.id rule.hostId world.now).map _).isNone = true ↔ _
    rw [Option.isNone_map]
  have hnotify : shouldNotify (joinRow rule channel).toAlertRule e
        (checkInput silences (joinRow rule channel) world) = true
      ↔ ¬Silenced silences rule world.now ∧ e.triggered = true ∧ CooledDown rule world.now := by
    rw [shouldNotify, Bool.and_eq_true, Bool.and_eq_true, hsilence, and_assoc,
      ← @cooledDown_iff N rule world.now]
    rfl
  have hrecovered : recovered (joinRow rule channel).toAlertRule e
        (checkInput silences (joinRow rule channel) world) = true
      ↔ ¬Silenced silences rule world.now ∧ e.triggered = false
        ∧ rule.lastState = some .triggered ∧ rule.lastNotifiedAt ≠ none := by
    have hstate : e.nextState = .ok ↔ e.triggered = false := by
      cases h : e.triggered <;> simp [Evaluation.nextState, h]
    rw [recovered, Bool.and_eq_true, Bool.and_eq_true, Bool.and_eq_true, hsilence,
      decide_eq_true_eq, decide_eq_true_eq, hstate, Option.isSome_iff_ne_none]
    show ((_ ∧ rule.lastState = some .triggered) ∧ _) ∧ rule.lastNotifiedAt ≠ none ↔ _
    tauto
  rw [checkOutcome, notices_ne_nil_iff he, hnotify, hrecovered, ← and_or_left]
  constructor
  · rintro ⟨hunsilenced, hdue⟩
    exact ⟨henabled, hunsilenced, hdue⟩
  · intro h
    exact ⟨h.unsilenced, h.due⟩

/-- A check whose row is enabled attempts a delivery exactly when it sends a message. -/
theorem checkDeliveries_ne_nil_iff {silences : List AlertSilence} {row : JoinedAlertRow N}
    {world : CheckWorld N} (henabled : row.enabled = true) :
    checkDeliveries silences row world ≠ [] ↔ (checkOutcome silences row world).notices ≠ [] := by
  have hdestination : (sendChannel row world).1 =
      some (destinationOf row.type row.webhookUrl row.emailTo) := by
    rw [sendChannel, henabled]
    rfl
  have hmap : checkDeliveries silences row world = (checkOutcome silences row world).notices.map
      (Delivery.mk row.ruleId (destinationOf row.type row.webhookUrl row.emailTo)) := by
    rw [checkDeliveries, hdestination, ← List.filterMap_eq_map]
    rfl
  rw [hmap, Ne, List.map_eq_nil_iff]

/-- A delivery of a check goes to the destination in its row. -/
theorem mem_checkDeliveries {silences : List AlertSilence} {row : JoinedAlertRow N}
    {world : CheckWorld N} {delivery : Delivery}
    (h : delivery ∈ checkDeliveries silences row world) :
    delivery.ruleId = row.ruleId
      ∧ delivery.destination = destinationOf row.type row.webhookUrl row.emailTo := by
  obtain ⟨notice, -, hsent⟩ := List.mem_filterMap.mp h
  obtain ⟨destination, hdestination, rfl⟩ := Option.map_eq_some_iff.mp hsent
  refine ⟨rfl, ?_⟩
  unfold sendChannel at hdestination
  by_cases henabled : (!row.enabled) = true
  · rw [if_pos henabled] at hdestination
    exact nomatch hdestination
  · rw [if_neg henabled] at hdestination
    exact (Option.some.inj hdestination).symm

/-! ### The loop -/

omit [MetricNumber N] in
theorem mem_joinedRows {tables : AlertTables N} {row : JoinedAlertRow N} :
    row ∈ joinedRows tables ↔ ∃ rule ∈ tables.rules.rows, ∃ channel ∈ tables.channels.rows,
      rule.enabled = true ∧ channel.id = rule.channelId ∧ joinRow rule channel = row := by
  unfold joinedRows
  rw [List.mem_filterMap]
  constructor
  · rintro ⟨rule, hrule, hjoin⟩
    obtain ⟨hrule, henabled⟩ := List.mem_filter.mp hrule
    obtain ⟨channel, hfind, hrow⟩ := Option.map_eq_some_iff.mp hjoin
    obtain ⟨hchannel, hid⟩ := Table.find_eq_some.mp hfind
    exact ⟨rule, hrule, channel, hchannel, henabled, hid, hrow⟩
  · rintro ⟨rule, hrule, channel, hchannel, henabled, hid, hrow⟩
    refine ⟨rule, List.mem_filter.mpr ⟨hrule, henabled⟩, ?_⟩
    rw [Table.find_eq_some.mpr ⟨hchannel, hid⟩, Option.map_some, hrow]

omit [MetricNumber N] in
/-- Every rule is joined at most once. -/
theorem nodup_joinedRows (tables : AlertTables N) :
    ((joinedRows tables).map JoinedAlertRow.ruleId).Nodup := by
  have hids : ∀ rules : List (AlertRuleRow N), ((rules.filterMap fun rule =>
      (tables.channels.find rule.channelId).map (joinRow rule)).map
        JoinedAlertRow.ruleId).Sublist (rules.map fun rule => rule.id) := by
    intro rules
    induction rules with
    | nil => exact List.Sublist.refl []
    | cons rule rules ih =>
      cases hfind : tables.channels.find rule.channelId with
      | none =>
        rw [List.filterMap_cons_none (by rw [hfind]; rfl)]
        exact ih.cons _
      | some channel =>
        rw [List.filterMap_cons_some (by rw [hfind]; rfl)]
        exact ih.cons_cons _
  exact tables.rules.nodup.sublist ((hids _).trans (List.Sublist.map _ List.filter_sublist))

/-- **Step.**  A round stores the outcome of its check in the row of its rule. -/
theorem find_checkRow (silences : List AlertSilence) (world : Id → CheckWorld N)
    (s : PassState N) (row : JoinedAlertRow N) (id : Id) :
    (checkRow silences world s row).rules.find id = (s.rules.find id).map fun rule =>
      if rule.id = row.ruleId then
        rule.store (checkOutcome silences row (world row.ruleId)).rule
      else rule := by
  rw [checkRow, Table.find_update]
  simp only [decide_eq_true_eq]

/-- The deliveries of a loop are those of its rounds. -/
theorem exec_checkRow_deliveries (silences : List AlertSilence) (world : Id → CheckWorld N)
    (s : PassState N) (rows : List (JoinedAlertRow N)) :
    (exec (checkRow silences world) s rows).deliveries =
      s.deliveries ++ rows.flatMap fun row => checkDeliveries silences row (world row.ruleId) := by
  induction rows generalizing s with
  | nil => rw [exec_nil, List.flatMap_nil, List.append_nil]
  | cons row rows ih =>
    rw [exec_cons, ih, List.flatMap_cons, ← List.append_assoc]
    rfl

/-- A loop without a row of a rule leaves the rule alone. -/
theorem exec_checkRow_find_other (silences : List AlertSilence) (world : Id → CheckWorld N)
    (s : PassState N) {rows : List (JoinedAlertRow N)} {id : Id}
    (h : ∀ row ∈ rows, row.ruleId ≠ id) :
    (exec (checkRow silences world) s rows).rules.find id = s.rules.find id := by
  induction rows generalizing s with
  | nil => rfl
  | cons row rows ih =>
    rw [exec_cons, ih (checkRow silences world s row) fun r hr => h r (List.mem_cons_of_mem _ hr),
      find_checkRow]
    cases hfind : s.rules.find id with
    | none => rfl
    | some rule =>
      have hne : ¬rule.id = row.ruleId := fun heq =>
        h row List.mem_cons_self (heq.symm.trans (Table.find_eq_some.mp hfind).2)
      rw [Option.map_some, if_neg hne]

/-- **Run.**  A loop with one row of a rule stores the outcome of its check, whatever the other
    rounds do. -/
theorem exec_checkRow_find (silences : List AlertSilence) (world : Id → CheckWorld N)
    (s : PassState N) {rows : List (JoinedAlertRow N)}
    (hnodup : (rows.map JoinedAlertRow.ruleId).Nodup) {row : JoinedAlertRow N} (hrow : row ∈ rows) :
    (exec (checkRow silences world) s rows).rules.find row.ruleId =
      (s.rules.find row.ruleId).map fun rule =>
        rule.store (checkOutcome silences row (world row.ruleId)).rule := by
  induction rows generalizing s with
  | nil => exact nomatch hrow
  | cons next rows ih =>
    rw [List.map_cons, List.nodup_cons] at hnodup
    obtain ⟨hfresh, hnodup⟩ := hnodup
    rw [exec_cons]
    rcases List.mem_cons.mp hrow with rfl | hrow
    · rw [exec_checkRow_find_other silences world _ fun r hr heq =>
        hfresh (List.mem_map.mpr ⟨r, hr, heq⟩), find_checkRow]
      cases hfind : s.rules.find row.ruleId with
      | none => rfl
      | some rule =>
        rw [Option.map_some, Option.map_some, if_pos (Table.find_eq_some.mp hfind).2]
    · rw [ih _ hnodup hrow]
      have hne : next.ruleId ≠ row.ruleId := fun heq =>
        hfresh (List.mem_map.mpr ⟨row, hrow, heq.symm⟩)
      rw [← exec_checkRow_find_other silences world s (List.forall_mem_singleton.mpr hne)]
      rfl

/-- The deliveries of a pass for a rule are those of the check of its row. -/
theorem deliveriesFor_runPass {tables : AlertTables N} (world : Id → CheckWorld N)
    {row : JoinedAlertRow N} (hrow : row ∈ joinedRows tables) :
    deliveriesFor (runPass tables world) row.ruleId =
      checkDeliveries tables.silences row (world row.ruleId) := by
  have hloop : ∀ rows : List (JoinedAlertRow N), (rows.map JoinedAlertRow.ruleId).Nodup →
      row ∈ rows → (rows.flatMap fun row => checkDeliveries tables.silences row
        (world row.ruleId)).filter (fun delivery => delivery.ruleId = row.ruleId) =
          checkDeliveries tables.silences row (world row.ruleId) := by
    intro rows hnodup hrow
    induction rows with
    | nil => exact nomatch hrow
    | cons next rows ih =>
      rw [List.map_cons, List.nodup_cons] at hnodup
      obtain ⟨hfresh, hnodup⟩ := hnodup
      rw [List.flatMap_cons, List.filter_append]
      rcases List.mem_cons.mp hrow with rfl | hrow
      · have hown : (checkDeliveries tables.silences row (world row.ruleId)).filter
            (fun delivery => delivery.ruleId = row.ruleId) =
              checkDeliveries tables.silences row (world row.ruleId) :=
          List.filter_eq_self.mpr fun delivery h => decide_eq_true (mem_checkDeliveries h).1
        have hothers : (rows.flatMap fun row => checkDeliveries tables.silences row
            (world row.ruleId)).filter (fun delivery => delivery.ruleId = row.ruleId) = [] := by
          refine List.filter_eq_nil_iff.mpr fun delivery h => ?_
          obtain ⟨other, hother, h⟩ := List.mem_flatMap.mp h
          rw [decide_eq_true_eq]
          intro heq
          exact hfresh (List.mem_map.mpr ⟨other, hother, (mem_checkDeliveries h).1.symm.trans heq⟩)
        rw [hown, hothers, List.append_nil]
      · have hnext : (checkDeliveries tables.silences next (world next.ruleId)).filter
            (fun delivery => delivery.ruleId = row.ruleId) = [] := by
          refine List.filter_eq_nil_iff.mpr fun delivery h => ?_
          rw [decide_eq_true_eq, (mem_checkDeliveries h).1]
          intro heq
          exact hfresh (List.mem_map.mpr ⟨row, hrow, heq.symm⟩)
        rw [hnext, List.nil_append, ih hnodup hrow]
  rw [deliveriesFor, runPass, exec_checkRow_deliveries, List.nil_append]
  exact hloop _ (nodup_joinedRows tables) hrow

/-- A rule that is not enabled has no row in the join. -/
theorem runPass_disabled {tables : AlertTables N} (world : Id → CheckWorld N)
    {rule : AlertRuleRow N} (hrule : rule ∈ tables.rules.rows) (hdisabled : rule.enabled = false) :
    deliveriesFor (runPass tables world) rule.id = []
      ∧ (runPass tables world).rules.find rule.id = tables.rules.find rule.id := by
  have hother : ∀ row ∈ joinedRows tables, row.ruleId ≠ rule.id := by
    intro row hrow heq
    obtain ⟨rule', hrule', channel, -, henabled, -, rfl⟩ := mem_joinedRows.mp hrow
    have hsame : rule' = rule := Table.eq_of_key_eq hrule' hrule heq
    rw [hsame, hdisabled] at henabled
    exact Bool.false_ne_true henabled
  refine ⟨List.filter_eq_nil_iff.mpr fun delivery h => ?_,
    exec_checkRow_find_other tables.silences world _ hother⟩
  rw [runPass, exec_checkRow_deliveries, List.nil_append] at h
  obtain ⟨row, hrow, h⟩ := List.mem_flatMap.mp h
  rw [decide_eq_true_eq, (mem_checkDeliveries h).1]
  exact hother row hrow

/-- **No rule affects another.**  What a pass sends for a rule and stores in it is a matter of the
    tables and of what its own check meets. -/
theorem runPass_isolated {tables : AlertTables N} {world world' : Id → CheckWorld N}
    {rule : AlertRuleRow N} (hrule : rule ∈ tables.rules.rows)
    (hsame : world' rule.id = world rule.id) :
    deliveriesFor (runPass tables world') rule.id = deliveriesFor (runPass tables world) rule.id
      ∧ (runPass tables world').rules.find rule.id =
        (runPass tables world).rules.find rule.id := by
  cases henabled : rule.enabled with
  | false =>
    obtain ⟨hdeliveries, hrow⟩ := runPass_disabled world hrule henabled
    obtain ⟨hdeliveries', hrow'⟩ := runPass_disabled world' hrule henabled
    exact ⟨hdeliveries'.trans hdeliveries.symm, hrow'.trans hrow.symm⟩
  | true =>
    obtain ⟨channel, hchannel, hid⟩ := tables.channel_of rule hrule
    have hrow : joinRow rule channel ∈ joinedRows tables :=
      mem_joinedRows.mpr ⟨rule, hrule, channel, hchannel, henabled, hid, rfl⟩
    have hworld : world' (joinRow rule channel).ruleId = world (joinRow rule channel).ruleId :=
      hsame
    constructor
    · exact (deliveriesFor_runPass world' hrow).trans
        ((congrArg _ hworld).trans (deliveriesFor_runPass world hrow).symm)
    · have hfind := exec_checkRow_find tables.silences world ⟨tables.rules, [], []⟩
        (nodup_joinedRows tables) hrow
      have hfind' := exec_checkRow_find tables.silences world' ⟨tables.rules, [], []⟩
        (nodup_joinedRows tables) hrow
      rw [hworld] at hfind'
      exact hfind'.trans hfind.symm

/-- A pass attempts a delivery for a rule exactly when one is due, enabled channel or not. -/
theorem runPass_attempts_iff {tables : AlertTables N} {world : Id → CheckWorld N}
    {rule : AlertRuleRow N} (hrule : rule ∈ tables.rules.rows) {e : Evaluation}
    (he : evaluateCondition rule (world rule.id) = .ok e) :
    deliveriesFor (runPass tables world) rule.id ≠ []
      ↔ DeliveryDue tables.silences (world rule.id).now rule e := by
  cases henabled : rule.enabled with
  | false =>
    rw [(runPass_disabled world hrule henabled).1]
    exact ⟨fun h => absurd rfl h, fun h => absurd (henabled.symm.trans h.enabled) nofun⟩
  | true =>
    obtain ⟨channel, hchannel, hid⟩ := tables.channel_of rule hrule
    have hrow : joinRow rule channel ∈ joinedRows tables :=
      mem_joinedRows.mpr ⟨rule, hrule, channel, hchannel, henabled, hid, rfl⟩
    have hdeliveries : deliveriesFor (runPass tables world) rule.id =
        checkDeliveries tables.silences (joinRow rule channel) (world rule.id) :=
      deliveriesFor_runPass world hrow
    rw [hdeliveries, checkDeliveries_ne_nil_iff henabled]
    exact notices_joinRow_iff henabled he

/-- A pass delivers what is due over a rule's own channel. -/
theorem runPass_own_channel {tables : AlertTables N} {world : Id → CheckWorld N}
    {delivery : Delivery} (h : delivery ∈ (runPass tables world).deliveries) :
    ∃ rule ∈ tables.rules.rows, ∃ channel ∈ tables.channels.rows,
      rule.id = delivery.ruleId ∧ channel.id = rule.channelId
        ∧ delivery.destination = destinationOf channel.type channel.webhookUrl channel.emailTo := by
  rw [runPass, exec_checkRow_deliveries, List.nil_append] at h
  obtain ⟨row, hrow, h⟩ := List.mem_flatMap.mp h
  obtain ⟨rule, hrule, channel, hchannel, -, hid, rfl⟩ := mem_joinedRows.mp hrow
  obtain ⟨hruleId, hdestination⟩ := mem_checkDeliveries h
  exact ⟨rule, hrule, channel, hchannel, hruleId.symm, hid, hdestination⟩

/-- A rule as it is created. -/
def mutedRule : AlertRuleRow ℚ where
  id := "r1"
  name := "nas"
  enabled := true
  lastState := none
  lastCheckedAt := none
  lastNotifiedAt := none
  lastError := none
  breachingSince := none
  condition := "host.offline"
  hostId := "h1"
  containerId := none
  channelId := "c1"
  params := .error "Required"

/-- Its channel, switched off. -/
def mutedChannel : NotificationChannel :=
  ⟨"c1", "Ops", "webhook", none, some "https://example.com/hook", false⟩

def mutedTables : AlertTables ℚ where
  rules := ⟨[mutedRule], by decide⟩
  channels := ⟨[mutedChannel], by decide⟩
  silences := []
  channel_of := by
    intro rule hrule
    rw [List.mem_singleton.mp hrule]
    exact ⟨mutedChannel, List.mem_singleton.mpr rfl, rfl⟩

/-- The host is offline, and every message would be taken. -/
def offlineWorld : CheckWorld ℚ where
  now := 0
  host := some ⟨"nas", "offline", some "timeout"⟩
  container := none
  snapshot := .error "offline"
  webhookStatus := .ok 204
  smtpHost := false
  sendMail := .ok ()

end ComposeBastion
