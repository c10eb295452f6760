import Mathlib.Data.Rat.Floor
import ComposeBastion.Jobs.Model
import ComposeBastion.Lib.Runs

namespace ComposeBastion

open Runs

/-!
# Host thresholds

`services/hostAlertEvaluation.ts`: a threshold rule is triggered when its metric has been over the
threshold for a while.  One check sees one sample; what it keeps for the next is `breaching_since`,
the time at which the metric went over the threshold, or nothing.

* `valueForCondition`, `evaluateHostThreshold` — one check of a sample;
* `evaluations` — the checks of a sequence of samples, each with the `breaching_since` the last
  one left behind;
* `IsStreak`, `IsMaximalStreak` — samples in a row that are all over the threshold;
* `breachingAfter_spec` — what `breaching_since` says about the samples so far.

Every sample carries the condition and the parameters of its own check, so that a rule may be
edited between two of them.
-/

/-! ### Numbers -/

/-- The operations on JavaScript numbers that the metrics need.  No law is assumed of them:
    comparisons with `NaN` fail, and quotients are rounded. -/
class MetricNumber (N : Type) where
  ofNat : ℕ → N
  lt : N → N → Bool
  le : N → N → Bool
  mul : N → N → N
  div : N → N → N
  /-- `Math.round` -/
  round : N → N
  /-- `Number.isInteger` -/
  isInteger : N → Bool
  /-- `String(value)` -/
  text : N → String
  /-- `value.toFixed(digits)` -/
  toFixed : N → ℕ → String

/-- `Math.round` of a rational number. -/
def roundHalfUp (q : ℚ) : ℤ := ⌊q + 1 / 2⌋

/-- The rational numbers, as far as JavaScript prints them without an exponent. -/
instance : MetricNumber ℚ where
  ofNat n := n
  lt p q := p < q
  le p q := p ≤ q
  mul := (· * ·)
  div := (· / ·)
  round q := roundHalfUp q
  isInteger q := q.den = 1
  text q := toString q
  toFixed q digits :=
    let scaled := (roundHalfUp ((if q < 0 then -q else q) * 10 ^ digits)).toNat
    let fraction := toString (scaled % 10 ^ digits)
    (if q < 0 then "-" else "") ++ toString (scaled / 10 ^ digits) ++ "."
      ++ String.ofList (List.replicate (digits - fraction.length) '0') ++ fraction

/-! ### Metrics and parameters -/

/-- `hostMetricAlertConditionSchema`. -/
inductive HostMetricAlertCondition
  | cpu | memory | disk | swap | load
  deriving DecidableEq, Repr

/-- `comparator` of `hostThresholdParamsSchema`. -/
inductive Comparator
  | gt | gte
  deriving DecidableEq, Repr

/-- `hostThresholdParamsSchema`; a `mount` is not empty. -/
structure HostThresholdParams (N : Type) where
  comparator : Comparator
  threshold : N
  durationSeconds : ℕ
  mount : Option String

/-- `totalBytes` and `usedBytes` of the memory and of the swap. -/
structure MemoryStats (N : Type) where
  totalBytes : N
  usedBytes : N

/-- The part of `hostDiskSchema` that the checks read. -/
structure HostDisk (N : Type) where
  mount : String
  usedPercent : N

/-- The part of `hostStatsSchema` that the checks read; `loadOne` is `load?.one`. -/
structure HostStats (N : Type) where
  cpuPercent : Option N
  loadOne : Option N
  memory : MemoryStats N
  swap : MemoryStats N
  disks : List (HostDisk N)

variable {N : Type} [MetricNumber N]

open MetricNumber

/-- `percent`. -/
def percent (usedBytes totalBytes : N) : Option N :=
  if le totalBytes (ofNat 0) then none
  else some (round (mul (div usedBytes totalBytes) (ofNat 100)))

/-- The `reduce` over the disks: the first one that no later one exceeds. -/
def fullestDisk (disks : List (HostDisk N)) : Option (HostDisk N) :=
  disks.foldl (fun max item =>
    match max with
    | none => some item
    | some max => if lt max.usedPercent item.usedPercent then some item else some max) none

/-- `valueForCondition`. -/
def valueForCondition (condition : HostMetricAlertCondition) (params : HostThresholdParams N)
    (stats : HostStats N) : Option N :=
  match condition with
  | .cpu => stats.cpuPercent
  | .memory => percent stats.memory.usedBytes stats.memory.totalBytes
  | .swap =>
    if le stats.swap.totalBytes (ofNat 0) then some (ofNat 0)
    else percent stats.swap.usedBytes stats.swap.totalBytes
  | .disk =>
    let disk := match params.mount with
      | some mount => stats.disks.find? fun item : HostDisk N => item.mount = mount
      | none => fullestDisk stats.disks
    disk.map HostDisk.usedPercent
  | .load => stats.loadOne

/-! ### Messages -/

/-- `conditionLabel`. -/
def conditionLabel : HostMetricAlertCondition → String
  | .cpu => "CPU"
  | .memory => "memory"
  | .disk => "disk"
  | .swap => "swap"
  | .load => "load"

/-- `text.replace(/\.?0+$/, "")`. -/
def stripTrailingZeros (text : String) : String :=
  let kept := (text.toList.reverse.dropWhile (· == '0')).reverse
  if kept.length = text.toList.length then text
  else if kept.getLast? = some '.' then String.ofList kept.dropLast
  else String.ofList kept

/-- `formatNumber`. -/
def formatNumber (value : N) : String :=
  if isInteger value then text value else stripTrailingZeros (toFixed value 2)

/-- `formatMetricValue`. -/
def formatMetricValue (condition : HostMetricAlertCondition) (value : N) : String :=
  if condition = .load then formatNumber value else text (round value) ++ "%"

/-- `formatDuration`. -/
def formatDuration (seconds : ℕ) : String :=
  if seconds % 3600 = 0 then toString (seconds / 3600) ++ "h"
  else if seconds % 60 = 0 then toString (seconds / 60) ++ "m"
  else toString seconds ++ "s"

/-! ### One check -/

/-- `HostThresholdEvaluation`. -/
structure HostThresholdEvaluation (N : Type) where
  value : Option N
  overThreshold : Bool
  triggered : Bool
  nextBreachingSince : Option Time
  message : String

/-- `params.comparator === "gt" ? value > params.threshold : value >= params.threshold`. -/
def exceeds (params : HostThresholdParams N) (value : N) : Bool :=
  match params.comparator with
  | .gt => lt params.threshold value
  | .gte => le params.threshold value

/-- `evaluateHostThreshold`. -/
def evaluateHostThreshold (condition : HostMetricAlertCondition) (params : HostThresholdParams N)
    (stats : HostStats N) (breachingSince : Option Time) (now : Time) (hostName : String) :
    HostThresholdEvaluation N :=
  let label := conditionLabel condition
  let target := match condition, params.mount with
    | .disk, some mount => label ++ " " ++ mount
    | _, _ => label
  match valueForCondition condition params stats with
  | none => ⟨none, false, false, none, hostName ++ " " ++ target ++ " metric is unavailable"⟩
  | some value =>
    let overThreshold := exceeds params value
    let nextBreachingSince := if overThreshold then some (breachingSince.getD now) else none
    let elapsed := match nextBreachingSince with
      | some since => now - since
      | none => 0
    let triggered := overThreshold && decide (seconds params.durationSeconds ≤ elapsed)
    let comparator := match params.comparator with
      | .gt => ">"
      | .gte => ">="
    ⟨some value, overThreshold, triggered, nextBreachingSince,
      hostName ++ " " ++ target ++ " " ++ formatMetricValue condition value ++ " " ++ comparator
        ++ " " ++ formatMetricValue condition params.threshold ++ " for "
        ++ formatDuration params.durationSeconds⟩

/-- What one check of a rule is given, apart from `breaching_since`. -/
structure MetricSample (N : Type) where
  condition : HostMetricAlertCondition
  params : HostThresholdParams N
  stats : HostStats N
  now : Time
  hostName : String

namespace MetricSample

/-- The check of a sample. -/
def evaluate (sample : MetricSample N) (breachingSince : Option Time) :
    HostThresholdEvaluation N :=
  evaluateHostThreshold sample.condition sample.params sample.stats breachingSince sample.now
    sample.hostName

/-- The metric is there and over the threshold. -/
def Over (sample : MetricSample N) : Prop :=
  ∃ value, valueForCondition sample.condition sample.params sample.stats = some value
    ∧ exceeds sample.params value = true

/-- A sample over the threshold continues the streak or starts one, and is triggered when the
    streak is old enough. -/
theorem evaluate_of_over {sample : MetricSample N} (h : sample.Over) (since : Option Time) :
    (sample.evaluate since).nextBreachingSince = some (since.getD sample.now)
      ∧ ((sample.evaluate since).triggered = true
        ↔ seconds sample.params.durationSeconds ≤ sample.now - since.getD sample.now) := by
  obtain ⟨value, hvalue, hover⟩ := h
  simp [evaluate, evaluateHostThreshold, hvalue, hover]

/-- Any other sample ends the streak. -/
theorem evaluate_of_not_over {sample : MetricSample N} (h : ¬sample.Over) (since : Option Time) :
    (sample.evaluate since).nextBreachingSince = none
      ∧ (sample.evaluate since).triggered = false := by
  unfold evaluate evaluateHostThreshold
  cases hvalue : valueForCondition sample.condition sample.params sample.stats with
  | none => exact ⟨rfl, rfl⟩
  | some value =>
    have hover : exceeds sample.params value = false := by
      by_contra hne
      exact h ⟨value, hvalue, Bool.not_eq_false _ ▸ hne⟩
    simp [hover]

end MetricSample

/-! ### Sequences of checks -/

/-- The checks of a sequence of samples; each is handed the `breaching_since` of the last. -/
def evaluations : Option Time → List (MetricSample N) → List (HostThresholdEvaluation N)
  | _, [] => []
  | since, sample :: samples =>
    sample.evaluate since :: evaluations (sample.evaluate since).nextBreachingSince samples

/-- What `breaching_since` is after the check of a sample. -/
def nextBreaching (since : Option Time) (sample : MetricSample N) : Option Time :=
  (sample.evaluate since).nextBreachingSince

/-- `breaching_since` after the checks of a sequence of samples. -/
def breachingAfter (samples : List (MetricSample N)) : Option Time :=
  exec nextBreaching none samples

@[simp] theorem length_evaluations (since : Option Time) (samples : List (MetricSample N)) :
    (evaluations since samples).length = samples.length := by
  induction samples generalizing since with
  | nil => rfl
  | cons sample samples ih => rw [evaluations, List.length_cons, ih, List.length_cons]

/-- The check of the sample at `k` is handed what the samples before it leave. -/
theorem getElem_evaluations (since : Option Time) (samples : List (MetricSample N)) (k : ℕ)
    (hk : k < samples.length) :
    (evaluations since samples).get ⟨k, by rw [length_evaluations]; exact hk⟩ =
      samples[k].evaluate (exec nextBreaching since (samples.take k)) := by
  induction samples generalizing since k with
  | nil => exact absurd hk (Nat.not_lt_zero k)
  | cons sample samples ih =>
    cases k with
    | zero => rfl
    | succ k =>
      rw [List.length_cons, Nat.add_lt_add_iff_right] at hk
      exact ih (nextBreaching since sample) k hk

/-! ### Streaks -/

/-- All samples from `j` to `k` are over the threshold. -/
structure IsStreak (samples : List (MetricSample N)) (j k : ℕ) : Prop where
  le : j ≤ k
  exceeded : ∀ i, j ≤ i → i ≤ k → ∃ sample, samples[i]? = some sample ∧ sample.Over

/-- The longest streak that ends at `k`: it starts at `j`, and none starts before. -/
structure IsMaximalStreak (samples : List (MetricSample N)) (j k : ℕ) : Prop extends
    IsStreak samples j k where
  first : ∀ i, IsStreak samples i k → j ≤ i

namespace IsStreak

variable {samples : List (MetricSample N)} {j k : ℕ}

theorem last (h : IsStreak samples j k) : ∃ sample, samples[k]? = some sample ∧ sample.Over :=
  h.exceeded k h.le (le_refl k)

theorem before (h : IsStreak samples j (k + 1)) (hj : j ≤ k) : IsStreak samples j k :=
  ⟨hj, fun i hji hik => h.exceeded i hji (by omega)⟩

theorem next (h : IsStreak samples j k) {sample : MetricSample N}
    (hsample : samples[k + 1]? = some sample) (hover : sample.Over) :
    IsStreak samples j (k + 1) := by
  refine ⟨Nat.le_succ_of_le h.le, fun i hji hik => ?_⟩
  by_cases hi : i = k + 1
  · exact ⟨sample, hi ▸ hsample, hover⟩
  · exact h.exceeded i hji (by omega)

theorem single {sample : MetricSample N} (hsample : samples[k]? = some sample)
    (hover : sample.Over) : IsStreak samples k k :=
  ⟨le_refl k, fun i hki hik => ⟨sample, by rw [Nat.le_antisymm hik hki]; exact hsample, hover⟩⟩

end IsStreak

/-- The longest streak up to the next sample, when that is over the threshold as well. -/
theorem IsMaximalStreak.next {samples : List (MetricSample N)} {j k : ℕ}
    (h : IsMaximalStreak samples j k) {sample : MetricSample N}
    (hsample : samples[k + 1]? = some sample) (hover : sample.Over) :
    IsMaximalStreak samples j (k + 1) := by
  refine ⟨h.toIsStreak.next hsample hover, fun i hi => ?_⟩
  by_cases hik : i ≤ k
  · exact h.first i (hi.before hik)
  · exact le_trans h.le (by omega)

/-- A streak that starts at `k`, when no streak ends right before it. -/
theorem IsMaximalStreak.start {samples : List (MetricSample N)} {k : ℕ}
    {sample : MetricSample N} (hsample : samples[k]? = some sample) (hover : sample.Over)
    (hbefore : ∀ i m, m + 1 = k → ¬IsStreak samples i m) : IsMaximalStreak samples k k := by
  refine ⟨IsStreak.single hsample hover, fun i hi => ?_⟩
  by_contra hik
  obtain ⟨m, rfl⟩ : ∃ m, k = m + 1 := ⟨k - 1, by omega⟩
  exact hbefore i m rfl (hi.before (by omega))

/-- What `breaching_since` says once the samples up to `k` are checked. -/
def TracksStreak (samples : List (MetricSample N)) (k : ℕ) : Option Time → Prop
  | none => ∀ j, ¬IsStreak samples j k
  | some since => ∃ j first, samples[j]? = some first ∧ first.now = since
      ∧ IsMaximalStreak samples j k

/-- **Step.**  The check of the first sample. -/
theorem tracksStreak_zero {samples : List (MetricSample N)} {sample : MetricSample N}
    (hsample : samples[0]? = some sample) : TracksStreak samples 0 (nextBreaching none sample) := by
  by_cases hover : sample.Over
  · rw [nextBreaching, (sample.evaluate_of_over hover none).1]
    exact ⟨0, sample, hsample, rfl, IsMaximalStreak.start hsample hover (by omega)⟩
  · rw [nextBreaching, (sample.evaluate_of_not_over hover none).1]
    intro j hj
    obtain ⟨sample', hsample', hover'⟩ := hj.last
    rw [hsample, Option.some.injEq] at hsample'
    exact hover (hsample' ▸ hover')

/-- **Step.**  The check of the next sample. -/
theorem tracksStreak_succ {samples : List (MetricSample N)} {k : ℕ} {since : Option Time}
    (h : TracksStreak samples k since) {sample : MetricSample N}
    (hsample : samples[k + 1]? = some sample) :
    TracksStreak samples (k + 1) (nextBreaching since sample) := by
  by_cases hover : sample.Over
  · rw [nextBreaching, (sample.evaluate_of_over hover since).1]
    cases since with
    | none =>
      refine ⟨k + 1, sample, hsample, rfl, IsMaximalStreak.start hsample hover fun i m hm => ?_⟩
      exact Nat.succ.inj hm ▸ h i
    | some since =>
      obtain ⟨j, first, hfirst, htime, hstreak⟩ := h
      exact ⟨j, first, hfirst, htime, hstreak.next hsample hover⟩
  · rw [nextBreaching, (sample.evaluate_of_not_over hover since).1]
    intro j hj
    obtain ⟨sample', hsample', hover'⟩ := hj.last
    rw [hsample, Option.some.injEq] at hsample'
    exact hover (hsample' ▸ hover')

/-- **Run.**  After any number of checks, `breaching_since` is the time of the first sample of the
    longest streak that ends with the last one, and absent when there is none. -/
theorem breachingAfter_spec (samples : List (MetricSample N)) (k : ℕ) (hk : k < samples.length) :
    TracksStreak samples k (breachingAfter (samples.take (k + 1))) := by
  induction k with
  | zero =>
    have htake : samples.take 1 = [samples[0]] := (List.take_append_getElem hk).symm
    rw [htake]
    exact tracksStreak_zero (List.getElem?_eq_getElem hk)
  | succ k ih =>
    rw [← List.take_append_getElem hk, breachingAfter, exec_append]
    exact tracksStreak_succ (ih (by omega)) (List.getElem?_eq_getElem hk)

/-- The longest streak that ends with a sample starts at one place. -/
theorem IsMaximalStreak.unique {samples : List (MetricSample N)} {i j k : ℕ}
    (hi : IsMaximalStreak samples i k) (hj : IsMaximalStreak samples j k) : i = j :=
  Nat.le_antisymm (hi.first j hj.toIsStreak) (hj.first i hi.toIsStreak)

/-- **Streaks decide.**  A check reports a rule triggered exactly when its sample ends a streak of
    samples over the threshold, and the first sample of the longest such streak is at least the
    configured duration old. -/
theorem triggered_iff_streak (samples : List (MetricSample N)) (k : Fin samples.length) :
    ((evaluations none samples).get ⟨k, by rw [length_evaluations]; exact k.isLt⟩).triggered = true
      ↔ ∃ j : Fin samples.length, IsMaximalStreak samples j k
        ∧ seconds samples[k].params.durationSeconds ≤ samples[k].now - samples[j].now := by
  have hsample : samples[k.val]? = some samples[k] := List.getElem?_eq_getElem k.isLt
  have hspec := breachingAfter_spec samples k k.isLt
  rw [← List.take_append_getElem k.isLt, breachingAfter, exec_append] at hspec
  rw [getElem_evaluations none samples k k.isLt]
  change TracksStreak samples k (nextBreaching (exec nextBreaching none (samples.take k)) samples[k])
    at hspec
  by_cases hover : samples[k].Over
  · obtain ⟨hnext, htriggered⟩ := MetricSample.evaluate_of_over hover
      (exec nextBreaching none (samples.take k))
    rw [nextBreaching, hnext] at hspec
    obtain ⟨j, first, hfirst, htime, hstreak⟩ := hspec
    obtain ⟨hj, rfl⟩ := List.getElem?_eq_some_iff.mp hfirst
    refine htriggered.trans ⟨fun hduration => ⟨⟨j, hj⟩, hstreak, htime ▸ hduration⟩, ?_⟩
    rintro ⟨i, hi, hduration⟩
    have hij : i = ⟨j, hj⟩ := Fin.ext (hi.unique hstreak)
    rw [hij] at hduration
    exact htime ▸ hduration
  · have hfalse := (MetricSample.evaluate_of_not_over hover
      (exec nextBreaching none (samples.take k))).2
    refine ⟨fun h => absurd (hfalse.symm.trans h) Bool.false_ne_true, fun ⟨i, hi, _⟩ => ?_⟩
    obtain ⟨sample, heq, hsampleOver⟩ := hi.toIsStreak.last
    rw [hsample, Option.some.injEq] at heq
    exact absurd (heq ▸ hsampleOver) hover

end ComposeBastion
