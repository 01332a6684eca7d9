import DeltaLLM.CalendarDates
import DeltaLLM.StreamingCache

/-! # When a budget is next reset

A duration is a number of hours, days or months. The next reset is the first one after now that lies
whole periods after the previous one.
-/
namespace BudgetPeriods

open JsonValues PythonText CalendarDates

inductive DurationUnit where
  | hour | day | month
  deriving DecidableEq, Repr

def maxBudgetDurationAmount : ℕ := 10000

structure Duration where
  amount : ℕ
  unit : DurationUnit
  positive : 0 < amount
  bounded : amount ≤ maxBudgetDurationAmount
  deriving DecidableEq

/-- The text before the unit: decimal digits, which `int` reads. -/
def amountOfText (value : List Char) : Option ℤ :=
  if value ≠ [] ∧ value.all fun c => (digitValue c).isSome then intOfText (String.ofList value)
  else none

def splitUnit (duration : String) : Option (List Char × DurationUnit) :=
  match duration.toList.reverse with
  | 'o' :: 'm' :: value => some (value.reverse, .month)
  | 'h' :: value => some (value.reverse, .hour)
  | 'd' :: value => some (value.reverse, .day)
  | _ => none

/-- `_parse_duration`. -/
def parseDuration (duration : String) : Option Duration :=
  match splitUnit duration with
  | none => none
  | some (value, unit) =>
      match amountOfText value with
      | some (.ofNat amount) =>
          if h : 0 < amount ∧ amount ≤ maxBudgetDurationAmount then some ⟨amount, unit, h.1, h.2⟩
          else none
      | _ => none

/-- `_duration_unit`. -/
def durationUnit (duration : String) : Option DurationUnit := (parseDuration duration).map (·.unit)

def microsecondsPerHour : ℕ := 3600 * 1000000

/-- `_next_fixed_reset_after`. -/
def nextFixedResetAfter (value : DateTime) (step : ℕ) (now : DateTime) : Option DateTime :=
  let elapsedIntervals := (now.instant - value.instant) / step
  ofInstant (value.instant + step * (elapsedIntervals + 1))

/-- `_is_last_day_of_month`. -/
def isLastDayOfMonth (value : DateTime) : Bool :=
  value.date.day = daysInMonth value.date.year value.date.month

/-- `_add_months`, none past the year 9999. -/
def addMonths (value : DateTime) (months : ℕ) (anchorDay : Option ℕ) : Option DateTime :=
  let zeroBasedMonth := value.date.month - 1 + months
  let year := value.date.year + zeroBasedMonth / 12
  let month := zeroBasedMonth % 12 + 1
  let lastDay := daysInMonth year month
  let day := match anchorDay with
    | some anchorDay => min anchorDay lastDay
    | none => if isLastDayOfMonth value then lastDay else min value.date.day lastDay
  value.replaceDate ⟨year, month, day⟩

theorem addMonths_bound {value next : DateTime} {months : ℕ} {anchorDay : Option ℕ}
    (h : addMonths value months anchorDay = some next) : months < 12 * (maxYear + 1) := by
  have hyear := DateTime.replaceDate_year h
  simp only at hyear
  omega

/-- The loop of `_next_month_reset_after`. -/
def monthResetFrom (value now : DateTime) (amount : ℕ) (positive : 0 < amount)
    (anchorDay : Option ℕ) (elapsedIntervals : ℕ) : Option DateTime :=
  match h : addMonths value (amount * elapsedIntervals) anchorDay with
  | none => none
  | some nextReset =>
      if nextReset ≤ now then
        monthResetFrom value now amount positive anchorDay (elapsedIntervals + 1)
      else some nextReset
termination_by 12 * (maxYear + 1) - elapsedIntervals
decreasing_by
  have hbound := addMonths_bound h
  have hle := Nat.le_mul_of_pos_left elapsedIntervals positive
  omega

/-- `_next_month_reset_after`. -/
def nextMonthResetAfter (value : DateTime) (amount : ℕ) (positive : 0 < amount) (now : DateTime)
    (monthlyAnchorDay : Option ℕ) : Option DateTime :=
  let elapsedMonths :=
    now.date.year * 12 + now.date.month - (value.date.year * 12 + value.date.month)
  monthResetFrom value now amount positive monthlyAnchorDay (max 1 (elapsedMonths / amount))

/-- `_next_reset_after`; none also where a date past the year 9999 is met. -/
def nextResetAfter (duration : String) (previousResetAt now : DateTime)
    (monthlyAnchorDay : Option ℕ) : Option DateTime :=
  match parseDuration duration with
  | none => none
  | some ⟨amount, .hour, _, _⟩ =>
      nextFixedResetAfter previousResetAt (amount * microsecondsPerHour) now
  | some ⟨amount, .day, _, _⟩ =>
      nextFixedResetAfter previousResetAt (amount * microsecondsPerDay) now
  | some ⟨amount, .month, positive, _⟩ =>
      nextMonthResetAfter previousResetAt amount positive now monthlyAnchorDay

def budgetResetMetadataKey : String := "_budget_reset"

def monthlyAnchorDayKey : String := "monthly_anchor_day"

/-- `_monthly_anchor_day`. -/
def monthlyAnchorDay (metadata : Option JsonObject) : Option ℕ :=
  match (metadata.getD []).get budgetResetMetadataKey with
  | .dict settings =>
      match StreamingCache.toInt (JsonObject.get settings monthlyAnchorDayKey) with
      | .value day => if 1 ≤ day ∧ day ≤ 31 then some day.toNat else none
      | _ => none
  | _ => none

/-- `_with_monthly_anchor_day`, as the statement writes it too. -/
def withMonthlyAnchorDay (metadata : Option JsonObject) (day : ℕ) : JsonObject :=
  let settings := match (metadata.getD []).get budgetResetMetadataKey with
    | .dict settings => settings
    | _ => []
  (metadata.getD []).set budgetResetMetadataKey
    (.dict (JsonObject.set settings monthlyAnchorDayKey (.int day)))

/-! ## The next reset is still to come -/

theorem nextFixedResetAfter_lt {value now next : DateTime} {step : ℕ} (hstep : 0 < step)
    (h : nextFixedResetAfter value step now = some next) : value < next ∧ now < next := by
  have hnext := ofInstant_some h
  have hdiv := Nat.lt_mul_div_succ (now.instant - value.instant) hstep
  rw [lt_iff, lt_iff, hnext]
  have hpos : 0 < step * ((now.instant - value.instant) / step + 1) :=
    Nat.mul_pos hstep (Nat.succ_pos _)
  omega

theorem monthResetFrom_lt {value now next : DateTime} {amount : ℕ} {positive : 0 < amount}
    {anchorDay : Option ℕ} {elapsedIntervals : ℕ}
    (h : monthResetFrom value now amount positive anchorDay elapsedIntervals = some next) :
    now < next := by
  fun_induction monthResetFrom value now amount positive anchorDay elapsedIntervals with
  | case1 => cases h
  | case2 _ _ _ _ ih => exact ih h
  | case3 _ nextReset _ hlater =>
      rw [← Option.some.inj h]
      exact not_le.mp hlater

/-- A reset that is due is followed by one that is not. -/
theorem nextResetAfter_lt {duration : String} {previousResetAt now next : DateTime}
    {anchorDay : Option ℕ} (hdue : previousResetAt ≤ now)
    (h : nextResetAfter duration previousResetAt now anchorDay = some next) :
    previousResetAt < next ∧ now < next := by
  unfold nextResetAfter at h
  split at h
  · cases h
  · rename_i amount positive _ _
    exact nextFixedResetAfter_lt (Nat.mul_pos positive (by decide)) h
  · rename_i amount positive _ _
    exact nextFixedResetAfter_lt (Nat.mul_pos positive (by decide)) h
  · have hnow := monthResetFrom_lt h
    exact ⟨hdue.trans_lt hnow, hnow⟩

/-- The day that is stored is the day that is read. -/
theorem monthlyAnchorDay_withMonthlyAnchorDay (metadata : Option JsonObject) {day : ℕ}
    (h : 1 ≤ day ∧ day ≤ 31) :
    monthlyAnchorDay (some (withMonthlyAnchorDay metadata day)) = some day := by
  have hbounds : (1 : ℤ) ≤ day ∧ (day : ℤ) ≤ 31 := by omega
  simp [monthlyAnchorDay, withMonthlyAnchorDay, StreamingCache.toInt, hbounds]

end BudgetPeriods
