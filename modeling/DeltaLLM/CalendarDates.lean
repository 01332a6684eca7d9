import Mathlib.Data.Nat.Find
import Mathlib.Order.Basic
import Mathlib.Order.Lattice

/-! # Dates of the Gregorian calendar

A moment is counted in microseconds from the start of year 1, and read as a year, a month, a day and
a time of day. Years run up to 9999, as in Python's `datetime`.
-/
namespace CalendarDates

def isLeap (year : ℕ) : Bool := year % 4 = 0 ∧ (year % 100 ≠ 0 ∨ year % 400 = 0)

def daysInMonth (year month : ℕ) : ℕ :=
  if month = 2 then if isLeap year then 29 else 28
  else if month = 4 ∨ month = 6 ∨ month = 9 ∨ month = 11 then 30
  else 31

/-- The days before the first of January. -/
def daysBeforeYear (year : ℕ) : ℕ :=
  (year - 1) * 365 + (year - 1) / 4 - (year - 1) / 100 + (year - 1) / 400

def daysInYear (year : ℕ) : ℕ := if isLeap year then 366 else 365

/-- The days of the year before the first of the month. -/
def daysBeforeMonth (year : ℕ) : ℕ → ℕ
  | 0 => 0
  | month + 1 => daysBeforeMonth year month + if month = 0 then 0 else daysInMonth year month

structure Date where
  year : ℕ
  month : ℕ
  day : ℕ
  deriving DecidableEq, Repr

/-- Days since the first day of year 1. -/
def Date.dayNumber (date : Date) : ℕ :=
  daysBeforeYear date.year + daysBeforeMonth date.year date.month + (date.day - 1)

def maxYear : ℕ := 9999

def yearOf (dayNumber : ℕ) : ℕ :=
  Nat.findGreatest (fun year => 0 < year ∧ daysBeforeYear year ≤ dayNumber) maxYear

def monthOf (year dayOfYear : ℕ) : ℕ :=
  Nat.findGreatest (fun month => 0 < month ∧ daysBeforeMonth year month ≤ dayOfYear) 12

def dateOf (dayNumber : ℕ) : Date :=
  let year := yearOf dayNumber
  let dayOfYear := dayNumber - daysBeforeYear year
  let month := monthOf year dayOfYear
  ⟨year, month, dayOfYear - daysBeforeMonth year month + 1⟩

theorem isLeap_iff {year : ℕ} :
    isLeap year = true ↔ 4 ∣ year ∧ (¬100 ∣ year ∨ 400 ∣ year) := by
  simp [isLeap, Nat.dvd_iff_mod_eq_zero]

theorem daysBeforeYear_succ {year : ℕ} (h : 0 < year) :
    daysBeforeYear (year + 1) = daysBeforeYear year + daysInYear year := by
  obtain ⟨k, rfl⟩ := Nat.exists_eq_succ_of_ne_zero (Nat.pos_iff_ne_zero.mp h)
  have hcentury : 100 ∣ k + 1 → 4 ∣ k + 1 := fun hdvd => Nat.dvd_trans (by decide) hdvd
  have hera : 400 ∣ k + 1 → 100 ∣ k + 1 := fun hdvd => Nat.dvd_trans (by decide) hdvd
  have hle : k / 100 ≤ k / 4 := Nat.div_le_div_left (by decide) (by decide)
  simp only [daysBeforeYear, daysInYear, isLeap_iff, Nat.succ_eq_add_one, Nat.add_sub_cancel,
    Nat.succ_div]
  by_cases h4 : 4 ∣ k + 1
  · by_cases h100 : 100 ∣ k + 1
    · by_cases h400 : 400 ∣ k + 1
      · simp only [h4, h100, h400, if_true, not_true, or_true, and_self]
        omega
      · simp only [h4, h100, h400, if_true, if_false, not_true, or_false, and_false]
        omega
    · have h400 : ¬400 ∣ k + 1 := mt hera h100
      simp only [h4, h100, h400, if_true, if_false, not_false_eq_true, true_or, and_self]
      omega
  · have h100 : ¬100 ∣ k + 1 := mt hcentury h4
    have h400 : ¬400 ∣ k + 1 := mt hera h100
    simp only [h4, h100, h400, if_false, false_and]
    omega

theorem daysBeforeMonth_succ {year month : ℕ} (h : 0 < month) :
    daysBeforeMonth year (month + 1) = daysBeforeMonth year month + daysInMonth year month := by
  rw [daysBeforeMonth, if_neg (by omega)]

theorem daysBeforeMonth_thirteen (year : ℕ) : daysBeforeMonth year 13 = daysInYear year := by
  unfold daysInYear
  cases hleap : isLeap year <;> simp [daysBeforeMonth, daysInMonth, hleap]

/-- The greatest index that starts at or before a number, of starts from nothing up past it. -/
theorem findGreatest_start (start : ℕ → ℕ) {n bound : ℕ} (hbound : 0 < bound) (hfirst : start 1 ≤ n)
    (hlast : n < start (bound + 1)) :
    let k := Nat.findGreatest (fun k => 0 < k ∧ start k ≤ n) bound
    0 < k ∧ k ≤ bound ∧ start k ≤ n ∧ n < start (k + 1) := by
  intro k
  have hspec : 0 < k ∧ start k ≤ n :=
    Nat.findGreatest_spec (P := fun k => 0 < k ∧ start k ≤ n) hbound ⟨Nat.one_pos, hfirst⟩
  have hle : k ≤ bound := Nat.findGreatest_le bound
  refine ⟨hspec.1, hle, hspec.2, ?_⟩
  by_cases hend : k = bound
  · rwa [hend]
  · have hnext := Nat.findGreatest_is_greatest (P := fun k => 0 < k ∧ start k ≤ n)
      (Nat.lt_succ_self k) (show k + 1 ≤ bound by omega)
    by_contra hlt
    exact hnext ⟨Nat.succ_pos k, Nat.not_lt.mp hlt⟩

theorem yearOf_spec {dayNumber : ℕ} (h : dayNumber < daysBeforeYear (maxYear + 1)) :
    0 < yearOf dayNumber ∧ yearOf dayNumber ≤ maxYear ∧
      daysBeforeYear (yearOf dayNumber) ≤ dayNumber ∧
      dayNumber < daysBeforeYear (yearOf dayNumber) + daysInYear (yearOf dayNumber) := by
  obtain ⟨hyear, hmax, hstart, hend⟩ :=
    findGreatest_start daysBeforeYear (by decide) (Nat.zero_le _) h
  exact ⟨hyear, hmax, hstart, daysBeforeYear_succ hyear ▸ hend⟩

theorem monthOf_spec {year dayOfYear : ℕ} (h : dayOfYear < daysInYear year) :
    0 < monthOf year dayOfYear ∧ monthOf year dayOfYear ≤ 12 ∧
      daysBeforeMonth year (monthOf year dayOfYear) ≤ dayOfYear ∧
      dayOfYear < daysBeforeMonth year (monthOf year dayOfYear) +
        daysInMonth year (monthOf year dayOfYear) := by
  rw [← daysBeforeMonth_thirteen] at h
  obtain ⟨hmonth, hmax, hstart, hend⟩ :=
    findGreatest_start (daysBeforeMonth year) (by decide) (Nat.zero_le _) h
  exact ⟨hmonth, hmax, hstart, daysBeforeMonth_succ hmonth ▸ hend⟩

/-- A date of the calendar. -/
structure Date.Valid (date : Date) : Prop where
  year : 0 < date.year ∧ date.year ≤ maxYear
  month : 0 < date.month ∧ date.month ≤ 12
  day : 0 < date.day ∧ date.day ≤ daysInMonth date.year date.month

/-- The date that is read off a day number is a date of the calendar and has this number. -/
theorem dateOf_valid {dayNumber : ℕ} (h : dayNumber < daysBeforeYear (maxYear + 1)) :
    (dateOf dayNumber).Valid ∧ (dateOf dayNumber).dayNumber = dayNumber := by
  obtain ⟨hyear, hmaxYear, hstart, hend⟩ := yearOf_spec h
  have hday : dayNumber - daysBeforeYear (yearOf dayNumber) < daysInYear (yearOf dayNumber) := by
    omega
  obtain ⟨hmonth, hmaxMonth, hfirst, hlast⟩ := monthOf_spec hday
  constructor
  · refine ⟨⟨hyear, hmaxYear⟩, ⟨hmonth, hmaxMonth⟩, Nat.succ_pos _, ?_⟩
    simp only [dateOf]
    omega
  · simp only [Date.dayNumber, dateOf]
    omega

theorem daysBeforeYear_le {year later : ℕ} (h : 0 < year) (hle : year ≤ later) :
    daysBeforeYear year ≤ daysBeforeYear later := by
  induction later, hle using Nat.le_induction with
  | base => exact le_refl _
  | succ later hle ih =>
      have hyear := daysBeforeYear_succ (h.trans_le hle)
      omega

theorem daysBeforeMonth_le (year : ℕ) {month later : ℕ} (hle : month ≤ later) :
    daysBeforeMonth year month ≤ daysBeforeMonth year later := by
  induction later, hle using Nat.le_induction with
  | base => exact le_refl _
  | succ later _ ih =>
      rw [daysBeforeMonth]
      omega

/-- Of growing starts, the greatest at or before a number is the one whose span holds it. -/
theorem findGreatest_eq (start : ℕ → ℕ) {n k bound : ℕ} (hk : 0 < k) (hbound : k ≤ bound)
    (hstart : start k ≤ n) (hend : n < start (k + 1))
    (hmono : ∀ j, k < j → start (k + 1) ≤ start j) :
    Nat.findGreatest (fun k => 0 < k ∧ start k ≤ n) bound = k := by
  rw [Nat.findGreatest_eq_iff]
  refine ⟨hbound, fun _ => ⟨hk, hstart⟩, ?_⟩
  intro j hj _ hlater
  have hle := hmono j hj
  omega

theorem Date.Valid.dayOfYear_lt {date : Date} (h : date.Valid) :
    daysBeforeMonth date.year date.month + (date.day - 1) <
      daysBeforeMonth date.year (date.month + 1) := by
  have hday := h.day
  rw [daysBeforeMonth_succ h.month.1]
  omega

theorem Date.Valid.dayNumber_lt {date : Date} (h : date.Valid) :
    date.dayNumber < daysBeforeYear (date.year + 1) := by
  have hmonth : date.month + 1 ≤ 13 := by
    have hmax := h.month.2
    omega
  have hyear := daysBeforeMonth_le date.year hmonth
  have hday := h.dayOfYear_lt
  rw [daysBeforeMonth_thirteen] at hyear
  rw [daysBeforeYear_succ h.year.1, Date.dayNumber]
  omega

/-- A date of the calendar is read off its number. -/
theorem dateOf_dayNumber {date : Date} (h : date.Valid) : dateOf date.dayNumber = date := by
  have hyear : yearOf date.dayNumber = date.year := by
    refine findGreatest_eq daysBeforeYear h.year.1 h.year.2 ?_ h.dayNumber_lt ?_
    · rw [Date.dayNumber]
      omega
    · exact fun later hlater => daysBeforeYear_le (Nat.succ_pos _) hlater
  have hrest : date.dayNumber - daysBeforeYear date.year =
      daysBeforeMonth date.year date.month + (date.day - 1) := by
    rw [Date.dayNumber]
    omega
  have hmonth : monthOf date.year (daysBeforeMonth date.year date.month + (date.day - 1)) =
      date.month := by
    refine findGreatest_eq (daysBeforeMonth date.year) h.month.1 h.month.2
      (by omega) h.dayOfYear_lt ?_
    exact fun later hlater => daysBeforeMonth_le date.year hlater
  have hday : date.day - 1 + 1 = date.day := Nat.sub_add_cancel h.day.1
  simp only [dateOf, hyear, hrest, hmonth, Nat.add_sub_cancel_left, hday]

/-- Months since the start of year 0. -/
def Date.monthIndex (date : Date) : ℕ := date.year * 12 + (date.month - 1)

/-- The date of a later month comes later. -/
theorem Date.Valid.dayNumber_lt_of_monthIndex {date other : Date} (h : date.Valid)
    (hother : other.Valid) (hlt : date.monthIndex < other.monthIndex) :
    date.dayNumber < other.dayNumber := by
  have hmonths := And.intro h.month hother.month
  rw [Date.monthIndex, Date.monthIndex] at hlt
  by_cases hyear : date.year < other.year
  · have hstart : daysBeforeYear (date.year + 1) ≤ daysBeforeYear other.year :=
      daysBeforeYear_le (Nat.succ_pos _) hyear
    have hend := h.dayNumber_lt
    rw [Date.dayNumber] at hend ⊢
    rw [Date.dayNumber]
    omega
  · have hsame : date.year = other.year := by omega
    have hmonth : date.month + 1 ≤ other.month := by omega
    have hstart := daysBeforeMonth_le date.year hmonth
    have hend := h.dayOfYear_lt
    rw [Date.dayNumber, Date.dayNumber, ← hsame]
    omega

/-! ## Moments -/

def microsecondsPerDay : ℕ := 86400 * 1000000

/-- A moment of the years 1 to 9999. -/
structure DateTime where
  instant : ℕ
  inRange : instant < daysBeforeYear (maxYear + 1) * microsecondsPerDay
  deriving DecidableEq

theorem instant_injective : Function.Injective DateTime.instant := by
  rintro ⟨instant, _⟩ ⟨_, _⟩ rfl
  rfl

instance : LinearOrder DateTime := LinearOrder.lift' DateTime.instant instant_injective

theorem lt_iff {value other : DateTime} : value < other ↔ value.instant < other.instant := Iff.rfl

/-- None past the year 9999. -/
def ofInstant (instant : ℕ) : Option DateTime :=
  if h : instant < daysBeforeYear (maxYear + 1) * microsecondsPerDay then some ⟨instant, h⟩
    else none

theorem ofInstant_some {instant : ℕ} {value : DateTime} (h : ofInstant instant = some value) :
    value.instant = instant := by
  unfold ofInstant at h
  split at h
  · rw [← Option.some.inj h]
  · cases h

def DateTime.date (value : DateTime) : Date := dateOf (value.instant / microsecondsPerDay)

/-- `value.replace(year, month, day)`: the time of day stays; none past the year 9999. -/
def DateTime.replaceDate (value : DateTime) (date : Date) : Option DateTime :=
  if date.year ≤ maxYear then
    ofInstant (date.dayNumber * microsecondsPerDay + value.instant % microsecondsPerDay)
  else none

theorem DateTime.replaceDate_year {value next : DateTime} {date : Date}
    (h : value.replaceDate date = some next) : date.year ≤ maxYear := by
  unfold DateTime.replaceDate at h
  split at h
  · assumption
  · cases h

theorem DateTime.date_valid (value : DateTime) : value.date.Valid :=
  (dateOf_valid (Nat.div_lt_of_lt_mul (by rw [Nat.mul_comm]; exact value.inRange))).1

theorem DateTime.dayNumber_date (value : DateTime) :
    value.date.dayNumber = value.instant / microsecondsPerDay :=
  (dateOf_valid (Nat.div_lt_of_lt_mul (by rw [Nat.mul_comm]; exact value.inRange))).2

def DateTime.timeOfDay (value : DateTime) : ℕ := value.instant % microsecondsPerDay

theorem DateTime.timeOfDay_lt (value : DateTime) : value.timeOfDay < microsecondsPerDay :=
  Nat.mod_lt _ (by decide)

/-- A date and a time of day make one moment. -/
theorem DateTime.ext_date {value other : DateTime} (hdate : value.date = other.date)
    (htime : value.timeOfDay = other.timeOfDay) : value = other := by
  apply instant_injective
  rw [← Nat.div_add_mod' value.instant microsecondsPerDay,
    ← Nat.div_add_mod' other.instant microsecondsPerDay, ← value.dayNumber_date,
    ← other.dayNumber_date, hdate]
  exact congrArg _ htime

theorem Date.Valid.inRange {date : Date} (h : date.Valid) {time : ℕ}
    (htime : time < microsecondsPerDay) :
    date.dayNumber * microsecondsPerDay + time <
      daysBeforeYear (maxYear + 1) * microsecondsPerDay := by
  have hspan : date.dayNumber + 1 ≤ daysBeforeYear (maxYear + 1) :=
    h.dayNumber_lt.trans_le (daysBeforeYear_le (Nat.succ_pos _) (Nat.succ_le_succ h.year.2))
  have hmul := Nat.mul_le_mul_right microsecondsPerDay hspan
  rw [Nat.succ_mul] at hmul
  omega

theorem DateTime.replaceDate_eq (value : DateTime) {date : Date} (h : date.Valid) :
    value.replaceDate date =
      some ⟨date.dayNumber * microsecondsPerDay + value.timeOfDay,
        h.inRange value.timeOfDay_lt⟩ := by
  rw [DateTime.replaceDate, if_pos h.year.2, ofInstant]
  exact dif_pos (h.inRange value.timeOfDay_lt)

/-- The replaced date is the new one, and the time of day has stayed. -/
theorem DateTime.replaceDate_eq_some_iff {value next : DateTime} {date : Date}
    (h : date.Valid) :
    value.replaceDate date = some next ↔ next.date = date ∧ next.timeOfDay = value.timeOfDay := by
  have htime := value.timeOfDay_lt
  have hpos : 0 < microsecondsPerDay := by decide
  have hnumber : (date.dayNumber * microsecondsPerDay + value.timeOfDay) / microsecondsPerDay =
      date.dayNumber := by
    rw [Nat.mul_comm, Nat.mul_add_div hpos, Nat.div_eq_of_lt htime, Nat.add_zero]
  have hday : (date.dayNumber * microsecondsPerDay + value.timeOfDay) % microsecondsPerDay =
      value.timeOfDay :=
    (Nat.mul_add_mod_self_right ..).trans (Nat.mod_eq_of_lt htime)
  have hdate := (congrArg dateOf hnumber).trans (dateOf_dayNumber h)
  rw [value.replaceDate_eq h, Option.some_inj]
  constructor
  · rintro rfl
    exact ⟨hdate, hday⟩
  · rintro ⟨hnext, hsame⟩
    exact DateTime.ext_date (hdate.trans hnext.symm) (hday.trans hsame.symm)

/-- A moment of a later month comes later. -/
theorem DateTime.lt_of_monthIndex {value other : DateTime}
    (h : value.date.monthIndex < other.date.monthIndex) : value < other := by
  have hdays := value.date_valid.dayNumber_lt_of_monthIndex other.date_valid h
  rw [value.dayNumber_date, other.dayNumber_date] at hdays
  rw [lt_iff]
  by_contra hle
  exact absurd (Nat.div_le_div_right (Nat.not_lt.mp hle)) (Nat.not_le.mpr hdays)

end CalendarDates
