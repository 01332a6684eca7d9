import DeltaLLM.BudgetPeriods
import DeltaLLM.LazySchedules

/-! # The schedule of the resets

A reset lies whole periods behind the previous one. Hours and days are spans of time; months are
counted in the calendar, and each reset falls on the anchor day or on the last day of a shorter
month.
-/
namespace ResetSchedule

open CalendarDates BudgetPeriods LazySchedules
open Relation (ReflTransGen TransGen)

/-- The length of a unit that is a span of time, none for months. -/
def fixedLength : DurationUnit → Option ℕ
  | .hour => some microsecondsPerHour
  | .day => some microsecondsPerDay
  | .month => none

/-- The same time of day months later, on the anchor day or on the last day of a shorter month. -/
structure MonthsLater (anchorDay : ℕ) (previous : DateTime) (months : ℕ) (t : DateTime) : Prop where
  month : t.date.monthIndex = previous.date.monthIndex + months
  day : t.date.day = min anchorDay (daysInMonth t.date.year t.date.month)
  time : t.timeOfDay = previous.timeOfDay

/-- The time so many periods behind another. -/
def Scheduled (period : Duration) (anchorDay : ℕ) (previous : DateTime) (k : ℕ) (t : DateTime) :
    Prop :=
  match fixedLength period.unit with
  | some length => t.instant = previous.instant + period.amount * length * k
  | none => MonthsLater anchorDay previous (period.amount * k) t

/-! ## Months of the calendar -/

theorem daysInMonth_pos (year month : ℕ) : 0 < daysInMonth year month := by
  unfold daysInMonth
  split_ifs <;> omega

section Months

variable {anchorDay : ℕ} {value previous now t u : DateTime} {months later : ℕ}

/-- A date is its month and its day. -/
theorem date_eq_of_monthIndex {date other : Date} (h : date.Valid) (hother : other.Valid)
    (hmonth : date.monthIndex = other.monthIndex) (hday : date.day = other.day) : date = other := by
  have hmonths := And.intro h.month hother.month
  obtain ⟨year, month, day⟩ := date
  obtain ⟨otherYear, otherMonth, otherDay⟩ := other
  simp only [Date.monthIndex] at hmonth hday hmonths
  have hyears : year = otherYear := by omega
  have hsame : month = otherMonth := by omega
  rw [hyears, hsame, hday]

theorem MonthsLater.unique (ht : MonthsLater anchorDay value months t)
    (hu : MonthsLater anchorDay value months u) : t = u := by
  have hmonth : t.date.monthIndex = u.date.monthIndex := ht.month.trans hu.month.symm
  have hmonths := And.intro t.date_valid.month u.date_valid.month
  refine DateTime.ext_date ?_ (ht.time.trans hu.time.symm)
  refine date_eq_of_monthIndex t.date_valid u.date_valid hmonth ?_
  have hyear : t.date.year = u.date.year := by
    simp only [Date.monthIndex] at hmonth
    omega
  have hsame : t.date.month = u.date.month := by
    simp only [Date.monthIndex] at hmonth
    omega
  rw [ht.day, hu.day, hyear, hsame]

theorem MonthsLater.lt (hlt : months < later) (ht : MonthsLater anchorDay value months t)
    (hu : MonthsLater anchorDay value later u) : t < u := by
  apply DateTime.lt_of_monthIndex
  rw [ht.month, hu.month]
  omega

/-- The date that `_add_months` makes up. -/
def addedDate (value : DateTime) (months anchorDay : ℕ) : Date :=
  let zeroBasedMonth := value.date.month - 1 + months
  let year := value.date.year + zeroBasedMonth / 12
  let month := zeroBasedMonth % 12 + 1
  ⟨year, month, min anchorDay (daysInMonth year month)⟩

theorem addedDate_monthIndex (value : DateTime) (months anchorDay : ℕ) :
    (addedDate value months anchorDay).monthIndex = value.date.monthIndex + months := by
  have hmonth := value.date_valid.month
  simp only [addedDate, Date.monthIndex]
  omega

theorem addedDate_valid (hanchor : 0 < anchorDay)
    (h : (addedDate value months anchorDay).year ≤ maxYear) :
    (addedDate value months anchorDay).Valid := by
  have hyear := value.date_valid.year
  refine ⟨⟨?_, h⟩, ⟨Nat.succ_pos _, ?_⟩, ?_, Nat.min_le_right _ _⟩
  · simp only [addedDate]
    omega
  · simp only [addedDate]
    omega
  · exact lt_min hanchor (daysInMonth_pos _ _)

/-- `_add_months` gives the time so many months later, and fails only past the year 9999. -/
theorem addMonths_eq_some_iff (hanchor : 0 < anchorDay) :
    addMonths value months (some anchorDay) = some t ↔ MonthsLater anchorDay value months t := by
  have hadd : addMonths value months (some anchorDay) =
      value.replaceDate (addedDate value months anchorDay) := rfl
  have hindex := addedDate_monthIndex value months anchorDay
  rw [hadd]
  by_cases hyear : (addedDate value months anchorDay).year ≤ maxYear
  · have hvalid := addedDate_valid hanchor hyear
    rw [DateTime.replaceDate_eq_some_iff hvalid]
    constructor
    · rintro ⟨hdate, htime⟩
      exact ⟨hdate ▸ hindex, by rw [hdate]; rfl, htime⟩
    · rintro ⟨hmonth, hday, htime⟩
      have hmonths := And.intro t.date_valid.month hvalid.month
      have hsame : t.date.monthIndex = (addedDate value months anchorDay).monthIndex :=
        hmonth.trans hindex.symm
      refine ⟨date_eq_of_monthIndex t.date_valid hvalid hsame ?_, htime⟩
      simp only [Date.monthIndex] at hsame
      have hyears : t.date.year = (addedDate value months anchorDay).year := by omega
      have hmonthOf : t.date.month = (addedDate value months anchorDay).month := by omega
      rw [hday, hyears, hmonthOf]
      rfl
  · have hnone : value.replaceDate (addedDate value months anchorDay) = none := by
      rw [DateTime.replaceDate, if_neg hyear]
    rw [hnone]
    refine iff_of_false (by simp) fun h => ?_
    have hbound := t.date_valid.year.2
    have hmonths := t.date_valid.month
    have hmonth := h.month
    rw [← hindex] at hmonth
    simp only [Date.monthIndex] at hmonth
    omega

/-- A time months later has the times of fewer months before it. -/
theorem MonthsLater.exists_le (hanchor : 0 < anchorDay) (h : MonthsLater anchorDay value later t)
    (hle : months ≤ later) : ∃ u, MonthsLater anchorDay value months u := by
  have hindex := addedDate_monthIndex value months anchorDay
  have hyear : (addedDate value months anchorDay).year ≤ maxYear := by
    have hbound := t.date_valid.year.2
    have hmonths := t.date_valid.month
    have hmonth := h.month
    simp only [Date.monthIndex] at hindex hmonth
    omega
  have hvalid := addedDate_valid hanchor hyear
  exact ⟨_, (addMonths_eq_some_iff hanchor).mp (value.replaceDate_eq hvalid)⟩

theorem monthResetFrom_eq {amount : ℕ} (positive : 0 < amount) (anchor : Option ℕ) (k : ℕ) :
    monthResetFrom value now amount positive anchor k =
      (addMonths value (amount * k) anchor).bind fun next =>
        if next ≤ now then monthResetFrom value now amount positive anchor (k + 1)
        else some next := by
  rw [monthResetFrom]
  split
  next hnone =>
    rw [hnone]
    rfl
  next hsome =>
    rw [hsome]
    rfl

/-- The loop finds the first time after now when those it starts behind are over. -/
theorem monthResetFrom_eq_some_iff {amount k : ℕ} (positive : 0 < amount) (hanchor : 0 < anchorDay)
    (hk : 1 ≤ k)
    (hover : ∀ j u, 1 ≤ j → j < k → MonthsLater anchorDay value (amount * j) u → u ≤ now) :
    monthResetFrom value now amount positive (some anchorDay) k = some t ↔
      IsLeast {t | (∃ j, 1 ≤ j ∧ MonthsLater anchorDay value (amount * j) t) ∧ now < t} t := by
  induction k using monthResetFrom.induct value now amount positive (some anchorDay) with
  | case1 k hnone =>
      rw [monthResetFrom_eq, hnone, Option.bind_none]
      refine iff_of_false (by simp) ?_
      rintro ⟨⟨⟨j, hj, hlater⟩, hnow⟩, _⟩
      by_cases hlt : j < k
      · exact absurd (hover j t hj hlt hlater) (not_le.mpr hnow)
      · obtain ⟨u, hu⟩ := hlater.exists_le hanchor (Nat.mul_le_mul_left amount (Nat.not_lt.mp hlt))
        rw [(addMonths_eq_some_iff hanchor).mpr hu] at hnone
        cases hnone
  | case2 k next hnext hle ih =>
      rw [monthResetFrom_eq, hnext, Option.bind_some, if_pos hle]
      refine ih (Nat.le_succ_of_le hk) ?_
      intro j u hj hlt hu
      by_cases hlast : j = k
      · subst hlast
        exact (((addMonths_eq_some_iff hanchor).mp hnext).unique hu) ▸ hle
      · exact hover j u hj (by omega) hu
  | case3 k next hnext hlater =>
      have hfound := (addMonths_eq_some_iff hanchor).mp hnext
      have hleast : IsLeast
        {t | (∃ j, 1 ≤ j ∧ MonthsLater anchorDay value (amount * j) t) ∧ now < t}
          next := by
        refine ⟨⟨⟨k, hk, hfound⟩, not_le.mp hlater⟩, ?_⟩
        rintro u ⟨⟨j, hj, hu⟩, hnow⟩
        rcases Nat.lt_trichotomy j k with hlt | rfl | hgt
        · exact absurd (hover j u hj hlt hu) (not_le.mpr hnow)
        · exact (hfound.unique hu).le
        · exact (hfound.lt (Nat.mul_lt_mul_of_pos_left hgt positive) hu).le
      rw [monthResetFrom_eq, hnext, Option.bind_some, if_neg hlater, Option.some_inj]
      exact ⟨fun h => h ▸ hleast, fun h => hleast.unique h⟩

/-- `_next_month_reset_after` starts no later than at the first time after now. -/
theorem nextMonthResetAfter_eq_some_iff {amount : ℕ} (positive : 0 < amount)
    (hanchor : 0 < anchorDay) :
    nextMonthResetAfter value amount positive now (some anchorDay) = some t ↔
      IsLeast {t | (∃ j, 1 ≤ j ∧ MonthsLater anchorDay value (amount * j) t) ∧ now < t} t := by
  rw [nextMonthResetAfter]
  refine monthResetFrom_eq_some_iff positive hanchor (Nat.le_max_left ..) ?_
  intro j u hj hlt hu
  have hmonths := And.intro value.date_valid.month now.date_valid.month
  have hmonth := hu.month
  have hfew : amount * (j + 1) ≤
      now.date.year * 12 + now.date.month - (value.date.year * 12 + value.date.month) := by
    refine Nat.le_trans (Nat.mul_le_mul_left amount ?_) (Nat.mul_div_le _ amount)
    omega
  rw [Nat.mul_succ] at hfew
  refine (DateTime.lt_of_monthIndex ?_).le
  simp only [Date.monthIndex] at hmonth ⊢
  omega

end Months

/-! ## Spans of time -/

theorem ofInstant_eq_some_iff {instant : ℕ} {t : DateTime} :
    ofInstant instant = some t ↔ t.instant = instant := by
  refine ⟨ofInstant_some, ?_⟩
  rintro rfl
  rw [ofInstant, dif_pos t.inRange]

/-- `_next_fixed_reset_after` gives the first time after now. -/
theorem nextFixedResetAfter_eq_some_iff {previous now t : DateTime} {step : ℕ} (hstep : 0 < step)
    (hdue : previous ≤ now) :
    nextFixedResetAfter previous step now = some t ↔
      IsLeast {t : DateTime | (∃ k, 1 ≤ k ∧ t.instant = previous.instant + step * k) ∧
        now < t} t := by
  have hinstants : previous.instant ≤ now.instant := hdue
  set elapsed := (now.instant - previous.instant) / step with helapsed
  have hlow : step * elapsed ≤ now.instant - previous.instant := Nat.mul_div_le _ _
  have hhigh : now.instant - previous.instant < step * (elapsed + 1) :=
    Nat.lt_mul_div_succ _ hstep
  have hfirst : ∀ u : DateTime, (∃ k, 1 ≤ k ∧ u.instant = previous.instant + step * k) ∧ now < u →
      previous.instant + step * (elapsed + 1) ≤ u.instant := by
    rintro u ⟨⟨k, -, hu⟩, hnow⟩
    rw [lt_iff] at hnow
    have hmore : elapsed < k := by
      by_contra hle
      have hmul := Nat.mul_le_mul_left step (Nat.not_lt.mp hle)
      omega
    have hmul := Nat.mul_le_mul_left step hmore
    rw [Nat.succ_eq_add_one] at hmul
    omega
  rw [nextFixedResetAfter, ofInstant_eq_some_iff]
  change t.instant = previous.instant + step * (elapsed + 1) ↔ _
  constructor
  · intro ht
    refine ⟨⟨⟨elapsed + 1, Nat.succ_pos _, ht⟩, ?_⟩, ?_⟩
    · rw [lt_iff, ht]
      omega
    · intro u hu
      exact ht.trans_le (hfirst u hu)
  · intro h
    have hle := hfirst t h.1
    have hrange := hle.trans_lt t.inRange
    have hnow : now < ⟨previous.instant + step * (elapsed + 1), hrange⟩ := by
      change now.instant < previous.instant + step * (elapsed + 1)
      omega
    have hleast := h.2 ⟨⟨elapsed + 1, Nat.succ_pos _, rfl⟩, hnow⟩
    exact le_antisymm hleast hle

/-! ## The schedule -/

section Scheduling

variable {period : Duration} {anchorDay : ℕ} {previous now t u : DateTime} {j k : ℕ}

theorem fixedLength_pos {unit : DurationUnit} {length : ℕ} (h : fixedLength unit = some length) :
    0 < length := by
  cases unit with
  | hour =>
      cases h
      decide
  | day =>
      cases h
      decide
  | month => cases h

theorem Scheduled.unique (ht : Scheduled period anchorDay previous k t)
    (hu : Scheduled period anchorDay previous k u) : t = u := by
  unfold Scheduled at ht hu
  cases hlength : fixedLength period.unit with
  | some length =>
      rw [hlength] at ht hu
      exact instant_injective (ht.trans hu.symm)
  | none =>
      rw [hlength] at ht hu
      exact MonthsLater.unique ht hu

theorem Scheduled.lt (h : Scheduled period anchorDay previous k t) (hk : 1 ≤ k) : previous < t := by
  unfold Scheduled at h
  cases hlength : fixedLength period.unit with
  | some length =>
      rw [hlength] at h
      have hpos := Nat.mul_pos (Nat.mul_pos period.positive (fixedLength_pos hlength)) hk
      rw [lt_iff, h]
      omega
  | none =>
      rw [hlength] at h
      have hpos := Nat.mul_pos period.positive hk
      apply DateTime.lt_of_monthIndex
      rw [h.month]
      omega

/-- Periods behind a reset are more periods behind the reset before it. -/
theorem Scheduled.add (ht : Scheduled period anchorDay previous j t)
    (hu : Scheduled period anchorDay t k u) : Scheduled period anchorDay previous (j + k) u := by
  unfold Scheduled at ht hu ⊢
  cases hlength : fixedLength period.unit with
  | some length =>
      rw [hlength] at ht hu
      simp only [ht] at hu
      simp only [hu, Nat.mul_add, Nat.add_assoc]
  | none =>
      rw [hlength] at ht hu
      refine ⟨?_, hu.day, hu.time.trans ht.time⟩
      rw [hu.month, ht.month, Nat.mul_add, Nat.add_assoc]

/-- The reset one period before another one, and it leads there. -/
theorem Scheduled.exists_before (hanchor : 0 < anchorDay)
    (h : Scheduled period anchorDay previous (k + 1) t) :
    ∃ u, Scheduled period anchorDay previous k u ∧ Scheduled period anchorDay u 1 t := by
  unfold Scheduled at h ⊢
  cases hlength : fixedLength period.unit with
  | some length =>
      rw [hlength] at h
      have hrange := t.inRange
      rw [h, Nat.mul_succ, ← Nat.add_assoc] at hrange
      refine ⟨⟨previous.instant + period.amount * length * k, by omega⟩, rfl, ?_⟩
      simp only [h, Nat.mul_succ, Nat.mul_zero]
      omega
  | none =>
      rw [hlength] at h
      obtain ⟨u, hu⟩ := MonthsLater.exists_le hanchor h
        (Nat.mul_le_mul_left period.amount (Nat.le_succ k))
      refine ⟨u, hu, ?_, h.day, h.time.trans hu.time.symm⟩
      rw [h.month, hu.month, Nat.mul_succ, Nat.mul_one, Nat.add_assoc]

/-- The schedule of a duration: the next time is one period later. -/
def resetSchedule (period : Duration) (anchorDay : ℕ) : Schedule DateTime where
  next previous t := Scheduled period anchorDay previous 1 t
  unique _ _ _ ht hu := Scheduled.unique ht hu
  later h := Scheduled.lt h (le_refl 1)

theorem transGen_resetSchedule_iff (hanchor : 0 < anchorDay) :
    TransGen (resetSchedule period anchorDay).next previous t ↔
      ∃ k, 1 ≤ k ∧ Scheduled period anchorDay previous k t := by
  constructor
  · intro h
    induction h with
    | single hnext => exact ⟨1, le_refl 1, hnext⟩
    | tail _ hnext ih =>
        obtain ⟨k, hk, hbefore⟩ := ih
        exact ⟨k + 1, Nat.le_succ_of_le hk, hbefore.add hnext⟩
  · rintro ⟨k, hk, h⟩
    induction k, hk using Nat.le_induction generalizing t with
    | base => exact .single h
    | succ k _ ih =>
        obtain ⟨u, hbefore, hnext⟩ := h.exists_before hanchor
        exact (ih hbefore).tail hnext

/-- `_next_reset_after` gives the first scheduled time after now. -/
theorem nextResetAfter_eq_some_iff {duration : String}
    (hparse : parseDuration duration = some period)
    (hanchor : 0 < anchorDay) (hdue : previous ≤ now) :
    nextResetAfter duration previous now (some anchorDay) = some t ↔
      IsLeast {t | (∃ k, 1 ≤ k ∧ Scheduled period anchorDay previous k t) ∧ now < t} t := by
  rw [nextResetAfter, hparse]
  obtain ⟨amount, unit, positive, bounded⟩ := period
  cases unit with
  | hour => exact nextFixedResetAfter_eq_some_iff (Nat.mul_pos positive (by decide)) hdue
  | day => exact nextFixedResetAfter_eq_some_iff (Nat.mul_pos positive (by decide)) hdue
  | month => exact nextMonthResetAfter_eq_some_iff positive hanchor

end Scheduling

/-- The reset that a check leaves: one that is due is moved, and one to come stays. -/
def checkReset (duration : String) (anchorDay : ℕ) (resetAt now : DateTime) : Option DateTime :=
  check (fun previous now => nextResetAfter duration previous now (some anchorDay)) resetAt now

/-- The next reset is the first scheduled one after now, wherever there is one, and lazy checks lead
to the first one after all of them that is met period by period. -/
theorem next_reset_least {duration : String} {period : Duration} {anchorDay : ℕ}
    (hparse : parseDuration duration = some period) (hanchor : 1 ≤ anchorDay ∧ anchorDay ≤ 31) :
    (∀ previous now : DateTime, previous ≤ now →
      (∀ t, nextResetAfter duration previous now (some anchorDay) = some t ↔
        IsLeast {t | (∃ k, 1 ≤ k ∧ Scheduled period anchorDay previous k t) ∧ now < t} t) ∧
      ((∃ t k, 1 ≤ k ∧ Scheduled period anchorDay previous k t ∧ now < t) →
        (nextResetAfter duration previous now (some anchorDay)).isSome)) ∧
    ∀ (start : DateTime) (checks : List DateTime) (t : DateTime),
      checks.foldlM (checkReset duration anchorDay) start = some t ↔
        IsLeast {t | ReflTransGen
          (fun previous t => Scheduled period anchorDay previous 1 t) start t ∧
          ∀ now ∈ checks, now < t} t := by
  have hleap : ∀ previous now t, previous ≤ now →
      (nextResetAfter duration previous now (some anchorDay) = some t ↔
        IsLeast ((resetSchedule period anchorDay).after previous now) t) := by
    intro previous now t hdue
    have hafter : (resetSchedule period anchorDay).after previous now =
        {t | (∃ k, 1 ≤ k ∧ Scheduled period anchorDay previous k t) ∧ now < t} := by
      ext t
      exact and_congr_left fun _ => transGen_resetSchedule_iff hanchor.1
    rw [hafter]
    exact nextResetAfter_eq_some_iff hparse hanchor.1 hdue
  refine ⟨fun previous now hdue => ⟨fun t => ?_, ?_⟩, fun start checks t => ?_⟩
  · exact nextResetAfter_eq_some_iff hparse hanchor.1 hdue
  · rintro ⟨t, k, hk, hscheduled, hnow⟩
    have hreach := (transGen_resetSchedule_iff hanchor.1).mpr ⟨k, hk, hscheduled⟩
    obtain ⟨u, hu⟩ := Schedule.exists_isLeast_met hreach.to_reflTransGen hnow
    rw [Schedule.met_singleton hdue] at hu
    rw [(hleap previous now u hdue).mpr hu]
    rfl
  · exact foldlM_check_eq_some_iff hleap

def noonOf (date : Date) : ℕ := date.dayNumber * microsecondsPerDay + 12 * microsecondsPerHour

/-- Noon on the last day of January, on the leap day and on the last day of March. -/
def january : DateTime := ⟨noonOf ⟨2024, 1, 31⟩, by decide⟩

def february : DateTime := ⟨noonOf ⟨2024, 2, 29⟩, by decide⟩

def march : DateTime := ⟨noonOf ⟨2024, 3, 31⟩, by decide⟩

def monthly : Duration := ⟨1, .month, by decide, by decide⟩

/-- The clamped day of February does not stay: at noon of the leap day the next reset is the
31st. -/
theorem next_reset_least_monthly :
    IsLeast {t | (∃ k, 1 ≤ k ∧ Scheduled monthly 31 january k t) ∧ february < t} march := by
  have hparse : parseDuration "1mo" = some monthly := by decide +kernel
  have hnext : nextResetAfter "1mo" january february (some 31) = some march := by
    decide +kernel
  have hdue : january ≤ february := by
    change january.instant ≤ february.instant
    decide
  exact (((next_reset_least hparse (by decide)).1 january february hdue).1 march).mp hnext

end ResetSchedule
