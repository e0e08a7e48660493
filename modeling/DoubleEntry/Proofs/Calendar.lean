import DoubleEntry.Instant.Basic
import Mathlib

/-! # Days and dates

The date of a day number is a date, and its day number is the one that it was made from, for every day
that an instant falls on: `isValid_ofDayNumber` and `dayNumber_ofDayNumber`. Day numbers count the days of
the calendar one by one, `dayNumber_next`, and in the order of year, month and day, `compare_dayNumber`.
-/

namespace DoubleEntry.Calendar

/-- The year of a day begins on that day or before, and the next one after it. -/
theorem yearOf_bounds (days : Int) :
    daysBeforeYear (yearOf days) ≤ days ∧ days < daysBeforeYear (yearOf days + 1) := by
  unfold yearOf daysBeforeYear
  dsimp only
  split
  · omega
  · split <;> omega

theorem daysBeforeYear_succ (year : Int) :
    daysBeforeYear (year + 1) = daysBeforeYear year + if isLeap year then 366 else 365 := by
  have fours : year / 4 = (year - 1) / 4 + if year % 4 = 0 then 1 else 0 := by omega
  have hundreds : year / 100 = (year - 1) / 100 + if year % 100 = 0 then 1 else 0 := by omega
  have fourHundreds : year / 400 = (year - 1) / 400 + if year % 400 = 0 then 1 else 0 := by omega
  simp only [daysBeforeYear, isLeap, add_sub_cancel_right, fours, hundreds, fourHundreds, decide_eq_true_eq]
  have multiple : year % 400 = 0 → year % 100 = 0 ∧ year % 4 = 0 := by omega
  have hundred : year % 100 = 0 → year % 4 = 0 := by omega
  generalize (year - 1) / 4 = a, (year - 1) / 100 = b, (year - 1) / 400 = c
  by_cases year % 400 = 0 <;> by_cases year % 100 = 0 <;> by_cases year % 4 = 0 <;> simp_all <;> ring

/-! ## Months -/

variable {year other : Int}

theorem daysInMonth_le (year : Int) (month : Nat) : daysInMonth year month ≤ 31 := by
  unfold daysInMonth
  split
  · split <;> decide
  all_goals decide

/-- Years with as many days have the same months. -/
theorem daysBeforeMonth_congr (alike : isLeap year = isLeap other) (month : Nat) :
    daysBeforeMonth year month = daysBeforeMonth other month := by
  have same : daysInMonth year = daysInMonth other := by
    funext month
    simp only [daysInMonth, alike]
  rw [daysBeforeMonth, same, daysBeforeMonth]

theorem daysInMonth_pos (year : Int) (month : Nat) : 1 ≤ daysInMonth year month := by
  unfold daysInMonth
  split
  · split <;> decide
  all_goals decide

theorem daysBeforeMonth_succ (year : Int) {month : Nat} (positive : 1 ≤ month) :
    daysBeforeMonth year (month + 1) = daysBeforeMonth year month + daysInMonth year month := by
  have before : month + 1 - 1 = month - 1 + 1 := by omega
  change List.sum _ = List.sum _ + _
  rw [before, List.range'_concat, List.map_append, List.sum_append, List.map_singleton, List.sum_singleton,
    Nat.one_mul, Nat.add_sub_cancel' positive]

theorem daysBeforeMonth_mono (year : Int) {month after : Nat} (positive : 1 ≤ month) (before : month < after) :
    daysBeforeMonth year month + daysInMonth year month ≤ daysBeforeMonth year after := by
  induction after, before using Nat.le_induction with
  | base => exact (daysBeforeMonth_succ year positive).ge
  | succ after before ih =>
    rw [daysBeforeMonth_succ year (by omega)]
    omega

/-- The months of a year have as many days as the year. -/
theorem daysBeforeMonth_end (year : Int) :
    daysBeforeMonth year 13 = if isLeap year then 366 else 365 := by
  cases isLeapYear : isLeap year with
  | true => exact daysBeforeMonth_congr (isLeapYear.trans (by decide : true = isLeap 2000)) 13
  | false => exact daysBeforeMonth_congr (isLeapYear.trans (by decide : false = isLeap 2001)) 13

theorem daysBeforeYear_mono {before : Int} (early : year < before) :
    daysBeforeYear (year + 1) ≤ daysBeforeYear before := by
  unfold daysBeforeYear
  omega

/-- The month of a day of a year, both counted from zero days. -/
def monthOf (year : Int) (dayOfYear : Nat) : Nat :=
  ((List.range' 1 12).filter fun month => daysBeforeMonth year month ≤ dayOfYear).length

/-- What a month has to be for a day to fall in it. -/
def HasDay (year : Int) (dayOfYear month : Nat) : Prop :=
  1 ≤ month ∧ month ≤ 12 ∧ daysBeforeMonth year month ≤ dayOfYear ∧
    dayOfYear - daysBeforeMonth year month + 1 ≤ daysInMonth year month

instance (year : Int) (dayOfYear month : Nat) : Decidable (HasDay year dayOfYear month) :=
  inferInstanceAs (Decidable (_ ∧ _))

/-- Every day of a year falls in the month that is found for it; two years show it for all. -/
theorem hasDay_monthOf {dayOfYear : Nat} (inside : dayOfYear < if isLeap year then 366 else 365) :
    HasDay year dayOfYear (monthOf year dayOfYear) := by
  have leap : ∀ day < 366, HasDay 2000 day (monthOf 2000 day) := by decide +kernel
  have common : ∀ day < 365, HasDay 2001 day (monthOf 2001 day) := by decide +kernel
  have transfer (other : Int) (alike : isLeap year = isLeap other)
      (hasDay : HasDay other dayOfYear (monthOf other dayOfYear)) :
      HasDay year dayOfYear (monthOf year dayOfYear) := by
    have before := daysBeforeMonth_congr alike
    have within (month : Nat) : daysInMonth year month = daysInMonth other month := by
      simp only [daysInMonth, alike]
    simpa only [HasDay, monthOf, before, within] using hasDay
  cases isLeapYear : isLeap year with
  | true => exact transfer 2000 isLeapYear (leap dayOfYear (by simpa [isLeapYear] using inside))
  | false => exact transfer 2001 isLeapYear (common dayOfYear (by simpa [isLeapYear] using inside))

/-! ## Dates -/

/-- The parts of the date of a day. -/
theorem Date.ofDayNumber_parts (number : Int) : ∃ dayOfYear : Nat,
    number + epochOffset = daysBeforeYear (ofDayNumber number).year + dayOfYear ∧
      HasDay (ofDayNumber number).year dayOfYear (ofDayNumber number).month ∧
      (ofDayNumber number).day = dayOfYear - daysBeforeMonth (ofDayNumber number).year
        (ofDayNumber number).month + 1 := by
  obtain ⟨begun, later⟩ := yearOf_bounds (number + epochOffset)
  rw [daysBeforeYear_succ] at later
  refine ⟨(number + epochOffset - daysBeforeYear (yearOf (number + epochOffset))).toNat, ?_, ?_, rfl⟩
  · change number + epochOffset = daysBeforeYear (yearOf (number + epochOffset)) + _
    omega
  · refine hasDay_monthOf ?_
    change _ < if isLeap (yearOf (number + epochOffset)) then 366 else 365
    cases leap : isLeap (yearOf (number + epochOffset)) <;>
      simp only [leap, if_true, if_false, Bool.false_eq_true] at later ⊢ <;> omega

theorem Date.dayNumber_ofDayNumber (number : Int) : (ofDayNumber number).dayNumber = number := by
  obtain ⟨dayOfYear, days, hasDay, day⟩ := ofDayNumber_parts number
  obtain ⟨-, -, before, -⟩ := hasDay
  rw [dayNumber, day]
  omega

/-- The days that instants fall on have dates. -/
theorem Date.isValid_ofDayNumber {number : Int} (first_le : -96465292 ≤ number)
    (le_last : number ≤ 95026236) : (ofDayNumber number).IsValid := by
  obtain ⟨dayOfYear, days, ⟨month, months, before, within⟩, day⟩ := ofDayNumber_parts number
  obtain ⟨begun, later⟩ := yearOf_bounds (number + epochOffset)
  have isYear : (ofDayNumber number).year = yearOf (number + epochOffset) := rfl
  have years : firstYear ≤ (ofDayNumber number).year ∧ (ofDayNumber number).year ≤ lastYear := by
    rw [isYear]
    clear days before within day month months isYear
    generalize yearOf (number + epochOffset) = year at begun later
    simp only [daysBeforeYear, epochOffset, add_sub_cancel_right] at begun later
    refine ⟨le_of_not_gt fun early => ?_, le_of_not_gt fun late => ?_⟩
    · change year < -262143 at early
      have fours : year / 4 ≤ -65536 := by omega
      have fourHundreds : year / 400 ≤ -656 := by omega
      omega
    · change 262142 < year at late
      have fours : 65535 ≤ (year - 1) / 4 := by omega
      have fourHundreds : 655 ≤ (year - 1) / 400 := by omega
      omega
  exact ⟨years.1, years.2, month, months, by omega, day ▸ within⟩

/-! ## One day after another -/

namespace Date

variable {date later : Date}

/-- A day of a month, in whatever year. -/
def IsDay (date : Date) : Prop :=
  1 ≤ date.month ∧ date.month ≤ 12 ∧ 1 ≤ date.day ∧ date.day ≤ daysInMonth date.year date.month

instance (date : Date) : Decidable date.IsDay := inferInstanceAs (Decidable (_ ∧ _))

theorem IsValid.isDay (valid : date.IsValid) : date.IsDay := valid.2.2

/-- The day after another: of the same month, or the first one of the next month or year. -/
def next (date : Date) : Date :=
  if date.day < daysInMonth date.year date.month then { date with day := date.day + 1 }
  else if date.month < 12 then ⟨date.year, date.month + 1, 1⟩
  else ⟨date.year + 1, 1, 1⟩

/-- Earlier years come first; within one, earlier months; and within one of these, earlier days. -/
def order (a b : Date) : Ordering :=
  (compare a.year b.year).then ((compare a.month b.month).then (compare a.day b.day))

/-- A day falls within its year. -/
theorem IsDay.within_year (isDay : date.IsDay) : daysBeforeYear date.year ≤ date.dayNumber + epochOffset ∧
    date.dayNumber + epochOffset < daysBeforeYear (date.year + 1) := by
  obtain ⟨month, months, day, days⟩ := isDay
  have inYear := daysBeforeMonth_mono date.year month (Nat.lt_succ_of_le months)
  rw [daysBeforeMonth_end] at inYear
  rw [dayNumber, daysBeforeYear_succ]
  split at inYear <;> rename_i leap <;> simp only [leap, if_true, if_false, Bool.false_eq_true] <;> omega

theorem IsDay.dayNumber_lt (isDay : date.IsDay) (isLater : later.IsDay) (before : date.order later = .lt) :
    date.dayNumber < later.dayNumber := by
  have within := isDay.within_year
  have within' := isLater.within_year
  obtain ⟨month, months, day, days⟩ := isDay
  obtain ⟨month', months', day', days'⟩ := isLater
  rcases Ordering.then_eq_lt.mp before with years | ⟨sameYear, before⟩
  · have years := daysBeforeYear_mono (compare_lt_iff_lt.mp years)
    omega
  · have sameYear := compare_eq_iff_eq.mp sameYear
    rcases Ordering.then_eq_lt.mp before with months | ⟨sameMonth, before⟩
    · have inMonth := daysBeforeMonth_mono date.year month (compare_lt_iff_lt.mp months)
      simp only [dayNumber, ← sameYear]
      omega
    · have sameMonth := compare_eq_iff_eq.mp sameMonth
      have days := compare_lt_iff_lt.mp before
      simp only [dayNumber, ← sameYear, ← sameMonth]
      omega

theorem order_swap (a b : Date) : (a.order b).swap = b.order a := by
  simp only [order, Ordering.swap_then, Std.OrientedOrd.eq_swap (a := b.year),
    Std.OrientedOrd.eq_swap (a := b.month), Std.OrientedOrd.eq_swap (a := b.day)]

theorem eq_of_order_eq (same : date.order later = .eq) : date = later := by
  obtain ⟨year, month, day⟩ := date
  simp only [order, Ordering.then_eq_eq, compare_eq_iff_eq] at same
  obtain ⟨rfl, rfl, rfl⟩ := same
  rfl

/-- Days are numbered in their order. -/
theorem IsDay.compare_dayNumber (isDay : date.IsDay) (isLater : later.IsDay) :
    compare date.dayNumber later.dayNumber = date.order later := by
  cases placed : date.order later with
  | lt => exact compare_lt_iff_lt.mpr (isDay.dayNumber_lt isLater placed)
  | eq => exact compare_eq_iff_eq.mpr (congrArg dayNumber (eq_of_order_eq placed))
  | gt =>
    have swapped : later.order date = .lt := by rw [← order_swap, placed]; rfl
    exact compare_gt_iff_gt.mpr (isLater.dayNumber_lt isDay swapped)

theorem IsDay.eq_of_dayNumber (isDay : date.IsDay) (isLater : later.IsDay)
    (same : date.dayNumber = later.dayNumber) : date = later :=
  eq_of_order_eq ((isDay.compare_dayNumber isLater).symm.trans (compare_eq_iff_eq.mpr same))

theorem IsDay.next (isDay : date.IsDay) : date.next.IsDay := by
  obtain ⟨month, months, day, days⟩ := isDay
  unfold Date.next
  split
  · exact ⟨month, months, by simp, by assumption⟩
  · split
    · exact ⟨by simp, by assumption, le_rfl, daysInMonth_pos _ _⟩
    · exact ⟨le_rfl, Nat.le_add_left 1 11, le_rfl, daysInMonth_pos _ _⟩

theorem IsDay.dayNumber_next (isDay : date.IsDay) : date.next.dayNumber = date.dayNumber + 1 := by
  obtain ⟨month, months, day, days⟩ := isDay
  unfold Date.next
  split
  · simp only [dayNumber]
    omega
  · split
    · simp only [dayNumber, daysBeforeMonth_succ _ month]
      omega
    · rename_i full _
      have december : date.month = 12 := by omega
      have inYear := daysBeforeMonth_succ date.year month
      have january : daysBeforeMonth (date.year + 1) 1 = 0 := rfl
      rw [december] at full days inYear
      rw [daysBeforeMonth_end] at inYear
      simp only [dayNumber, december, january, daysBeforeYear_succ]
      split at inYear <;> rename_i leap <;> simp only [leap, if_true, if_false, Bool.false_eq_true] <;> omega

theorem IsDay.iterate_next (isDay : date.IsDay) (days : Nat) :
    (Date.next^[days] date).IsDay ∧ (Date.next^[days] date).dayNumber = date.dayNumber + days := by
  induction days with
  | zero => exact ⟨isDay, (add_zero _).symm⟩
  | succ days ih =>
    rw [Function.iterate_succ_apply']
    exact ⟨ih.1.next, by rw [ih.1.dayNumber_next, ih.2, Nat.cast_succ, add_assoc]⟩

/-- A date that lies so many days after 1 January 1970, or before it. -/
theorem IsDay.iterate_dayNumber (isDay : date.IsDay) :
    Date.next^[date.dayNumber.toNat] ⟨1970, 1, 1⟩ = Date.next^[(-date.dayNumber).toNat] date := by
  have first : IsDay ⟨1970, 1, 1⟩ := by decide
  have origin : dayNumber ⟨1970, 1, 1⟩ = 0 := by decide
  obtain ⟨isDay', number⟩ := first.iterate_next date.dayNumber.toNat
  obtain ⟨isDay'', number'⟩ := isDay.iterate_next (-date.dayNumber).toNat
  exact isDay'.eq_of_dayNumber isDay'' (by omega)

/-- The days of the years that dates are given for. -/
theorem IsValid.dayNumber_bounds (valid : date.IsValid) :
    -96465292 ≤ date.dayNumber ∧ date.dayNumber ≤ 95026236 := by
  obtain ⟨begun, ends⟩ := valid.isDay.within_year
  obtain ⟨first, last, -⟩ := valid
  have first : -262143 ≤ date.year := first
  have last : date.year ≤ 262142 := last
  simp only [daysBeforeYear, epochOffset] at begun ends
  omega

end Date

end DoubleEntry.Calendar
