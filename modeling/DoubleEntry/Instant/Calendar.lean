/-! # The Gregorian calendar

Days are counted from 1 January 1970, with the leap years of the Gregorian calendar extended to all
years, the year zero and those before it included.
-/

namespace DoubleEntry.Calendar

def isLeap (year : Int) : Bool := year % 4 = 0 ∧ (year % 100 ≠ 0 ∨ year % 400 = 0)

def daysInMonth (year : Int) (month : Nat) : Nat :=
  match month with
  | 2 => if isLeap year then 29 else 28
  | 4 | 6 | 9 | 11 => 30
  | _ => 31

/-- Days from the first day of the year 1 to the first day of a year. -/
def daysBeforeYear (year : Int) : Int :=
  365 * (year - 1) + (year - 1) / 4 - (year - 1) / 100 + (year - 1) / 400

/-- Days of a year before the first of a month, months counted from 1. -/
def daysBeforeMonth (year : Int) (month : Nat) : Nat :=
  ((List.range' 1 (month - 1)).map (daysInMonth year)).foldr (· + ·) 0

/-- Days from the first day of the year 1 to 1 January 1970. -/
def epochOffset : Int := 719162

structure Date where
  year : Int
  month : Nat
  day : Nat
deriving DecidableEq, Repr

/-- The years that dates are given for. -/
def firstYear : Int := -262143

def lastYear : Int := 262142

def Date.IsValid (date : Date) : Prop :=
  firstYear ≤ date.year ∧ date.year ≤ lastYear ∧ 1 ≤ date.month ∧ date.month ≤ 12 ∧
    1 ≤ date.day ∧ date.day ≤ daysInMonth date.year date.month

instance (date : Date) : Decidable date.IsValid := inferInstanceAs (Decidable (_ ∧ _))

/-- The number of a day, 1 January 1970 being day 0. -/
def Date.dayNumber (date : Date) : Int :=
  daysBeforeYear date.year + daysBeforeMonth date.year date.month + (date.day - 1 : Int) - epochOffset

/-- The year that holds a day counted from the first day of the year 1. The mean length of a year
gives a year that is off by one at most. -/
def yearOf (days : Int) : Int :=
  let estimate := days * 400 / 146097 + 1
  if days < daysBeforeYear estimate then estimate - 1
  else if daysBeforeYear (estimate + 1) ≤ days then estimate + 1
  else estimate

/-- The date of a day number. -/
def Date.ofDayNumber (number : Int) : Date :=
  let days := number + epochOffset
  let year := yearOf days
  let dayOfYear := (days - daysBeforeYear year).toNat
  let month := ((List.range' 1 12).filter fun month => daysBeforeMonth year month ≤ dayOfYear).length
  ⟨year, month, dayOfYear - daysBeforeMonth year month + 1⟩

end DoubleEntry.Calendar
