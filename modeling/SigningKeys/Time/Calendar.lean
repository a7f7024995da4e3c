/-!
# The calendar

Dates of the Gregorian calendar, extended to all years, and days counted from the first of January
of year 1, which is day 0. `Date.dayNumber` counts the days before a date, and `Date.ofDayNumber`
finds the date of a day through cycles of 400, 100, 4 and 1 years.
-/

namespace SigningKeys

/-- A year, a month from 1, and a day of the month from 1. -/
structure Date where
  year : Int
  month : Nat
  day : Nat
  deriving DecidableEq

/-- The year has a 29th of February. -/
def isLeapYear (year : Int) : Bool := year % 4 == 0 && (year % 100 != 0 || year % 400 == 0)

/-- The days of a common year before each month, with those of the whole year at the end. -/
def commonMonthStarts : List Nat := [0, 31, 59, 90, 120, 151, 181, 212, 243, 273, 304, 334, 365]

/-- How many days of the year lie before the month that follows `passed` months. -/
def daysBeforeMonth (leap : Bool) (passed : Nat) : Nat :=
  commonMonthStarts.getD passed 0 + if leap && 2 ≤ passed then 1 else 0

/-- How many days a month has. -/
def daysInMonth (year : Int) (month : Nat) : Nat :=
  daysBeforeMonth (isLeapYear year) month - daysBeforeMonth (isLeapYear year) (month - 1)

/-- The day on which a year begins. -/
def daysBeforeYear (year : Int) : Int :=
  365 * (year - 1) + (year - 1) / 4 - (year - 1) / 100 + (year - 1) / 400

namespace Date

/-- The months are from 1 to 12, and the days from 1 to the length of the month. -/
def IsValid (date : Date) : Prop :=
  1 ≤ date.month ∧ date.month ≤ 12 ∧ 1 ≤ date.day ∧ date.day ≤ daysInMonth date.year date.month

/-- Being a date of the calendar is decided by comparing numbers. -/
instance (date : Date) : Decidable date.IsValid := inferInstanceAs (Decidable (_ ∧ _))

/-- The number of the day. -/
def dayNumber (date : Date) : Int :=
  daysBeforeYear date.year +
    (daysBeforeMonth (isLeapYear date.year) (date.month - 1) + (date.day - 1) : Nat)

/-- The year of a day, and the days of the year that have passed. -/
def yearOfDay (day : Int) : Int × Nat :=
  let centuries := (day % 146097).toNat
  let century := min 3 (centuries / 36524)
  let quads := centuries - century * 36524
  let quad := quads / 1461
  let years := quads - quad * 1461
  let single := min 3 (years / 365)
  (400 * (day / 146097) + (100 * century + 4 * quad + single : Nat) + 1, years - single * 365)

/-- The number of months, of the first `months`, that have passed before a day of the year. -/
def monthsPassed (leap : Bool) (dayOfYear : Nat) : Nat → Nat
  | 0 => 0
  | months + 1 =>
      if daysBeforeMonth leap (months + 1) ≤ dayOfYear then months + 1
      else monthsPassed leap dayOfYear months

/-- The date of a day. -/
def ofDayNumber (day : Int) : Date :=
  let (year, dayOfYear) := yearOfDay day
  let passed := monthsPassed (isLeapYear year) dayOfYear 11
  ⟨year, passed + 1, dayOfYear - daysBeforeMonth (isLeapYear year) passed + 1⟩

end Date

end SigningKeys
