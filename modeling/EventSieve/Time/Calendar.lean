/-!
# The proleptic Gregorian calendar

Days are numbered from the first of January 1970, which is day zero. Before a
year stand 365 days for every earlier year and one more for every earlier leap
year, and this count is what ties dates to day numbers in both directions: a day
belongs to the year whose count is the last one not above it.
-/

namespace EventSieve.Time

/-- Leap years are the multiples of four, without those centuries whose number is
not a multiple of four hundred. -/
def isLeapYear (year : Int) : Bool :=
  year % 4 = 0 && (year % 100 ≠ 0 || year % 400 = 0)

/-- The lengths of the months of a year. -/
def monthLengths (leap : Bool) : List Nat :=
  [31, if leap then 29 else 28, 31, 30, 31, 30, 31, 31, 30, 31, 30, 31]

/-- The length of a month, and zero for a number that names no month. -/
def monthLength (year : Int) (month : Nat) : Nat :=
  if month = 0 then 0 else ((monthLengths (isLeapYear year))[month - 1]?).getD 0

/-- The days between the first of January of year one and that of a year. -/
def daysBeforeYear (year : Int) : Int :=
  365 * (year - 1) + (year - 1) / 4 - (year - 1) / 100 + (year - 1) / 400

/-- The number of the first of January of year one, taken positive. -/
def epochOffset : Int := 719162

/-- A day of the calendar. -/
structure Date where
  year : Int
  month : Nat
  day : Nat
deriving DecidableEq, Repr

namespace Date

/-- The years that dates are kept to. -/
def yearInRange (year : Int) : Bool :=
  -262143 ≤ year && year ≤ 262142

/-- A date exists when its month is one of twelve and has its day. -/
def exists? (date : Date) : Bool :=
  yearInRange date.year && 1 ≤ date.day && date.day ≤ monthLength date.year date.month

/-- The days of a year before a month. -/
def daysBeforeMonth (leap : Bool) (month : Nat) : Nat :=
  ((monthLengths leap).take (month - 1)).foldr (· + ·) 0

/-- The number of a day. -/
def dayNumber (date : Date) : Int :=
  daysBeforeYear date.year + daysBeforeMonth (isLeapYear date.year) date.month + date.day - 1 -
    epochOffset

/-- The year of a day counted from the first of January of year one. The average
length of a year leads to the right year or to one of its neighbours. -/
def yearOf (days : Int) : Int :=
  let guess := days * 400 / 146097 + 1
  if days < daysBeforeYear guess then guess - 1
  else if daysBeforeYear (guess + 1) ≤ days then guess + 1
  else guess

/-- The month and the day of the month of a day of the year, counted from zero,
when the months from a given one on have the given lengths. -/
def monthAndDay : List Nat → Nat → Nat → Nat × Nat
  | length :: rest, month, days =>
    if days < length then (month, days + 1) else monthAndDay rest (month + 1) (days - length)
  | [], month, days => (month, days + 1)

/-- The date of a day number. -/
def ofDayNumber (number : Int) : Date :=
  let days := number + epochOffset
  let year := yearOf days
  let (month, day) := monthAndDay (monthLengths (isLeapYear year)) 1 (days - daysBeforeYear year).toNat
  ⟨year, month, day⟩

end Date

/-- A year has 365 days, and a leap year has one more. -/
theorem daysBeforeYear_succ (year : Int) :
    daysBeforeYear (year + 1) = daysBeforeYear year + (if isLeapYear year then 366 else 365) := by
  simp only [daysBeforeYear, isLeapYear, Bool.and_eq_true, Bool.or_eq_true, decide_eq_true_eq]
  split <;> omega

/-- The year of a day is the year that has begun by then and has not yet ended. -/
theorem Date.yearOf_bounds (days : Int) :
    daysBeforeYear (Date.yearOf days) ≤ days ∧ days < daysBeforeYear (Date.yearOf days + 1) := by
  simp only [Date.yearOf]
  split
  · simp only [daysBeforeYear] at *; omega
  · split
    · simp only [daysBeforeYear] at *; omega
    · omega

example : (Date.ofDayNumber 0) = ⟨1970, 1, 1⟩ := by decide +kernel

example : (Date.mk 2000 2 29).dayNumber = 11016 := by decide +kernel

example : Date.ofDayNumber (-719528) = ⟨0, 1, 1⟩ := by decide +kernel

end EventSieve.Time
