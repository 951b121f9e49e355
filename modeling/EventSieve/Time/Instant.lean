import EventSieve.Text.Ascii
import EventSieve.Time.Calendar

/-!
# Instants

An instant is a number of seconds since the start of 1970 in universal time,
with nanoseconds. Nanoseconds from one to two thousand million belong to a leap
second: they continue the last second of a minute, and the instant is written
with second 60. Instants are ordered by seconds, then by nanoseconds, so a leap
second lies between its own minute and the next one.

The text of an instant is a date, a time and `Z`, with no more fraction digits
than needed in groups of three.
-/

namespace EventSieve.Time

/-- The nanoseconds of a second. -/
def nanosPerSecond : Nat := 1000000000

/-- The seconds of a day. -/
def secondsPerDay : Int := 86400

/-- An instant lies inside the years of the calendar, and only the last second
of a minute is followed by a leap second. -/
def ValidInstant (seconds : Int) (nanos : Nat) : Prop :=
  -8334601228800 ≤ seconds ∧ seconds ≤ 8210266876799 ∧
    (nanos < 1000000000 ∨ (nanos < 2000000000 ∧ seconds % 60 = 59))

instance (seconds : Int) (nanos : Nat) : Decidable (ValidInstant seconds nanos) :=
  inferInstanceAs (Decidable (_ ∧ _ ∧ _))

/-- A point in time with nanoseconds. -/
structure Instant where
  seconds : Int
  nanos : Nat
  valid : ValidInstant seconds nanos
deriving DecidableEq, Repr

namespace Instant

/-- The instant of a number of seconds and nanoseconds, when there is one. -/
def make? (seconds : Int) (nanos : Nat) : Option Instant :=
  if valid : ValidInstant seconds nanos then some ⟨seconds, nanos, valid⟩ else none

/-- Instants are ordered by seconds, then by nanoseconds. -/
def order (left right : Instant) : Ordering :=
  (compare left.seconds right.seconds).then (compare left.nanos right.nanos)

/-- The number of the day of an instant. -/
def dayNumber (instant : Instant) : Int :=
  instant.seconds / secondsPerDay

/-- The second of the day of an instant. -/
def secondOfDay (instant : Instant) : Nat :=
  (instant.seconds % secondsPerDay).toNat

/-- A year as it stands in the text of an instant. Years of more or fewer than
four digits, and negative years, carry a sign. -/
def yearChars (year : Int) : List Char :=
  let digits := Text.paddedChars 4 year.natAbs
  if 0 ≤ year ∧ year ≤ 9999 then digits
  else (if year < 0 then '-' else '+') :: digits

/-- The fraction of a second in as few groups of three digits as show it whole. -/
def fractionChars (nanos : Nat) : List Char :=
  if nanos = 0 then []
  else if nanos % 1000000 = 0 then '.' :: Text.paddedChars 3 (nanos / 1000000)
  else if nanos % 1000 = 0 then '.' :: Text.paddedChars 6 (nanos / 1000)
  else '.' :: Text.paddedChars 9 nanos

/-- The characters of the text of an instant. -/
def chars (instant : Instant) : List Char :=
  let date := Date.ofDayNumber instant.dayNumber
  let second := instant.secondOfDay
  let leap := nanosPerSecond ≤ instant.nanos
  yearChars date.year ++ '-' :: Text.paddedChars 2 date.month ++ '-' :: Text.paddedChars 2 date.day ++
    'T' :: Text.paddedChars 2 (second / 3600) ++ ':' :: Text.paddedChars 2 (second / 60 % 60) ++
    ':' :: Text.paddedChars 2 (if leap then second % 60 + 1 else second % 60) ++
    fractionChars (if leap then instant.nanos - nanosPerSecond else instant.nanos) ++ ['Z']

/-- The text of an instant. -/
def text (instant : Instant) : String :=
  String.ofList instant.chars

example : (Date.mk (-262143) 1 1).dayNumber * secondsPerDay = -8334601228800 := by decide +kernel

example : (Date.mk 262142 12 31).dayNumber * secondsPerDay + 86399 = 8210266876799 := by
  decide +kernel

example : (make? 951782400 5000000).map text = some "2000-02-29T00:00:00.005Z" := by decide +kernel

example : (make? (-1) 1000000000).map text = some "1969-12-31T23:59:60Z" := by decide +kernel

end Instant

end EventSieve.Time
