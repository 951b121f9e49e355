import EventSieve.Number.Reading
import EventSieve.Number.Notation
import EventSieve.Text.Ascii
import EventSieve.Text.Blank
import EventSieve.Text.Cut

/-!
# Lengths of time

A span is a whole number of nanoseconds, positive or negative, whose size is at
most `2 ^ 63 - 1` milliseconds. Its text counts whole microseconds: an optional
number of days, then hours, minutes and seconds, and a fraction when there is
one. The days are rounded down, so only they carry a sign and the clock behind
them always counts forward. A span of more microseconds than 64 bits can hold is
written as the greatest such number.

A text is read as days with a clock, as a clock alone, or as a number of
seconds.
-/

namespace EventSieve.Time

/-- The greatest size of a span in nanoseconds. -/
def spanLimit : Nat := (Number.int64Bound - 1) * 1000000

/-- A length of time in nanoseconds. -/
structure Span where
  nanos : Int
  bounded : nanos.natAbs ≤ spanLimit
deriving DecidableEq, Repr

namespace Span

/-- The span of a number of nanoseconds, when there is one. -/
def make? (nanos : Int) : Option Span :=
  if bounded : nanos.natAbs ≤ spanLimit then some ⟨nanos, bounded⟩ else none

/-- The span of a number of seconds, when there is one. -/
def ofSeconds? (seconds : Int) : Option Span :=
  make? (seconds * 1000000000)

/-- The span of a number of microseconds, when there is one. -/
def ofMicros? (micros : Int) : Option Span :=
  make? (micros * 1000)

/-- The sum of two spans, when there is one. -/
def add? (left right : Span) : Option Span :=
  make? (left.nanos + right.nanos)

/-- The span in the other direction. -/
def negate (span : Span) : Span :=
  ⟨-span.nanos, by rw [Int.natAbs_neg]; exact span.bounded⟩

/-- The microseconds of a day. -/
def microsPerDay : Int := 86400000000

/-- The whole microseconds of a span, rounded toward zero. A number that does not
fit 64 bits becomes the greatest number that does, whatever its sign. -/
def micros (span : Span) : Int :=
  let exact := span.nanos.tdiv 1000
  if Number.isInt64 exact then exact else Number.int64Bound - 1

/-- The clock part of a text: hours without padding, minutes and seconds with two
digits, and six digits of a fraction that is not zero. -/
def clockChars (micros : Nat) : List Char :=
  let seconds := micros / 1000000
  let fraction := micros % 1000000
  Text.decimalChars (seconds / 3600) ++ ':' :: Text.paddedChars 2 (seconds / 60 % 60) ++
    ':' :: Text.paddedChars 2 (seconds % 60) ++
    (if fraction = 0 then [] else '.' :: Text.paddedChars 6 fraction)

/-- The day part of a text, which is empty for no days. -/
def dayChars (days : Int) : List Char :=
  if days = 0 then []
  else (Number.integerText days).toList ++
    (if days.natAbs = 1 then " day, " else " days, ").toList

/-- The text of a span. -/
def text (span : Span) : String :=
  String.ofList (dayChars (span.micros / microsPerDay) ++
    clockChars (span.micros % microsPerDay).toNat)

/-- Reads the seconds of a clock with up to six fraction digits as microseconds. -/
def secondMicros? (body : List Char) : Option Int := do
  let (whole, fraction) := (Text.cutAt? '.' body).getD (body, [])
  let seconds ← Number.int64? whole
  if 0 ≤ seconds ∧ seconds < 60 ∧ fraction.length ≤ 6 ∧ fraction.all Char.isDigit then
    some (seconds * 1000000 +
      Text.numeralValue (fraction ++ List.replicate (6 - fraction.length) '0'))
  else none

/-- Reads hours, minutes and seconds between colons. Hours are not limited. -/
def clock? (body : List Char) : Option Span := do
  let (hoursPart, afterHours) ← Text.cutAt? ':' body
  let (minutesPart, secondsPart) ← Text.cutAt? ':' afterHours
  let hours ← Number.int64? (Text.trimChars hoursPart)
  let minutes ← Number.int64? (Text.trimChars minutesPart)
  let micros ← secondMicros? (Text.trimChars secondsPart)
  if 0 ≤ hours ∧ 0 ≤ minutes ∧ minutes < 60 then
    ofMicros? ((hours * 3600 + minutes * 60) * 1000000 + micros)
  else none

/-- Reads a number of days in front of the word for days. -/
def days? (body : List Char) : Option Span := do
  let trimmed := Text.trimChars body
  let count ← (Text.dropBack? "days".toList trimmed).or (Text.dropBack? "day".toList trimmed)
  let days ← Number.int64? (Text.trimChars count)
  ofSeconds? (days * 86400)

/-- The span of a number of seconds, rounded to microseconds with a half going
away from zero. -/
def ofFloatSeconds? (seconds : Number.Binary64) : Option Span := do
  let micros ← (seconds.multiply (.ofInt 1000000)).rounded?
  if micros.natAbs ≤ Number.int64Bound then ofMicros? (min micros (Number.int64Bound - 1)) else none

/-- The span that a text denotes. -/
def ofText? (text : String) : Option Span :=
  let body := Text.trimChars text.toList
  match Text.cutAt? ',' body with
  | some (daysPart, clockPart) => do
    let clock ← clock? (Text.trimChars clockPart)
    let days ← days? daysPart
    days.add? clock
  | none =>
    if body.contains ':' then
      match body with
      | '-' :: rest => (clock? rest).map negate
      | _ => clock? body
    else (Number.float? body).bind ofFloatSeconds?

/-- Going back and forth changes nothing. -/
theorem negate_negate (span : Span) : span.negate.negate = span := by
  cases span
  simp [negate]

example : (ofText? "-25:00:00").map text = some "-2 days, 23:00:00" := by decide +kernel

example : (ofText? " 1 day, 2:03:04.5 ").map text = some "1 day, 2:03:04.500000" := by decide +kernel

example : (ofText? "12.5").map text = some "0:00:12.500000" := by decide +kernel

end Span

end EventSieve.Time
