import EventSieve.Json.Value
import EventSieve.Number.Reading

/-!
# Numbers as JSON text spells them

A number without fraction and exponent is an integer as long as it lies between
the least integer of 64 bits with sign and the greatest without; only a negative
zero is left to the floating-point format. Every other number is a
floating-point value, and one too large for the format is no value at all.

The floating-point value is computed in a fixed way that can differ from the
nearest value in its last place: the digits that fit a word of 64 bits are taken
as an integer, the rest only counts, and the integer is rounded, then multiplied
or divided by one power of ten. Magnitudes below the reach of one power are
divided by `10 ^ 308` first.
-/

namespace EventSieve.Json

/-- The parts of a number in JSON text. -/
structure NumberSpelling where
  negative : Bool
  whole : List Char
  fraction : List Char
  exponent : Int
  /-- Whether the number has neither a fraction nor an exponent. -/
  plain : Bool
deriving DecidableEq, Repr

namespace NumberSpelling

/-- Extends a significand by the digits of a text while the word can hold them.
The second part counts the digits that were taken. -/
def takeDigits : Nat → List Char → Nat × Nat
  | significand, [] => (significand, 0)
  | significand, digit :: rest =>
    let extended := 10 * significand + Text.digitValue digit
    if extended < Number.wordBound then
      let taken := takeDigits extended rest
      (taken.1, taken.2 + 1)
    else (significand, 0)

/-- The significand of a number and the power of ten that belongs to it. Digits
of the whole part that no longer fit raise the power; digits of the fraction
that no longer fit are dropped. -/
def parts (spelling : NumberSpelling) : Nat × Int :=
  let whole := takeDigits 0 spelling.whole
  let fraction := takeDigits whole.1 spelling.fraction
  (fraction.1, spelling.exponent + (spelling.whole.length - whole.2 : Nat) - fraction.2)

/-- Divides by powers of ten until the power is used up. Two divisions by
`10 ^ 308` take every significand to zero, so three rounds are enough. -/
def lower : Nat → Number.Binary64 → Nat → Number.Binary64
  | 0, value, _ => value
  | rounds + 1, value, power =>
    if power ≤ 308 then value.divide (.ofDecimal false 1 power)
    else lower rounds (value.divide (.ofDecimal false 1 308)) (power - 308)

/-- The floating-point value of a number, unless it is too large. -/
def float? (spelling : NumberSpelling) : Option Number.Binary64 :=
  let (significand, power) := spelling.parts
  let start := Number.Binary64.ofInt significand
  let magnitude :=
    if significand = 0 then start
    else if power < 0 then lower 3 start power.natAbs
    else if power ≤ 308 then start.multiply (.ofDecimal false 1 power)
    else .infinite false
  if magnitude.isFinite then
    some (if spelling.negative then magnitude.negate else magnitude)
  else none

/-- The whole part of a number, when a word of 64 bits can hold it. -/
def word? (spelling : NumberSpelling) : Option Nat :=
  let (value, taken) := takeDigits 0 spelling.whole
  if taken = spelling.whole.length then some value else none

/-- The integer that a plain number stands for. A negative one has to fit 64 bits
with sign and is not zero. -/
def integer? (spelling : NumberSpelling) : Option Int :=
  match spelling.plain, spelling.word? with
  | true, some magnitude =>
    if !spelling.negative then some magnitude
    else if 0 < magnitude && magnitude ≤ Number.int64Bound then some (-magnitude)
    else none
  | _, _ => none

/-- The value of a number, unless it is too large for every kind of number. -/
def value? (spelling : NumberSpelling) : Option Json.Number :=
  match spelling.integer? with
  | some value => some (.integer value)
  | none => spelling.float?.map .float

/-- All digits are taken as long as the number that they denote fits the word. -/
theorem takeDigits_fits {significand : Nat} {digits : List Char}
    (fits : Text.extend significand digits < Number.wordBound) :
    takeDigits significand digits = (Text.extend significand digits, digits.length) := by
  induction digits generalizing significand with
  | nil => rfl
  | cons digit rest inductionHypothesis =>
    have bounded := Nat.lt_of_le_of_lt (Text.le_extend _ rest) fits
    simp only [takeDigits, List.length_cons]
    rw [if_pos bounded, inductionHypothesis fits]
    rfl

/-- A whole part that fits the word is read as the number that its digits denote. -/
theorem word?_eq_some {spelling : NumberSpelling}
    (fits : Text.numeralValue spelling.whole < Number.wordBound) :
    spelling.word? = some (Text.numeralValue spelling.whole) := by
  simp only [word?]
  rw [takeDigits_fits fits]
  simp [Text.numeralValue]

example : value? ⟨true, ['0'], [], 0, true⟩ = some (.float (.zero true)) := by decide +kernel

example : value? ⟨false, ['1'], [], 309, false⟩ = none := by decide +kernel

end NumberSpelling

end EventSieve.Json
