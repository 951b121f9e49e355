import EventSieve.Number.Binary64
import EventSieve.Text.Ascii

/-!
# Numbers read from text

The whole text has to be a number; blanks around it are the caller's business.
An integer is an optional sign and at least one digit. A decimal has digits on
at least one side of an optional point and may have an exponent, and it is read
as the nearest floating-point value. The words for infinity and not-a-number are
accepted in any case.

Texts may be very long, so no number is built from more digits than matter.
-/

namespace EventSieve.Number

/-- A leading sign, taken off a text; without one the text is positive. -/
def splitSign : List Char → Bool × List Char
  | '+' :: rest => (false, rest)
  | '-' :: rest => (true, rest)
  | text => (false, text)

/-- The bound of integers of 64 bits with sign, which is the 63rd power of two.
Its negative is the least of them. -/
def int64Bound : Nat := 9223372036854775808

/-- The bound of words of 64 bits, which is the 64th power of two. -/
def wordBound : Nat := 18446744073709551616

/-- Whether an integer fits 64 bits with sign. -/
def isInt64 (value : Int) : Bool :=
  -int64Bound ≤ value && value < int64Bound

/-- The integer that a text denotes, when it fits 64 bits with sign: an optional
sign, then digits only. -/
def int64? (text : List Char) : Option Int :=
  let (negative, digits) := splitSign text
  ((Text.naturalBelow? (int64Bound + 1) digits).map (Binary64.signed negative)).filter isInt64

/-- The natural number that a text denotes, when it fits 64 bits. -/
def word64? (text : List Char) : Option Nat :=
  Text.naturalBelow? wordBound text

/-- A decimal as it is spelled: the digits before and after the point and the exponent. -/
structure DecimalSpelling where
  negative : Bool
  whole : List Char
  fraction : List Char
  exponent : Int
deriving DecidableEq, Repr

namespace DecimalSpelling

/-- All digits of a decimal without the zeros in front. -/
def digits (spelling : DecimalSpelling) : List Char :=
  (spelling.whole ++ spelling.fraction).dropWhile (· = '0')

/-- The number of digits that are looked at one by one. A number halfway between
two values of the floating-point format has fewer digits. -/
def digitLimit : Nat := 800

/-- The digits of a decimal that decide to which value it is nearest. Behind the
limit it only matters whether all digits are zero: otherwise the decimal lies
beyond its first digits but not as far as the next number of that length, and a
one in place of the rest says the same. -/
def decidingDigits (spelling : DecimalSpelling) : List Char :=
  let first := spelling.digits.take digitLimit
  if (spelling.digits.drop digitLimit).all (· = '0') then first else first ++ ['1']

/-- The deciding digits of a decimal read as one number. -/
def coefficient (spelling : DecimalSpelling) : Nat :=
  Text.numeralValue spelling.decidingDigits

/-- The power of ten that goes with the coefficient: every digit behind the
deciding ones raises it, and every digit behind the point lowers it. -/
def scale (spelling : DecimalSpelling) : Int :=
  spelling.exponent + (spelling.digits.length - spelling.decidingDigits.length : Nat) -
    spelling.fraction.length

/-- The floating-point value nearest to a decimal. -/
def toBinary64 (spelling : DecimalSpelling) : Binary64 :=
  .ofDecimal spelling.negative spelling.coefficient spelling.scale

/-- An exponent that has reached this limit takes no further digits. -/
def exponentLimit : Nat := 65536

/-- Reads an optional exponent that fills the rest of a text. -/
def exponent? : List Char → Option Int
  | [] => some 0
  | mark :: rest =>
    let (negative, digits) := splitSign rest
    if (mark = 'e' ∨ mark = 'E') ∧ Text.isNumeral digits then
      some (Binary64.signed negative (Text.extendUntil exponentLimit 0 digits))
    else none

/-- Reads a decimal that fills the whole text. -/
def ofText? (text : List Char) : Option DecimalSpelling :=
  let (negative, body) := splitSign text
  let whole := body.takeWhile Char.isDigit
  let (fraction, rest) :=
    match body.dropWhile Char.isDigit with
    | '.' :: rest => (rest.takeWhile Char.isDigit, rest.dropWhile Char.isDigit)
    | rest => ([], rest)
  if whole.isEmpty && fraction.isEmpty then none
  else (exponent? rest).map fun exponent => ⟨negative, whole, fraction, exponent⟩

end DecimalSpelling

/-- The floating-point value that a text denotes. -/
def float? (text : List Char) : Option Binary64 :=
  let (negative, body) := splitSign text
  let word := String.ofList (Text.lowerChars body)
  if word = "inf" || word = "infinity" then some (.infinite negative)
  else if word = "nan" then some .nan
  else (DecimalSpelling.ofText? text).map DecimalSpelling.toBinary64

example : int64? "-007".toList = some (-7) := by decide

example : int64? "9223372036854775808".toList = none := by decide

example : (DecimalSpelling.ofText? ".5e+2".toList).map (·.scale) = some 1 := by decide +kernel

example : (DecimalSpelling.ofText? "1e-655361".toList).map (·.scale) = some (-65536) := by
  decide +kernel

example : float? ".".toList = none := by decide +kernel

example : float? "-Infinity".toList = some (.infinite true) := by decide +kernel

end EventSieve.Number
