/-!
# ASCII letters and digits

Tags, keywords and numbers are compared and read over ASCII alone: a letter
outside ASCII has no case here, and a digit of another script is no digit. So
lowering keeps the length of a text and leaves every character outside ASCII
untouched.
-/

namespace EventSieve.Text

/-- Lowers the ASCII letters of a text. -/
def lowerChars (text : List Char) : List Char :=
  text.map Char.toLower

/-- Lowers the ASCII letters of a string. -/
def lower (text : String) : String :=
  String.ofList (lowerChars text.toList)

/-- A non-empty text made of ASCII digits only. -/
def isNumeral (text : List Char) : Bool :=
  !text.isEmpty && text.all Char.isDigit

/-- The value of one ASCII digit. -/
def digitValue (character : Char) : Nat :=
  character.toNat - '0'.toNat

/-- A number with a row of ASCII digits written behind it. -/
def extend (value : Nat) (digits : List Char) : Nat :=
  digits.foldl (fun value digit => 10 * value + digitValue digit) value

/-- The number that a row of ASCII digits denotes; the empty row denotes zero. -/
def numeralValue (digits : List Char) : Nat :=
  extend 0 digits

/-- The number that a non-empty row of ASCII digits denotes. Leading zeros are
allowed, and no other character is. -/
def natural? (text : List Char) : Option Nat :=
  if isNumeral text then some (numeralValue text) else none

/-- A number with a row of ASCII digits written behind it, as long as it stays
below a bound. The digits behind the one that reaches the bound are not read. -/
def extendBelow? (bound : Nat) : Nat → List Char → Option Nat
  | value, [] => some value
  | value, digit :: rest =>
    let extended := 10 * value + digitValue digit
    if extended < bound then extendBelow? bound extended rest else none

/-- The number that a non-empty row of ASCII digits denotes, when it lies below a
bound. -/
def naturalBelow? (bound : Nat) (text : List Char) : Option Nat :=
  if isNumeral text then extendBelow? bound 0 text else none

/-- A number with digits written behind it until it has reached a limit; the
digits after that do not count. -/
def extendUntil (limit : Nat) : Nat → List Char → Nat
  | value, [] => value
  | value, digit :: rest =>
    if value < limit then extendUntil limit (10 * value + digitValue digit) rest else value

/-- A number in decimal, without leading zeros. -/
def decimalChars (value : Nat) : List Char :=
  Nat.toDigits 10 value

/-- A number in decimal, padded with zeros in front up to a width. A longer
numeral is written whole. -/
def paddedChars (width value : Nat) : List Char :=
  let digits := decimalChars value
  List.replicate (width - digits.length) '0' ++ digits

/-- The first digit is written behind the number, and the others behind that. -/
theorem extend_cons (value : Nat) (digit : Char) (rest : List Char) :
    extend value (digit :: rest) = extend (10 * value + digitValue digit) rest := by
  simp only [extend, List.foldl_cons]

/-- Digits behind a number never make it smaller. -/
theorem le_extend (value : Nat) (digits : List Char) : value ≤ extend value digits := by
  induction digits generalizing value with
  | nil => exact Nat.le_refl value
  | cons digit rest inductionHypothesis =>
    rw [extend_cons]
    exact Nat.le_trans (by omega) (inductionHypothesis (10 * value + digitValue digit))

/-- Stopping at the bound loses no number below it: an extension that reaches the
bound never comes back. -/
theorem extendBelow?_eq {bound value : Nat} (below : value < bound) (digits : List Char) :
    extendBelow? bound value digits =
      if extend value digits < bound then some (extend value digits) else none := by
  induction digits generalizing value with
  | nil => simp [extendBelow?, extend, below]
  | cons digit rest inductionHypothesis =>
    by_cases fits : 10 * value + digitValue digit < bound
    · simp only [extendBelow?, if_pos fits, inductionHypothesis fits, extend_cons]
    · have beyond := Nat.le_trans (Nat.le_of_not_lt fits) (le_extend _ rest)
      have outside : ¬ extend value (digit :: rest) < bound := Nat.not_lt_of_le beyond
      simp only [extendBelow?, if_neg fits, if_neg outside]

/-- Reading below a bound is reading and then asking for the bound. -/
theorem naturalBelow?_eq {bound : Nat} (positive : 0 < bound) (text : List Char) :
    naturalBelow? bound text = (natural? text).filter (· < bound) := by
  simp only [naturalBelow?, natural?]
  split
  · by_cases small : extend 0 text < bound <;>
      simp [extendBelow?_eq positive, numeralValue, Option.filter, small]
  · rfl

/-- Digits that keep a number below the limit all count. -/
theorem extendUntil_eq {limit value : Nat} {digits : List Char}
    (below : extend value digits < limit) : extendUntil limit value digits = extend value digits := by
  induction digits generalizing value with
  | nil => rfl
  | cons digit rest inductionHypothesis =>
    have small : value < limit := Nat.lt_of_le_of_lt (le_extend value _) below
    simp only [extendUntil, if_pos small]
    exact inductionHypothesis below

/-- The digits are ten characters in a row. -/
theorem toNat_of_isDigit {digit : Char} (inside : digit.isDigit = true) :
    48 ≤ digit.toNat ∧ digit.toNat ≤ 57 := by
  simpa [Char.isDigit, UInt32.le_iff_toNat_le] using inside

/-- Lowering a text keeps its length. -/
theorem length_lowerChars (text : List Char) : (lowerChars text).length = text.length := by
  simp [lowerChars]

example : natural? ['0', '7'] = some 7 := by decide

example : natural? [] = none := by decide

example : naturalBelow? 10 ['0', '0', '9'] = some 9 := by decide

example : naturalBelow? 10 ['1', '0', 'x'] = none := by decide

example : extendUntil 10 0 ['1', '2', '3'] = 12 := by decide

example : paddedChars 3 7 = ['0', '0', '7'] := by decide

end EventSieve.Text
