import EventSieve.Proofs.Number.DecimalRounding
import EventSieve.Proofs.Number.Numerals

/-!
# Decimals and the numbers that they denote

A decimal is an optional sign, digits on at least one side of an optional point, and an
optional power of ten behind them. It denotes a rational number, however long it is.

The reading of floating-point values takes such a text apart into its parts again. One
part is not always read whole: an exponent takes no further digits from a limit on. So
what is read is the number that the decimal denotes unless its exponent goes beyond ten
times this limit. The reading of integers takes decimals without a point and a power, and
these it reads exactly.
-/

namespace EventSieve

/-- Digits behind a number either all count, or reach the limit before the last of them.
Then the number that they would denote is at least ten times what is read. -/
theorem Text.extendUntil_spec {limit value : Nat} {digits : List Char}
    (all : ∀ digit ∈ digits, digit.isDigit = true) (start : value < 10 * limit) :
    extendUntil limit value digits < 10 * limit ∧
      (extendUntil limit value digits = extend value digits ∨
        limit ≤ extendUntil limit value digits ∧
          10 * extendUntil limit value digits ≤ extend value digits) := by
  induction digits generalizing value with
  | nil => exact ⟨start, .inl rfl⟩
  | cons digit rest inductionHypothesis =>
    obtain ⟨own, later⟩ := List.forall_mem_cons.mp all
    have small := digitValue_lt own
    rw [extendUntil, extend_cons]
    split
    · exact inductionHypothesis later (by omega)
    · have grown := le_extend (10 * value + digitValue digit) rest
      exact ⟨start, .inr ⟨by omega, by omega⟩⟩

namespace Number

/-- The sign that may stand in front of a number. -/
inductive Sign where
  | none
  | plus
  | minus
deriving DecidableEq, Repr

namespace Sign

/-- The characters of a sign. -/
def chars : Sign → List Char
  | .none => []
  | .plus => ['+']
  | .minus => ['-']

/-- Whether a sign makes a number negative. -/
def negative : Sign → Bool
  | .minus => true
  | _ => false

/-- A sign is split off a text that starts with no other one. -/
theorem splitSign_chars (sign : Sign) {text : List Char}
    (unsigned : ∀ character ∈ text.head?, character ≠ '+' ∧ character ≠ '-') :
    splitSign (sign.chars ++ text) = (sign.negative, text) := by
  cases sign with
  | none =>
    cases text with
    | nil => rfl
    | cons first rest => exact splitSign_cons (unsigned first rfl) rest
  | plus => rfl
  | minus => rfl

end Sign

/-- A power of ten as it is written behind a decimal. -/
structure Power where
  mark : Char
  sign : Sign
  digits : List Char
  marked : mark = 'e' ∨ mark = 'E'
  numeral : Text.isNumeral digits = true

namespace Power

/-- The characters of a power of ten. -/
def chars (power : Power) : List Char :=
  power.mark :: (power.sign.chars ++ power.digits)

/-- The exponent of a power of ten. -/
def exponent (power : Power) : Int :=
  Binary64.signed power.sign.negative (Text.numeralValue power.digits)

/-- The exponent as far as it is read. -/
def readExponent (power : Power) : Int :=
  Binary64.signed power.sign.negative
    (Text.extendUntil DecimalSpelling.exponentLimit 0 power.digits)

/-- A power of ten is read as far as that. -/
theorem exponent?_chars (power : Power) :
    DecimalSpelling.exponent? power.chars = some power.readExponent := by
  obtain ⟨_, digits⟩ := Text.isNumeral_iff.mp power.numeral
  have unsigned : ∀ character ∈ power.digits.head?, character ≠ '+' ∧ character ≠ '-' := by
    intro character first
    have inside := digits character (List.mem_of_head? first)
    exact ⟨Text.ne_of_isDigit inside rfl, Text.ne_of_isDigit inside rfl⟩
  rw [chars, DecimalSpelling.exponent?]
  simp only [power.sign.splitSign_chars unsigned]
  rw [if_pos ⟨power.marked, power.numeral⟩]
  rfl

/-- An exponent below ten times the limit is read whole. One that is not is read as an
exponent of the same sign which has reached the limit and is at most a tenth of it. -/
theorem readExponent_spec (power : Power) :
    power.readExponent = power.exponent ∧ power.exponent.natAbs < 10 * DecimalSpelling.exponentLimit ∨
      10 * DecimalSpelling.exponentLimit ≤ power.exponent.natAbs ∧
        ((DecimalSpelling.exponentLimit : Int) ≤ power.readExponent ∧
            10 * power.readExponent ≤ power.exponent ∨
          power.readExponent ≤ -DecimalSpelling.exponentLimit ∧
            power.exponent ≤ 10 * power.readExponent) := by
  obtain ⟨bound, counted⟩ := Text.extendUntil_spec (Text.isNumeral_iff.mp power.numeral).2
    (by decide : 0 < 10 * DecimalSpelling.exponentLimit)
  rw [readExponent, exponent, Text.numeralValue]
  generalize Text.extendUntil DecimalSpelling.exponentLimit 0 power.digits = read at *
  generalize Text.extend 0 power.digits = written at *
  cases power.sign.negative with
  | false =>
    simp only [Binary64.signed, Bool.false_eq_true, if_false]
    omega
  | true =>
    simp only [Binary64.signed, if_true]
    omega

end Power

/-- A decimal literal by its parts. Without a point there is no fraction, and without digits
no literal. -/
structure Literal where
  sign : Sign
  whole : List Char
  fraction : Option (List Char)
  power : Option Power
  digits : ∀ digit ∈ whole ++ fraction.getD [], digit.isDigit = true
  present : whole ++ fraction.getD [] ≠ []

namespace Literal

variable (literal : Literal)

/-- The digits behind the point. -/
def fractionDigits : List Char :=
  literal.fraction.getD []

/-- The point and the digits behind it. -/
def fractionChars : List Char :=
  literal.fraction.elim [] ('.' :: ·)

/-- The power of ten as it is written. -/
def powerChars : List Char :=
  literal.power.elim [] Power.chars

/-- A literal without its sign. -/
def body : List Char :=
  literal.whole ++ (literal.fractionChars ++ literal.powerChars)

/-- The characters of a literal. -/
def chars : List Char :=
  literal.sign.chars ++ literal.body

/-- The exponent of a literal. -/
def exponent : Int :=
  literal.power.elim 0 Power.exponent

/-- The size of the number that a literal denotes. -/
def magnitude : ℚ :=
  Text.numeralValue (literal.whole ++ literal.fractionDigits) *
    10 ^ (literal.exponent - literal.fractionDigits.length)

/-- The number that a literal denotes. -/
def number : ℚ :=
  if literal.sign.negative then -literal.magnitude else literal.magnitude

/-- Whether a literal has neither a point nor a power of ten. -/
def IsPlain : Prop :=
  literal.fraction = none ∧ literal.power = none

/-- The parts of a literal as they are read. -/
def spelling : DecimalSpelling :=
  ⟨literal.sign.negative, literal.whole, literal.fractionDigits,
    literal.power.elim 0 Power.readExponent⟩

/-- What is read of a literal has digits only. -/
theorem isDecimal_spelling : literal.spelling.IsDecimal :=
  literal.digits

/-- A power of ten starts with its mark, which is neither a digit nor a point. -/
theorem head_powerChars :
    ∀ character ∈ literal.powerChars.head?, character.isDigit = false ∧ character ≠ '.' := by
  rw [powerChars]
  cases literal.power with
  | none => rintro _ ⟨⟩
  | some power =>
    rintro _ ⟨⟩
    rcases power.marked with marked | marked
    · rw [marked]
      decide
    · rw [marked]
      decide

/-- A literal without its sign starts with a digit or a point. -/
theorem body_eq_cons :
    ∃ first rest, literal.body = first :: rest ∧ (first.isDigit = true ∨ first = '.') := by
  have digits := literal.digits
  have present := literal.present
  rw [body]
  cases starts : literal.whole with
  | cons first more =>
    rw [starts] at digits
    exact ⟨first, _, rfl, .inl (digits first List.mem_cons_self)⟩
  | nil =>
    rw [fractionChars]
    cases behind : literal.fraction with
    | none =>
      rw [starts, behind] at present
      exact absurd rfl present
    | some fraction => exact ⟨'.', _, rfl, .inr rfl⟩

/-- The sign of a literal is split off. -/
theorem splitSign_chars :
    splitSign literal.chars = (literal.sign.negative, literal.body) := by
  obtain ⟨first, rest, starts, kind⟩ := literal.body_eq_cons
  rw [chars]
  apply literal.sign.splitSign_chars
  rw [starts]
  rintro _ ⟨⟩
  rcases kind with digit | rfl
  · exact ⟨Text.ne_of_isDigit digit rfl, Text.ne_of_isDigit digit rfl⟩
  · decide

/-- A literal is taken apart into its parts as they are read.

Proof: the reader takes the sign, then the digits before a point, those behind it and the
power. Each part ends where the next one begins, as a point is no digit and the mark of a
power neither; what has to be checked is that a part which is not there is not taken for
another. -/
theorem ofText?_chars : DecimalSpelling.ofText? literal.chars = some literal.spelling := by
  have digits := List.forall_mem_append.mp literal.digits
  have present := literal.present
  have exponent : DecimalSpelling.exponent? literal.powerChars =
      some (literal.power.elim 0 Power.readExponent) := by
    rw [powerChars]
    cases literal.power with
    | none => rfl
    | some power => exact power.exponent?_chars
  have stops : ∀ character ∈ literal.powerChars.head?, character.isDigit = false :=
    fun character first => (literal.head_powerChars character first).1
  have pointless : ∀ character ∈ literal.powerChars.head?, character ≠ '.' :=
    fun character first => (literal.head_powerChars character first).2
  rw [DecimalSpelling.ofText?]
  simp only [literal.splitSign_chars]
  rw [body, spelling, fractionDigits, fractionChars]
  cases behind : literal.fraction with
  | none =>
    obtain ⟨taken, left⟩ := Text.takeWhile_isDigit digits.1 stops
    simp only [Option.elim_none, List.nil_append, taken, left, Option.getD_none]
    rw [behind, Option.getD_none, List.append_nil] at present
    have filled : literal.whole.isEmpty = false := List.isEmpty_eq_false_iff.mpr present
    split
    · rename_i rest starts
      rw [starts] at pointless
      exact absurd rfl (pointless '.' rfl)
    · rw [filled, exponent]
      rfl
  | some fraction =>
    rw [behind] at digits present
    have point : ∀ character ∈ ('.' :: (fraction ++ literal.powerChars)).head?,
        character.isDigit = false := by
      rintro _ ⟨⟩
      rfl
    obtain ⟨taken, left⟩ := Text.takeWhile_isDigit digits.1 point
    obtain ⟨behindTaken, behindLeft⟩ := Text.takeWhile_isDigit digits.2 stops
    have filled : (literal.whole.isEmpty && fraction.isEmpty) = false := by
      simpa using present
    simp only [Option.elim_some, List.cons_append, taken, left, Option.getD_some]
    simp only [Option.getD_some] at behindTaken behindLeft
    rw [behindTaken, behindLeft, filled, exponent]
    rfl

/-- A literal is read as the value nearest to the number that is read of it. -/
theorem float?_chars : float? literal.chars = some literal.spelling.toBinary64 := by
  obtain ⟨first, rest, starts, kind⟩ := literal.body_eq_cons
  have split := literal.splitSign_chars
  rw [starts] at split
  have wordless : first.toLower ≠ 'i' ∧ first.toLower ≠ 'n' := by
    rcases kind with digit | rfl
    · rw [Text.toLower_of_isDigit digit]
      exact ⟨Text.ne_of_isDigit digit rfl, Text.ne_of_isDigit digit rfl⟩
    · decide
  rw [float?_of_splitSign split wordless, literal.ofText?_chars]
  rfl

/-- A literal without its sign is a numeral when it is plain. A point and the mark of a
power are no digits, so a literal that has either is none; without them only the digits of
the whole part are left, and there are some. -/
theorem isNumeral_body_iff : Text.isNumeral literal.body = true ↔ literal.IsPlain := by
  have digits := literal.digits
  have present := literal.present
  rw [Text.isNumeral_iff, body, fractionChars, powerChars, IsPlain]
  cases behind : literal.fraction with
  | some fraction =>
    refine iff_of_false ?_ (by simp)
    rintro ⟨_, all⟩
    have point := all '.' (by simp)
    cases point
  | none =>
    rw [behind, Option.getD_none, List.append_nil] at digits present
    cases last : literal.power with
    | some power =>
      refine iff_of_false ?_ (by simp)
      rintro ⟨_, all⟩
      have mark := all power.mark (by simp [Power.chars])
      rcases power.marked with marked | marked
      · rw [marked] at mark
        cases mark
      · rw [marked] at mark
        cases mark
    | none =>
      simp only [Option.elim_none, List.append_nil]
      exact iff_of_true ⟨present, digits⟩ ⟨trivial, trivial⟩

/-- A literal of the size of a natural number denotes this number with its sign. -/
theorem number_of_magnitude {size : Nat} (same : literal.magnitude = size) :
    literal.number = Binary64.signed literal.sign.negative size := by
  rw [number, same, Binary64.signed]
  split
  · rw [Int.cast_neg, Int.cast_natCast]
  · rw [Int.cast_natCast]

/-- A plain literal denotes the integer of its digits and its sign. -/
theorem number_of_isPlain (plain : literal.IsPlain) :
    literal.number = Binary64.signed literal.sign.negative (Text.numeralValue literal.body) := by
  obtain ⟨pointless, powerless⟩ := plain
  apply literal.number_of_magnitude
  rw [magnitude, body, fractionDigits, fractionChars, powerChars, exponent, pointless, powerless]
  simp

/-- The reading of integers takes the plain literals whose number fits 64 bits with sign,
and reads this number. Digits are read up to a bound that only a number outside of the range
passes, so stopping there refuses nothing that would have been kept. -/
theorem int64?_chars_iff {value : Int} :
    int64? literal.chars = some value ↔
      literal.IsPlain ∧ isInt64 value = true ∧ literal.number = value := by
  rw [← literal.isNumeral_body_iff, int64?]
  simp only [literal.splitSign_chars, Text.naturalBelow?_eq (Nat.succ_pos int64Bound), Text.natural?]
  by_cases numeral : Text.isNumeral literal.body = true
  · rw [literal.number_of_isPlain (literal.isNumeral_body_iff.mp numeral), Int.cast_inj]
    simp only [numeral, if_true, Option.filter_eq_some_iff, Option.map_eq_some_iff,
      Option.some.injEq, decide_eq_true_eq, true_and]
    constructor
    · rintro ⟨⟨_, ⟨rfl, _⟩, same⟩, inside⟩
      exact ⟨inside, same⟩
    · rintro ⟨inside, same⟩
      refine ⟨⟨_, ⟨rfl, ?_⟩, same⟩, inside⟩
      rw [isInt64, Bool.and_eq_true, decide_eq_true_eq, decide_eq_true_eq, ← same] at inside
      simp only [Binary64.signed] at inside
      split at inside
      · omega
      · omega
  · simp [numeral]

/-- Whether the exponent of a literal is read whole, or does not matter. -/
def IsReadWhole : Prop :=
  literal.exponent.natAbs < 10 * DecimalSpelling.exponentLimit ∨ literal.magnitude = 0

/-- The exponent of a literal is read whole, or as one that has reached the limit and is at
most a tenth of it. -/
theorem exponent_spec :
    literal.spelling.exponent = literal.exponent ∧
        literal.exponent.natAbs < 10 * DecimalSpelling.exponentLimit ∨
      10 * DecimalSpelling.exponentLimit ≤ literal.exponent.natAbs ∧
        ((DecimalSpelling.exponentLimit : Int) ≤ literal.spelling.exponent ∧
            10 * literal.spelling.exponent ≤ literal.exponent ∨
          literal.spelling.exponent ≤ -DecimalSpelling.exponentLimit ∧
            literal.exponent ≤ 10 * literal.spelling.exponent) := by
  rw [spelling, exponent]
  cases literal.power with
  | none => exact .inl ⟨rfl, by decide⟩
  | some power => exact power.readExponent_spec

/-- What is read of a literal is its size up to the power of ten that its exponent lost. -/
theorem exactValue_spelling :
    literal.spelling.exactValue =
      literal.magnitude * 10 ^ (literal.spelling.exponent - literal.exponent) := by
  have places : literal.spelling.exponent - literal.fractionDigits.length =
      literal.exponent - literal.fractionDigits.length +
        (literal.spelling.exponent - literal.exponent) := by omega
  rw [magnitude, mul_assoc, ← zpow_add₀ (by norm_num), ← places]
  rfl

/-- A literal whose exponent is read whole is read as its size. -/
theorem exactValue_of_isReadWhole (whole : literal.IsReadWhole) :
    literal.spelling.exactValue = literal.magnitude := by
  rw [exactValue_spelling]
  rcases whole with small | none
  · rcases literal.exponent_spec with ⟨same, _⟩ | ⟨large, _⟩
    · rw [same, Int.sub_self, zpow_zero, mul_one]
    · omega
  · rw [none, zero_mul]

end Literal

end Number

end EventSieve
