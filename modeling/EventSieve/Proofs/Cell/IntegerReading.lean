import EventSieve.Proofs.Cell.Conversion
import EventSieve.Proofs.Number.WholeLiterals
import EventSieve.Record.Reader

/-!
# Cells read as integers

An integer is taken from a cell in three places: by the conversion to an integer column,
by the plain reading of a cell, and by the reading of a field, which is the plain reading
of its value. A floating-point cell has a number when it is finite, and so has a text that
is a decimal literal with blanks around it.

Not every integer that is read is this number. The conversion takes a floating-point cell
as it is, but a text that is no plain literal only through the nearest floating-point value.
So it reads the number of a text exactly when the text is plain, or the number is an integer
that floating-point values have and its exponent is read whole. The plain readings take
texts as they are, but bring a floating-point value beyond 64 bits to the end of their
range. So they read the number exactly when it fits 64 bits.
-/

namespace EventSieve

open Number (Binary64 Literal)

/-- An integer that fits 64 bits with sign is kept in them. -/
theorem Number.toInt_ofInt {value : Int} (fits : isInt64 value = true) :
    (Int64.ofInt value).toInt = value := by
  have bound : int64Bound = 2 ^ 63 := rfl
  rw [isInt64, Bool.and_eq_true, decide_eq_true_eq, decide_eq_true_eq] at fits
  exact Int64.toInt_ofInt_of_le (by omega) (by omega)

/-- A cell that may have a number: a floating-point value, or a text that is a decimal
literal with blanks around it. -/
inductive NumericCell where
  | float (value : Binary64)
  | text (text : String) (literal : Literal) (spelled : Text.trimChars text.toList = literal.chars)

namespace NumericCell

/-- The cell itself. -/
def cell : NumericCell → Cell
  | .float value => .float value
  | .text value _ _ => .text value

/-- The number of a cell. -/
def number? : NumericCell → Option ℚ
  | .float value => value.number?
  | .text _ literal _ => some literal.number

/-- Whether the conversion to an integer keeps the number of a cell. -/
def KeepsNumber : NumericCell → Prop
  | .float _ => True
  | .text _ literal _ => literal.IsPlain ∨ Number.IsShort literal.number ∧ literal.IsReadWhole

/-- Whether a cell has a number that lies in the range of 64 bits with sign. -/
def FitsInt64 (numeric : NumericCell) : Prop :=
  ∃ number ∈ numeric.number?, -(Number.int64Bound : ℚ) ≤ number ∧ number < Number.int64Bound

variable {numeric : NumericCell} {whole : Int64}

/-- The conversion to an integer reads the number of a cell exactly when it keeps it. A
floating-point value is converted only when it is whole, and then exactly. A text that is a
plain integer is read digit by digit; any other literal goes through a floating-point value,
so it is kept when it is short enough for one and is read whole. -/
theorem number?_of_convert (read : numeric.cell.convert .int = .ok (.integer whole)) :
    numeric.number? = some (whole.toInt : ℚ) ↔ numeric.KeepsNumber := by
  rcases Cell.convert_eq_ok read with ⟨json, _⟩ | null | ⟨_, found⟩
  · cases json
  · cases null
  · cases numeric with
    | float value =>
      obtain ⟨_, own, same⟩ := Option.map_eq_some_iff.mp found
      cases same
      refine iff_of_true ?_ trivial
      exact Binary64.number?_of_integer? (Cell.wholeFloat?_eq_some_iff.mp own).1
    | text value literal spelled =>
      obtain ⟨_, own, same⟩ := Option.map_eq_some_iff.mp found
      cases same
      simp only [Cell.wholeText?, spelled, literal.float?_chars, Option.bind_some] at own
      rw [number?, Option.some.injEq, KeepsNumber]
      split at own
      · rename_i integer known
        cases own
        obtain ⟨plain, fits, number⟩ := literal.int64?_chars_iff.mp known
        rw [Number.toInt_ofInt fits]
        exact iff_of_true number (.inl plain)
      · rename_i unknown
        obtain ⟨exact, small⟩ := Cell.wholeFloat?_eq_some_iff.mp own
        have marked : ¬ literal.IsPlain := by
          intro plain
          have read := literal.int64?_chars_iff.mpr ⟨plain,
            Literal.isInt64_of_isPlain plain exact small, literal.number_of_isPlain plain⟩
          cases unknown.symm.trans read
        rw [Literal.number_eq_iff exact small, or_iff_right marked]

/-- The plain reading reads the number of a cell exactly when it fits. What is read always
lies in the range. Conversely a value outside of it is brought to the nearest bound instead
of being refused, so inside of it nothing is moved, and texts are read digit by digit and
refused beyond the bounds. -/
theorem number?_of_integer? (read : numeric.cell.integer? = some whole) :
    numeric.number? = some (whole.toInt : ℚ) ↔ numeric.FitsInt64 := by
  have inside : -(Number.int64Bound : ℚ) ≤ whole.toInt ∧ (whole.toInt : ℚ) < Number.int64Bound := by
    have least : -(Number.int64Bound : Int) ≤ whole.toInt := whole.le_toInt
    have most : whole.toInt < (Number.int64Bound : Int) := whole.toInt_lt
    exact ⟨by exact_mod_cast least, by exact_mod_cast most⟩
  constructor
  · intro same
    exact ⟨_, same, inside⟩
  · rintro ⟨number, own, least, most⟩
    cases numeric with
    | float value =>
      obtain ⟨integer, exact, rfl⟩ := Option.map_eq_some_iff.mp read
      have found := Binary64.number?_of_integer? exact
      cases own.symm.trans found
      have low : -(Number.int64Bound : Int) ≤ integer := by exact_mod_cast least
      have high : integer < (Number.int64Bound : Int) := by exact_mod_cast most
      have kept : max (-(Number.int64Bound : Int)) (min integer (Number.int64Bound - 1)) =
          integer := by omega
      rw [kept, Number.toInt_ofInt (Bool.and_eq_true_iff.mpr
        ⟨decide_eq_true low, decide_eq_true high⟩)]
      exact found
    | text value literal spelled =>
      obtain ⟨integer, found, rfl⟩ := Option.map_eq_some_iff.mp read
      rw [spelled] at found
      obtain ⟨_, fits, same⟩ := literal.int64?_chars_iff.mp found
      rw [Number.toInt_ofInt fits, ← same]
      rfl

end NumericCell

/-- The integer of a field is the plain reading of its value. -/
theorem RowReader.integer?_of_integer {reader : RowReader} {field : String} {whole : Int64}
    (read : (reader.integer field).value = some whole) :
    (reader.resolve field).value.integer? = some whole := by
  rw [integer, scalar, Noted.value_bind] at read
  generalize (reader.resolve field).value = cell at read ⊢
  split at read
  · cases read
  · split at read
    · rename_i value found
      rw [found]
      exact read
    · cases read

/-- The integers that are read from a cell with a number are this number exactly when, in
the conversion, the cell keeps it, and in the plain readings of a cell and of a field, it
fits 64 bits with sign. The two conditions differ: the conversion rounds long literals and
refuses what is too large, and the plain readings refuse literals that are not plain and
move what is too large to a bound.

Proof: the number of a cell is stated without any reader, as the value of a floating-point
number or of the digits of a literal. Each reader is then compared with it. The reader of a
field adds nothing to the plain reading of the cell that the field resolves to. -/
theorem NumericCell.integers_exact_iff (numeric : NumericCell) (whole : Int64) :
    (numeric.cell.convert .int = .ok (.integer whole) →
        (numeric.number? = some (whole.toInt : ℚ) ↔ numeric.KeepsNumber)) ∧
      (numeric.cell.integer? = some whole →
        (numeric.number? = some (whole.toInt : ℚ) ↔ numeric.FitsInt64)) ∧
        ∀ (reader : RowReader) (field : String), (reader.resolve field).value = numeric.cell →
          (reader.integer field).value = some whole →
            (numeric.number? = some (whole.toInt : ℚ) ↔ numeric.FitsInt64) := by
  refine ⟨number?_of_convert, number?_of_integer?, ?_⟩
  intro reader field resolved read
  apply number?_of_integer?
  rw [← resolved]
  exact RowReader.integer?_of_integer read

/-- A reader of rows without columns, whose fields all have one cell. -/
def RowReader.constant (cell : Cell) : RowReader where
  table := ⟨"t", [], [], Table.defaultConcatenator, rfl⟩
  row := []
  fallback := fun _ => cell

/-- All three readings take the floating-point value 1024 as it is. -/
theorem NumericCell.integers_exact_float :
    let numeric : NumericCell := .float (.ofInt 1024)
    let reader := RowReader.constant numeric.cell
    numeric.cell.convert .int = .ok (.integer 1024) ∧ numeric.cell.integer? = some 1024 ∧
      (reader.resolve "event_code").value = numeric.cell ∧
        (reader.integer "event_code").value = some 1024 ∧
          numeric.number? = some ((1024 : Int64).toInt : ℚ) ∧ numeric.FitsInt64 := by
  intro numeric reader
  have whole : Cell.wholeFloat? (.ofInt 1024) = some 1024 := by decide +kernel
  have converted : numeric.cell.convert .int = .ok (.integer 1024) :=
    Cell.convert_of_toType? (by decide) (by decide +kernel) (congrArg (Option.map Cell.integer) whole)
  have plain : numeric.cell.integer? = some 1024 := by decide +kernel
  have resolved : (reader.resolve "event_code").value = numeric.cell := rfl
  have field : (reader.integer "event_code").value = some 1024 := by decide +kernel
  obtain ⟨conversion, cellReading, fieldReading⟩ := integers_exact_iff numeric 1024
  have fits := (cellReading plain).mp ((conversion converted).mpr trivial)
  exact ⟨converted, plain, resolved, field, (fieldReading reader _ resolved field).mpr fits, fits⟩

/-- The literal 9007199254740993.0. -/
def Number.Literal.oddBeyondPlaces : Literal :=
  ⟨.none, "9007199254740993".toList, some ['0'], none, List.all_eq_true.mp (by decide), by decide⟩

/-- A text loses the last place of its number, and the floating-point value at the bound
is brought below it. -/
theorem NumericCell.integers_rounded :
    (∃ spelled, let numeric := text "9007199254740993.0" .oddBeyondPlaces spelled
      numeric.cell.convert .int = .ok (.integer 9007199254740992) ∧
        numeric.number? = some 9007199254740993) ∧
      let numeric := float (.ofInt 9223372036854775808)
      numeric.cell.integer? = some 9223372036854775807 ∧
        ((RowReader.constant numeric.cell).integer "event_code").value = some 9223372036854775807 ∧
          numeric.number? = some 9223372036854775808 := by
  constructor
  · have spelled : Text.trimChars "9007199254740993.0".toList =
        Number.Literal.oddBeyondPlaces.chars := by decide +kernel
    have whole : Cell.wholeText? "9007199254740993.0" = some 9007199254740992 := by decide +kernel
    have known : (Cell.text "9007199254740993.0").isNullLike = false := by decide +kernel
    refine ⟨spelled, ?_, ?_⟩
    · exact Cell.convert_of_toType? (by decide) known (congrArg (Option.map Cell.integer) whole)
    · have digits : Text.numeralValue ("9007199254740993".toList ++ ['0']) = 90071992547409930 := by
        decide +kernel
      norm_num [number?, Literal.number, Literal.magnitude, Literal.fractionDigits,
        Literal.exponent, Literal.oddBeyondPlaces, Number.Sign.negative, digits]
  · refine ⟨by decide +kernel, by decide +kernel, ?_⟩
    have exact : Binary64.integer? (.ofInt 9223372036854775808) = some 9223372036854775808 := by
      decide +kernel
    exact_mod_cast Binary64.number?_of_integer? exact

end EventSieve
