import EventSieve.Cell.Convert
import EventSieve.Proofs.Number.DecimalRounding
import EventSieve.Proofs.Number.Numerals
import EventSieve.Proofs.Version.Grammar

/-!
# Versions that are numbers

The text of a version can be a number as well. One that has a semantic form is a
number only when it is a numeral, or two numerals with a point between them: a
letter in front, a third number, a pre-release or build metadata leave no number,
and signs and exponents leave no semantic form.

The two readings differ in the numeral behind the point. It is a number of its own
in the semantic form, and the digits of a fraction in the number.
-/

namespace EventSieve

namespace Number

namespace DecimalSpelling

variable {whole fraction rest : List Char}

/-- What ends a numeral is no exponent. -/
theorem eq_nil_of_exponent? (ended : Text.EndsNumeral rest) {exponent : Int}
    (read : exponent? rest = some exponent) : rest = [] ∧ exponent = 0 := by
  cases rest with
  | nil =>
    cases read
    exact ⟨rfl, rfl⟩
  | cons mark more =>
    have low : mark < '0' := ended mark rfl
    rw [exponent?] at read
    simp only at read
    split at read
    · rename_i marked
      rcases marked.1 with rfl | rfl
      · exact absurd low (by decide)
      · exact absurd low (by decide)
    · cases read

/-- A numeral without a point behind it is read as a whole number. -/
theorem ofText?_whole (numeral : Text.isNumeral whole = true) (ended : Text.EndsNumeral rest)
    (pointless : ∀ character ∈ rest.head?, character ≠ '.') :
    ofText? (whole ++ rest) = (exponent? rest).map fun exponent => ⟨false, whole, [], exponent⟩ := by
  obtain ⟨present, digits⟩ := Text.isNumeral_iff.mp numeral
  obtain ⟨taken, left⟩ := Text.takeWhile_isDigit digits ended.stops
  rw [ofText?]
  simp only [splitSign_numeral numeral, taken, left]
  have filled : whole.isEmpty = false := List.isEmpty_eq_false_iff.mpr present
  split
  · exact absurd rfl (pointless '.' rfl)
  · simp only [filled, Bool.false_and, Bool.false_eq_true, if_false]

/-- A numeral with a point and digits behind it is read as a decimal. -/
theorem ofText?_point (numeral : Text.isNumeral whole = true)
    (more : ∀ digit ∈ fraction, digit.isDigit = true) (ended : Text.EndsNumeral rest) :
    ofText? (whole ++ '.' :: (fraction ++ rest)) =
      (exponent? rest).map fun exponent => ⟨false, whole, fraction, exponent⟩ := by
  obtain ⟨present, digits⟩ := Text.isNumeral_iff.mp numeral
  obtain ⟨taken, left⟩ := Text.takeWhile_isDigit digits (Text.endsNumeral_point (fraction ++ rest)).stops
  obtain ⟨fractionTaken, fractionLeft⟩ := Text.takeWhile_isDigit more ended.stops
  have filled : whole.isEmpty = false := List.isEmpty_eq_false_iff.mpr present
  rw [ofText?]
  simp only [splitSign_numeral numeral, taken, left, fractionTaken, fractionLeft, filled,
    Bool.false_and, Bool.false_eq_true, if_false]

end DecimalSpelling

/-- A letter v in front leaves no number. -/
theorem float?_letter {letter : Char} (other : letter = 'v' ∨ letter = 'V') (rest : List Char) :
    float? (letter :: rest) = none := by
  rcases other with rfl | rfl
  all_goals
    rw [float?_cons (by decide) (by decide), DecimalSpelling.ofText?]
    simp [splitSign]

section

variable {whole fraction rest : List Char} {value : Binary64}

/-- A number without a point is a numeral. -/
theorem float?_whole (numeral : Text.isNumeral whole = true) (ended : Text.EndsNumeral rest)
    (pointless : ∀ character ∈ rest.head?, character ≠ '.')
    (read : float? (whole ++ rest) = some value) :
    rest = [] ∧ value = DecimalSpelling.toBinary64 ⟨false, whole, [], 0⟩ := by
  rw [float?_numeral numeral, DecimalSpelling.ofText?_whole numeral ended pointless] at read
  obtain ⟨spelling, spelled, rfl⟩ := Option.map_eq_some_iff.mp read
  obtain ⟨exponent, exponential, rfl⟩ := Option.map_eq_some_iff.mp spelled
  obtain ⟨rfl, rfl⟩ := DecimalSpelling.eq_nil_of_exponent? ended exponential
  exact ⟨rfl, rfl⟩

/-- A number with a point is two numerals. -/
theorem float?_point (numeral : Text.isNumeral whole = true)
    (more : Text.isNumeral fraction = true) (ended : Text.EndsNumeral rest)
    (read : float? (whole ++ '.' :: (fraction ++ rest)) = some value) :
    rest = [] ∧ value = DecimalSpelling.toBinary64 ⟨false, whole, fraction, 0⟩ := by
  rw [float?_numeral numeral,
    DecimalSpelling.ofText?_point numeral (Text.isNumeral_iff.mp more).2 ended] at read
  obtain ⟨spelling, spelled, rfl⟩ := Option.map_eq_some_iff.mp read
  obtain ⟨exponent, exponential, rfl⟩ := Option.map_eq_some_iff.mp spelled
  obtain ⟨rfl, rfl⟩ := DecimalSpelling.eq_nil_of_exponent? ended exponential
  exact ⟨rfl, rfl⟩

end

end Number

/-- A floating-point value without a sign that is read as an integer has its units. -/
theorem Cell.wholeFloat?_units {value : Number.Binary64} {count : Nat} {whole : Int64}
    (own : value.HasUnits false count) (read : wholeFloat? value = some whole) :
    whole.toInt * 2 ^ 1074 = count :=
  own.integer? (wholeFloat?_eq_some_iff.mp read).1

namespace Version

open Text (EndsNumeral isNumeral numeralValue)

/-- The numerals of a version are one, two or three. -/
theorem WrittenVersion.numbers_cases (written : WrittenVersion) :
    ∃ whole, isNumeral whole = true ∧ (written.numbers = [whole] ∨
      ∃ second, isNumeral second = true ∧ (written.numbers = [whole, second] ∨
        ∃ third, written.numbers = [whole, second, third])) := by
  obtain ⟨letter, numbers, suffix, known, present, few, numerals⟩ := written
  rcases numbers with _ | ⟨whole, _ | ⟨second, _ | ⟨third, _ | ⟨fourth, more⟩⟩⟩⟩
  · exact absurd rfl present
  · exact ⟨whole, (numerals whole (by simp)).1, .inl rfl⟩
  · exact ⟨whole, (numerals whole (by simp)).1, .inr ⟨second, (numerals second (by simp)).1,
      .inl rfl⟩⟩
  · exact ⟨whole, (numerals whole (by simp)).1, .inr ⟨second, (numerals second (by simp)).1,
      .inr ⟨third, rfl⟩⟩⟩
  · simp only [List.length_cons] at few
    omega

/-- A version without a suffix has its numbers only. -/
theorem WrittenVersion.form_of_noSuffix {written : WrittenVersion}
    (none : written.suffix.chars = []) :
    written.form = ⟨written.number 0, written.number 1, written.number 2, [], []⟩ := by
  have parts := written.suffix?_chars
  rw [none] at parts
  obtain ⟨pre, build⟩ := Prod.mk.inj (Option.some.inj parts)
  simp only [form] at pre build ⊢
  rw [← pre, ← build]

/-- What stands behind the numbers of a version ends a numeral, and is no point. -/
theorem WrittenSuffix.endsNumeral_chars (suffix : WrittenSuffix) :
    EndsNumeral suffix.chars ∧ ∀ character ∈ suffix.chars.head?, character ≠ '.' := by
  constructor
  · intro character first
    rcases suffix.head_chars character first with rfl | rfl
    · decide
    · decide
  · intro character first
    rcases suffix.head_chars character first with rfl | rfl
    · decide
    · decide

/-- Whether a version is the numeral `whole`, with a point and the numeral `fraction`
behind it unless that is empty. -/
structure IsNumber (version : Version) (whole fraction : List Char) : Prop where
  numeral : isNumeral whole = true
  spelled : fraction = [] ∧ version.text.toList = whole ∨
    isNumeral fraction = true ∧ version.text.toList = whole ++ '.' :: fraction
  form : version.semantic = some ⟨numeralValue whole, numeralValue fraction, 0, [], []⟩

/-- The number that two numerals with a point between them spell. -/
def number (whole fraction : List Char) : Number.DecimalSpelling :=
  ⟨false, whole, fraction, 0⟩

/-- One numeral spells the number that it denotes. -/
theorem exactValue_number_nil (whole : List Char) :
    (number whole []).exactValue = numeralValue whole := by
  simp [Number.DecimalSpelling.exactValue, number]

/-- A version that is read as a floating-point value has no letter in front. -/
theorem WrittenVersion.letter_eq_nil {written : WrittenVersion} {value : Number.Binary64}
    (read : Number.float? written.chars = some value) : written.letter = [] := by
  rcases written.letter_cases with none | small | capital
  · exact none
  · rw [chars, small, List.singleton_append, Number.float?_letter (.inl rfl)] at read
    cases read
  · rw [chars, capital, List.singleton_append, Number.float?_letter (.inr rfl)] at read
    cases read

/-- A version with a semantic form that is read as a floating-point value is one or two
numerals, and the value is that of the number that they spell.

Proof: a semantic form has one to three numerals with points between them and a suffix
behind. What stands behind the first or the second numeral is read as an exponent or not at
all, and neither a suffix nor another point starts an exponent. -/
theorem isNumber_of_float? {version : Version} {form : Semantic} {value : Number.Binary64}
    (known : version.semantic = some form) (read : Number.float? version.text.toList = some value) :
    ∃ whole fraction, version.IsNumber whole fraction ∧ value = (number whole fraction).toBinary64 := by
  obtain ⟨written, spelled, rfl⟩ := semantic?_eq_some_iff.mp (version.read.symm.trans known)
  obtain ⟨ended, pointless⟩ := written.suffix.endsNumeral_chars
  rw [← spelled] at read
  have text : version.text.toList = ['.'].intercalate written.numbers ++ written.suffix.chars := by
    rw [← spelled, WrittenVersion.chars, WrittenVersion.letter_eq_nil read]
    rfl
  rw [spelled, text] at read
  obtain ⟨whole, numeral, single | ⟨fraction, fractionNumeral, pair | ⟨third, triple⟩⟩⟩ :=
    written.numbers_cases
  · rw [single, List.intercalate_singleton] at read text
    obtain ⟨none, rfl⟩ := Number.float?_whole numeral ended pointless read
    rw [none, List.append_nil] at text
    refine ⟨whole, [], ⟨numeral, .inl ⟨rfl, text⟩, ?_⟩, rfl⟩
    have empty : numeralValue [] = 0 := rfl
    rw [known, WrittenVersion.form_of_noSuffix none]
    simp [WrittenVersion.number, single, empty]
  · rw [pair, List.intercalate_cons_cons, List.intercalate_singleton, List.append_assoc,
      List.append_assoc, List.singleton_append] at read text
    obtain ⟨none, rfl⟩ := Number.float?_point numeral fractionNumeral ended read
    rw [none, List.append_nil] at text
    refine ⟨whole, fraction, ⟨numeral, .inr ⟨fractionNumeral, text⟩, ?_⟩, rfl⟩
    rw [known, WrittenVersion.form_of_noSuffix none]
    simp [WrittenVersion.number, pair]
  · -- The second point is no exponent.
    rw [triple, List.intercalate_cons_cons, List.intercalate_cons_cons,
      List.intercalate_singleton] at read
    simp only [List.append_assoc, List.cons_append] at read
    have last := Number.float?_point numeral fractionNumeral (Text.endsNumeral_point _) read
    cases last.1

/-- A number of a version has digits only. -/
theorem IsNumber.isDecimal {version : Version} {whole fraction : List Char}
    (number : version.IsNumber whole fraction) : (Version.number whole fraction).IsDecimal := by
  intro digit member
  rcases List.mem_append.mp member with front | back
  · exact (Text.isNumeral_iff.mp number.numeral).2 digit front
  · rcases number.spelled with ⟨rfl, _⟩ | ⟨fractionNumeral, _⟩
    · cases back
    · exact (Text.isNumeral_iff.mp fractionNumeral).2 digit back

/-- A version with a semantic form starts with no sign. -/
theorem splitSign_of_semantic? {text : List Char} {form : Semantic}
    (read : semantic? text = some form) : Number.splitSign text = (false, text) := by
  obtain ⟨written, rfl, _⟩ := semantic?_eq_some_iff.mp read
  obtain ⟨digit, more, body, inside⟩ := written.exists_body_cons
  rw [WrittenVersion.chars, body]
  rcases written.letter_cases with none | small | capital
  · rw [none, List.nil_append]
    exact Number.splitSign_cons ⟨Text.ne_of_isDigit inside rfl, Text.ne_of_isDigit inside rfl⟩ more
  · rw [small]
    exact Number.splitSign_cons (by decide) _
  · rw [capital]
    exact Number.splitSign_cons (by decide) _

/-- A version with a semantic form that is read as an integer is that integer when it is one
numeral. Otherwise it is two numerals, and the integer has the units to which their number
is rounded.

Proof: a text that is read as an integer is a numeral without a sign. Otherwise it is read
as a floating-point value without a fraction that fits 64 bits, which has the units of the
number. This number is not a single numeral, which would be too large for that. -/
theorem isNumber_of_wholeText? {version : Version} {form : Semantic} {value : Int64}
    (known : version.semantic = some form) (read : Cell.wholeText? version.text = some value) :
    ∃ whole fraction, version.IsNumber whole fraction ∧
      (fraction = [] ∧ value.toInt = numeralValue whole ∨
        fraction ≠ [] ∧ value.toInt * 2 ^ 1074 = (number whole fraction).units) := by
  have unsigned := splitSign_of_semantic? (version.read.symm.trans known)
  simp only [Cell.wholeText?, version.trimmed] at read
  split at read
  · rename_i integer found
    obtain ⟨numeral, small, rfl⟩ := (Number.int64?_eq_some_iff unsigned).mp found
    cases read
    have spelled := @Number.DecimalSpelling.ofText?_whole _ [] numeral
      (fun _ first => nomatch first) (fun _ first => nomatch first)
    have read := Number.float?_numeral numeral []
    rw [spelled, List.append_nil] at read
    obtain ⟨whole, fraction, number, _⟩ := isNumber_of_float? known read
    have bound : Number.int64Bound = 2 ^ 63 := by decide
    rw [Int64.toInt_ofInt_of_le (by omega) (by omega)]
    rcases number.spelled with ⟨rfl, same⟩ | ⟨_, same⟩
    · exact ⟨whole, [], number, .inl ⟨rfl, by rw [same]⟩⟩
    · have digits := (Text.isNumeral_iff.mp numeral).2 '.' (by simp [same])
      cases digits
  · rename_i none
    obtain ⟨float, found, integer⟩ := Option.bind_eq_some_iff.mp read
    obtain ⟨whole, fraction, isNumber, rfl⟩ := isNumber_of_float? known found
    have units := Cell.wholeFloat?_units (number whole fraction).hasUnits_toBinary64 integer
    refine ⟨whole, fraction, isNumber, .inr ⟨?_, units⟩⟩
    rintro rfl
    -- A numeral that is no integer is not rounded to one.
    have same : version.text.toList = whole := by
      rcases isNumber.spelled with ⟨_, same⟩ | ⟨absent, _⟩
      · exact same
      · cases absent
    have large : Number.int64Bound ≤ numeralValue whole := by
      by_contra small
      rw [same] at none unsigned
      have read := (Number.int64?_eq_some_iff unsigned).mpr
        ⟨isNumber.numeral, Nat.lt_of_not_le small, rfl⟩
      cases none.symm.trans read
    have reached := Number.DecimalSpelling.int64Bound_le_units isNumber.isDecimal
      (by rw [exactValue_number_nil]; exact_mod_cast large)
    have cast := Int.ofNat_le.mpr reached
    rw [← units, Nat.cast_mul, Nat.cast_pow, Nat.cast_ofNat] at cast
    have above := Int.le_of_mul_le_mul_right cast (pow_pos (by decide) _)
    exact absurd value.toInt_lt (Int.not_lt.mpr above)

end Version

end EventSieve
