import EventSieve.Number.Notation
import EventSieve.Number.Reading
import EventSieve.Proofs.Text.Numeral
import EventSieve.Proofs.Text.Pieces

/-!
# Numerals are read as numbers

A numeral has digits only, and at least one. It has no sign, no letter of a word for a
number and no blank, so a reader of numbers either takes its digits as they are or
refuses it for its size. What an integer is written as is read as that integer again.
-/

namespace EventSieve

namespace Text

/-- Digits at the front of a text are taken whole up to what is none, and this is left. -/
theorem takeWhile_isDigit {digits rest : List Char} (all : ∀ digit ∈ digits, digit.isDigit = true)
    (stops : ∀ character ∈ rest.head?, character.isDigit = false) :
    (digits ++ rest).takeWhile Char.isDigit = digits ∧
      (digits ++ rest).dropWhile Char.isDigit = rest :=
  run_append all stops

/-- What ends a numeral is no digit. -/
theorem EndsNumeral.stops {rest : List Char} (ended : EndsNumeral rest) :
    ∀ character ∈ rest.head?, character.isDigit = false := by
  intro character first
  simp only [Char.isDigit, Bool.and_eq_false_iff, decide_eq_false_iff_not]
  left
  exact UInt32.not_le.mpr (ended character first)

/-- A point ends a numeral. -/
theorem endsNumeral_point (rest : List Char) : EndsNumeral ('.' :: rest) := by
  rintro _ ⟨⟩
  decide

/-- A numeral has a first digit, and digits only. -/
theorem isNumeral_iff {text : List Char} :
    isNumeral text = true ↔ text ≠ [] ∧ ∀ digit ∈ text, digit.isDigit = true := by
  simp [isNumeral]

/-- A digit is no other character. -/
theorem ne_of_isDigit {digit other : Char} (inside : digit.isDigit = true)
    (outside : other.isDigit = false) : digit ≠ other := by
  rintro rfl
  exact Bool.false_ne_true (outside.symm.trans inside)

/-- A digit has no smaller form. -/
theorem toLower_of_isDigit {digit : Char} (inside : digit.isDigit = true) :
    digit.toLower = digit := by
  have bounds := toNat_of_isDigit inside
  simp only [Char.toLower, ge_iff_le, UInt32.le_iff_toNat_le]
  apply dif_neg
  rintro ⟨capital, _⟩
  have first : 65 ≤ digit.toNat := capital
  omega

end Text

namespace Number

/-- A text without a sign is left as it is. -/
theorem splitSign_cons {first : Char} (unsigned : first ≠ '+' ∧ first ≠ '-') (rest : List Char) :
    splitSign (first :: rest) = (false, first :: rest) := by
  rw [splitSign]
  · rintro _ ⟨⟩
    exact unsigned.1 rfl
  · rintro _ ⟨⟩
    exact unsigned.2 rfl

/-- A numeral at the front of a text is no sign. -/
theorem splitSign_numeral {whole : List Char} (numeral : Text.isNumeral whole = true)
    (rest : List Char) : splitSign (whole ++ rest) = (false, whole ++ rest) := by
  obtain ⟨present, digits⟩ := Text.isNumeral_iff.mp numeral
  obtain ⟨digit, more, rfl⟩ := List.exists_cons_of_ne_nil present
  have inside := digits digit List.mem_cons_self
  exact splitSign_cons ⟨Text.ne_of_isDigit inside rfl, Text.ne_of_isDigit inside rfl⟩ (more ++ rest)

/-- A text that starts with no first letter of a word behind its sign is read as a decimal
or not at all. -/
theorem float?_of_splitSign {text rest : List Char} {negative : Bool} {first : Char}
    (split : splitSign text = (negative, first :: rest))
    (wordless : first.toLower ≠ 'i' ∧ first.toLower ≠ 'n') :
    float? text = (DecimalSpelling.ofText? text).map DecimalSpelling.toBinary64 := by
  have notWord (letter : Char) (more : List Char) (other : first.toLower ≠ letter) :
      String.ofList (Text.lowerChars (first :: rest)) ≠ String.ofList (letter :: more) := by
    intro same
    have heads := congrArg String.toList same
    simp only [String.toList_ofList, Text.lowerChars, List.map_cons, List.cons.injEq] at heads
    exact other heads.1
  rw [float?]
  simp only [split]
  rw [if_neg, if_neg]
  · simpa using notWord 'n' ['a', 'n'] wordless.2
  · simpa using And.intro (notWord 'i' ['n', 'f'] wordless.1)
      (notWord 'i' ['n', 'f', 'i', 'n', 'i', 't', 'y'] wordless.1)

/-- A text whose first character is no sign and no first letter of a word is read as a
decimal or not at all. -/
theorem float?_cons {first : Char} (unsigned : first ≠ '+' ∧ first ≠ '-')
    (wordless : first.toLower ≠ 'i' ∧ first.toLower ≠ 'n') (rest : List Char) :
    float? (first :: rest) =
      (DecimalSpelling.ofText? (first :: rest)).map DecimalSpelling.toBinary64 :=
  float?_of_splitSign (splitSign_cons unsigned rest) wordless

/-- A text without a sign is an integer when it is a numeral below the bound. -/
theorem int64?_eq_some_iff {text : List Char} (unsigned : splitSign text = (false, text))
    {value : Int} :
    int64? text = some value ↔
      Text.isNumeral text = true ∧ Text.numeralValue text < int64Bound ∧
        value = Text.numeralValue text := by
  have fits (number : Nat) : isInt64 number = true ↔ number < int64Bound := by
    rw [isInt64, Bool.and_eq_true, decide_eq_true_eq, decide_eq_true_eq]
    omega
  rw [int64?]
  simp only [unsigned, Text.naturalBelow?_eq (Nat.succ_pos int64Bound), Text.natural?]
  by_cases numeral : Text.isNumeral text = true
  · simp only [if_pos numeral, Option.filter_eq_some_iff, Option.map_eq_some_iff, Option.some.injEq,
      decide_eq_true_eq, Binary64.signed, Bool.false_eq_true, if_false]
    constructor
    · rintro ⟨⟨number, ⟨rfl, _⟩, rfl⟩, inside⟩
      exact ⟨numeral, (fits _).mp inside, rfl⟩
    · rintro ⟨_, small, rfl⟩
      exact ⟨⟨_, ⟨rfl, Nat.lt_succ_of_lt small⟩, rfl⟩, (fits _).mpr small⟩
  · simp [numeral]

/-- A text that starts with a numeral is read as a decimal or not at all. -/
theorem float?_numeral {whole : List Char} (numeral : Text.isNumeral whole = true)
    (rest : List Char) :
    float? (whole ++ rest) =
      (DecimalSpelling.ofText? (whole ++ rest)).map DecimalSpelling.toBinary64 := by
  obtain ⟨present, digits⟩ := Text.isNumeral_iff.mp numeral
  obtain ⟨digit, more, rfl⟩ := List.exists_cons_of_ne_nil present
  have inside := digits digit List.mem_cons_self
  apply float?_cons
  · exact ⟨Text.ne_of_isDigit inside rfl, Text.ne_of_isDigit inside rfl⟩
  · rw [Text.toLower_of_isDigit inside]
    exact ⟨Text.ne_of_isDigit inside rfl, Text.ne_of_isDigit inside rfl⟩

/-- A numeral below the bound is read as its number. -/
theorem int64?_numeral {digits : List Char} (numeral : Text.isNumeral digits = true)
    (small : Text.numeralValue digits < int64Bound) :
    int64? digits = some (Text.numeralValue digits : Int) := by
  have unsigned := splitSign_numeral numeral []
  rw [List.append_nil] at unsigned
  exact (int64?_eq_some_iff unsigned).mpr ⟨numeral, small, rfl⟩

/-- A number in decimal is a numeral. -/
theorem isNumeral_decimalChars (value : Nat) : Text.isNumeral (Text.decimalChars value) = true :=
  Text.isNumeral_iff.mpr ⟨Nat.toDigits_ne_nil, fun _ => Text.isDigit_of_mem_decimalChars⟩

/-- The text of an integer that fits 64 bits is read as this integer. The size of a negative
integer may be one more than that of the greatest positive one, which is why the bound that
digits are read up to depends on the sign. -/
theorem int64?_integerText {value : Int} (fits : isInt64 value = true) :
    int64? (integerText value).toList = some value := by
  have numeral := isNumeral_decimalChars value.natAbs
  have bounds : -(int64Bound : Int) ≤ value ∧ value < int64Bound := by
    rw [isInt64, Bool.and_eq_true, decide_eq_true_eq, decide_eq_true_eq] at fits
    exact fits
  by_cases negative : value < 0
  · have small : Text.numeralValue (Text.decimalChars value.natAbs) < int64Bound + 1 := by
      rw [Text.numeralValue_decimalChars]
      omega
    have turned : Binary64.signed true value.natAbs = value := by
      simp only [Binary64.signed, if_true]
      omega
    have read : Text.naturalBelow? (int64Bound + 1) (Text.decimalChars value.natAbs) =
        some value.natAbs := by
      rw [Text.naturalBelow?_eq (Nat.succ_pos int64Bound), Text.natural?, if_pos numeral,
        Option.filter_some, if_pos (decide_eq_true small), Text.numeralValue_decimalChars]
    simp only [integerText, if_pos negative, String.toList_ofList, int64?, splitSign, read,
      Option.map_some, turned, Option.filter_some, fits, if_true]
  · have small : Text.numeralValue (Text.decimalChars value.natAbs) < int64Bound := by
      rw [Text.numeralValue_decimalChars]
      omega
    have same : (value.natAbs : Int) = value := by omega
    simp only [integerText, if_neg negative, String.toList_ofList, int64?_numeral numeral small,
      Text.numeralValue_decimalChars, same]

end Number

end EventSieve
