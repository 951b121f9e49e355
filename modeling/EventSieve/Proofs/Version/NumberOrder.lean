import EventSieve.Proofs.Filter.Order
import EventSieve.Proofs.Version.Numbers

/-!
# The order of versions and of their numbers

Versions with one or two numbers are ordered by the first and then by the second. The
numbers that their texts spell are ordered by the first and then by the second as the
digits of a fraction. Versions for which these differ are misplaced; their numbers are
in the contrary order, or equal.

Rounding keeps the order of numbers. An integer in a text is not rounded, though, so
an integer and a number with a point beyond 53 binary places may be in either order.
-/

namespace EventSieve.Version

open Text (isNumeral numeralValue)
open Number (significandBound)

/-- The major number of a version, zero without a semantic form. -/
def major (version : Version) : Nat :=
  (version.semantic.map Semantic.major).getD 0

/-- The digits of a version from its first point up to the next. -/
def minorDigits (version : Version) : List Char :=
  (Text.pieces '.' version.text.toList)[1]?.getD []

/-- The minor number of a version as the digits of a fraction. -/
def minorFraction (version : Version) : ℚ :=
  numeralValue version.minorDigits / 10 ^ version.minorDigits.length

/-- Whether a version does not come after another one with the same major number and a
smaller fraction. -/
def Overtakes (left right : Version) : Prop :=
  left.order right ≠ .gt ∧ left.major = right.major ∧ right.minorFraction < left.minorFraction

instance (left right : Version) : Decidable (left.Overtakes right) :=
  inferInstanceAs (Decidable (_ ∧ _ ∧ _))

/-- Whether two versions are in the contrary order of their numbers. -/
def Misplaced (left right : Version) : Prop :=
  left.Overtakes right ∨ right.Overtakes left

instance (left right : Version) : Decidable (left.Misplaced right) :=
  inferInstanceAs (Decidable (_ ∨ _))

/-- Whether only one of two versions has a point, and both are too large for the one
with the point to be kept exactly. -/
def RoundedApart (left right : Version) : Prop :=
  (left.minorDigits = [] ↔ right.minorDigits ≠ []) ∧
    significandBound ≤ left.major ∧ significandBound ≤ right.major

instance (left right : Version) : Decidable (left.RoundedApart right) :=
  inferInstanceAs (Decidable (_ ∧ _ ∧ _))

/-- Whether versions are in the order of the values that they are bound as in a column
of numbers. -/
def KeepsPlace (type : ColumnType) (left right : Version) : Prop :=
  ¬ left.Misplaced right ∧ (type = .int → ¬ left.RoundedApart right)

instance (type : ColumnType) (left right : Version) : Decidable (left.KeepsPlace type right) :=
  inferInstanceAs (Decidable (_ ∧ _))

/-- Two versions keep their places whichever is named first. -/
theorem KeepsPlace.symm {type : ColumnType} {left right : Version}
    (placed : left.KeepsPlace type right) : right.KeepsPlace type left := by
  obtain ⟨placed, exact⟩ := placed
  constructor
  · rintro (overtakes | overtakes)
    · exact placed (.inr overtakes)
    · exact placed (.inl overtakes)
  · rintro integers ⟨pointed, large, otherLarge⟩
    exact exact integers ⟨by tauto, otherLarge, large⟩

/-- Versions without a point keep their places. -/
theorem keepsPlace_of_pointless (type : ColumnType) {left right : Version}
    (pointless : left.minorDigits = []) (otherPointless : right.minorDigits = []) :
    left.KeepsPlace type right := by
  have fractions : left.minorFraction = right.minorFraction := by
    rw [minorFraction, minorFraction, pointless, otherPointless]
  constructor
  · rintro (⟨_, _, less⟩ | ⟨_, _, less⟩)
    · exact less.ne fractions.symm
    · exact less.ne fractions
  · rintro _ ⟨apart, _⟩
    exact apart.mp pointless otherPointless

/-- The units of the value that a version is bound as when it is a number: an integer in
a column of integers is kept, and any other number is rounded. -/
def boundUnits (type : ColumnType) (whole fraction : List Char) : Nat :=
  if type = .int ∧ fraction = [] then numeralValue whole * 2 ^ 1074
  else (number whole fraction).units

section

variable {version other : Version} {whole fraction otherWhole otherFraction : List Char}

/-- The major number of a version that is a number. -/
theorem IsNumber.major_eq (number : version.IsNumber whole fraction) :
    version.major = numeralValue whole := by
  rw [major, number.form]
  rfl

/-- The digits behind the point of a version that is a number. -/
theorem IsNumber.minorDigits_eq (number : version.IsNumber whole fraction) :
    version.minorDigits = fraction := by
  have pointless {numeral : List Char} (digits : isNumeral numeral = true) : '.' ∉ numeral := by
    intro member
    exact absurd ((Text.isNumeral_iff.mp digits).2 '.' member) (by decide)
  rcases number.spelled with ⟨rfl, same⟩ | ⟨digits, same⟩
  · rw [minorDigits, same, Text.pieces_of_not_mem (pointless number.numeral)]
    rfl
  · rw [minorDigits, same, Text.pieces_append (pointless number.numeral),
      Text.pieces_of_not_mem (pointless digits)]
    rfl

/-- The digits behind the point are less than one. -/
theorem IsNumber.minorFraction_lt_one (number : version.IsNumber whole fraction) :
    version.minorFraction < 1 := by
  have digits : ∀ digit ∈ fraction, digit.isDigit = true := by
    intro digit member
    exact number.isDecimal digit (List.mem_append_right _ member)
  have below := Text.numeralValue_lt digits
  rw [minorFraction, number.minorDigits_eq, div_lt_one (by positivity)]
  exact_mod_cast below

/-- The digits behind the point are not less than nothing. -/
theorem minorFraction_nonneg (version : Version) : 0 ≤ version.minorFraction := by
  rw [minorFraction]
  positivity

/-- The number that a version spells is its major number with its minor number as a
fraction. -/
theorem IsNumber.exactValue_eq (number : version.IsNumber whole fraction) :
    (Version.number whole fraction).exactValue = version.major + version.minorFraction := by
  rw [number.major_eq, minorFraction, number.minorDigits_eq, Number.DecimalSpelling.exactValue,
    Version.number]
  simp only [Text.numeralValue_append, zero_sub, zpow_neg, zpow_natCast]
  push_cast
  field_simp

/-- Versions that are numbers are ordered by their major numbers and then by their minor
numbers. -/
theorem IsNumber.le_of_order (number : version.IsNumber whole fraction)
    (otherNumber : other.IsNumber otherWhole otherFraction) (ordered : version.order other ≠ .gt) :
    version.major ≤ other.major := by
  rw [number.major_eq, otherNumber.major_eq]
  by_contra above
  apply ordered
  simp only [order, number.form, otherNumber.form, Semantic.order,
    Nat.compare_eq_gt.mpr (Nat.lt_of_not_le above)]
  rfl

/-- A version that does not come after another one spells no greater number, unless it
overtakes that. -/
theorem IsNumber.exactValue_le (number : version.IsNumber whole fraction)
    (otherNumber : other.IsNumber otherWhole otherFraction) (ordered : version.order other ≠ .gt)
    (placed : ¬ version.Overtakes other) :
    (Version.number whole fraction).exactValue ≤
      (Version.number otherWhole otherFraction).exactValue := by
  rw [number.exactValue_eq, otherNumber.exactValue_eq]
  rcases Nat.lt_or_eq_of_le (number.le_of_order otherNumber ordered) with less | same
  · have next : (version.major + 1 : ℚ) ≤ other.major := by exact_mod_cast less
    have below := number.minorFraction_lt_one
    have nonneg := other.minorFraction_nonneg
    linarith
  · have fractions : version.minorFraction ≤ other.minorFraction := by
      by_contra above
      exact placed ⟨ordered, same, lt_of_not_ge above⟩
    rw [same]
    exact add_le_add_right fractions _

/-- A version that overtakes another one spells the greater number. -/
theorem IsNumber.exactValue_le_of_overtakes (number : version.IsNumber whole fraction)
    (otherNumber : other.IsNumber otherWhole otherFraction) (overtakes : version.Overtakes other) :
    (Version.number otherWhole otherFraction).exactValue ≤
      (Version.number whole fraction).exactValue := by
  obtain ⟨_, same, less⟩ := overtakes
  rw [number.exactValue_eq, otherNumber.exactValue_eq, same]
  exact add_le_add_right less.le _

/-- Only a column of integers keeps an integer. -/
theorem boundUnits_of_ne_int {type : ColumnType} (other : type ≠ .int) (whole fraction : List Char) :
    boundUnits type whole fraction = (number whole fraction).units :=
  if_neg fun both => other both.1

/-- A version that does not come after another one is not bound as a greater value when the
two keep their places.

Proof: the numbers of versions that keep their places are in the order of the versions, and
rounding is monotone. Only a column of integers treats versions with and without a point
differently; then the integer is kept as it is and the number with a point is rounded, and
they cannot pass each other below the first integer that may be rounded. -/
theorem IsNumber.boundUnits_mono (number : version.IsNumber whole fraction)
    (otherNumber : other.IsNumber otherWhole otherFraction) (ordered : version.order other ≠ .gt)
    {type : ColumnType} (placed : version.KeepsPlace type other) :
    boundUnits type whole fraction ≤ boundUnits type otherWhole otherFraction := by
  obtain ⟨placed, together⟩ := placed
  have exact := number.exactValue_le otherNumber ordered fun overtakes => placed (.inl overtakes)
  have majors := number.le_of_order otherNumber ordered
  have bound : significandBound = 2 ^ 53 := by decide
  have small (integers : type = .int) (apart : fraction = [] ↔ otherFraction ≠ []) :
      version.major < 2 ^ 53 := by
    by_contra large
    apply together integers
    rw [RoundedApart, number.minorDigits_eq, otherNumber.minorDigits_eq, bound]
    exact ⟨apart, Nat.le_of_not_lt large, Nat.le_trans (Nat.le_of_not_lt large) majors⟩
  rw [boundUnits, boundUnits]
  split
  · rename_i kept
    obtain ⟨integers, rfl⟩ := kept
    rw [exactValue_number_nil] at exact
    split
    · rename_i otherKept
      obtain ⟨_, rfl⟩ := otherKept
      rw [exactValue_number_nil] at exact
      exact Nat.mul_le_mul_right _ (by exact_mod_cast exact)
    · rename_i otherRounded
      have major := small integers (iff_of_true rfl fun none => otherRounded ⟨integers, none⟩)
      rw [number.major_eq] at major
      exact Number.DecimalSpelling.le_units otherNumber.isDecimal (Nat.le_of_lt major) exact
  · rename_i rounded
    split
    · rename_i otherKept
      obtain ⟨integers, rfl⟩ := otherKept
      have major := small integers (iff_of_false (fun none => rounded ⟨integers, none⟩) (by simp))
      rw [exactValue_number_nil] at exact
      -- The number is at most the least of the integer and the first that may be rounded.
      have least : (Version.number whole fraction).exactValue ≤
          (min (numeralValue otherWhole) (2 ^ 53) : Nat) := by
        have next : (version.major + 1 : ℚ) ≤ (2 ^ 53 : Nat) := by exact_mod_cast major
        have below := number.minorFraction_lt_one
        rw [Nat.cast_min]
        apply le_min exact
        rw [number.exactValue_eq]
        linarith
      exact Nat.le_trans (Number.DecimalSpelling.units_le number.isDecimal (Nat.min_le_right _ _) least)
        (Nat.mul_le_mul_right _ (Nat.min_le_left _ _))
    · exact Number.DecimalSpelling.units_mono number.isDecimal otherNumber.isDecimal exact

end

end EventSieve.Version
