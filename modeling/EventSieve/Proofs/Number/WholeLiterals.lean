import EventSieve.Proofs.Number.Literals

/-!
# Literals read as whole floating-point values

A literal that is read as a floating-point value equal to an integer of 64 bits need not
denote this integer: it may have been rounded to it. It denotes it exactly when its number
is an integer that floating-point values have, one with at most 53 binary places in front
of the zeros at its end, and when its exponent is read whole. A literal with a longer
exponent is read as a number that is far too small or far too large.
-/

namespace EventSieve.Number

/-- The number that a finite value is. -/
def Binary64.number? : Binary64 → Option ℚ
  | .finite negative significand exponent _ => some (signed negative significand * 2 ^ exponent)
  | _ => none

/-- The integer that a value is equal to is its number. -/
theorem Binary64.number?_of_integer? {value : Binary64} {whole : Int}
    (read : value.integer? = some whole) : value.number? = some (whole : ℚ) := by
  cases value with
  | nan => cases read
  | infinite negative => cases read
  | finite negative significand exponent canonical =>
    have exact : whole * (2 ^ (-exponent).toNat : Nat) =
        signed negative (significand * 2 ^ exponent.toNat) := integer?_exact read
    rw [← signed_mul] at exact
    have scaled : (signed negative significand : ℚ) * 2 ^ exponent * 2 ^ (-exponent).toNat =
        whole * 2 ^ (-exponent).toNat := by
      rw [mul_assoc, zpow_mul_pow (by norm_num)]
      exact_mod_cast exact.symm
    exact congrArg some (mul_right_cancel₀ (by positivity) scaled)

/-- Whether a number is whole, with at most 53 binary places in front of any zeros. -/
def IsShort (number : ℚ) : Prop :=
  ∃ significand zeros : Nat, significand < significandBound ∧ |number| = significand * 2 ^ zeros

/-- A floating-point value is equal to short integers only. A whole value is a significand
with zeros behind it; one with places behind the point loses them, and what is left is
smaller than the significand. -/
theorem isShort_of_integer? {value : Binary64} {whole : Int} (read : value.integer? = some whole) :
    IsShort whole := by
  cases value with
  | nan => cases read
  | infinite negative => cases read
  | finite negative significand exponent canonical =>
    obtain ⟨below, _⟩ := canonical
    have exact : whole * (2 ^ (-exponent).toNat : Nat) =
        Binary64.signed negative (significand * 2 ^ exponent.toNat) := Binary64.integer?_exact read
    have sizes := congrArg Int.natAbs exact
    rw [Binary64.natAbs_signed, Int.natAbs_mul, Int.natAbs_natCast] at sizes
    have size : |(whole : ℚ)| = whole.natAbs := by rw [Nat.cast_natAbs, Int.cast_abs]
    rw [IsShort, size]
    rcases Int.le_total 0 exponent with sign | sign
    · refine ⟨significand, exponent.toNat, below, ?_⟩
      have none : (-exponent).toNat = 0 := by omega
      rw [none, pow_zero, Nat.mul_one] at sizes
      exact_mod_cast sizes
    · have none : exponent.toNat = 0 := by omega
      rw [none, pow_zero, Nat.mul_one] at sizes
      refine ⟨whole.natAbs, 0, ?_, by simp⟩
      exact Nat.lt_of_le_of_lt (Nat.le_mul_of_pos_right _ (Nat.two_pow_pos _)) (sizes ▸ below)

namespace DecimalSpelling

variable {spelling : DecimalSpelling}

/-- A short integer is read as it is when what is read lies below the bound of 64 bits. Such
an integer has few digits, so its own digits are read to the last, and a spelling of the
same size is read between this reading and itself. -/
theorem units_short {significand zeros : Nat} (digits : spelling.IsDecimal)
    (short : significand < significandBound)
    (size : spelling.exactValue = (significand * 2 ^ zeros : Nat))
    (small : spelling.units < int64Bound * 2 ^ 1074) :
    spelling.units = significand * 2 ^ zeros * 2 ^ 1074 := by
  have inside : significand * 2 ^ zeros < int64Bound := by
    by_contra large
    have reached : (int64Bound : ℚ) ≤ spelling.exactValue := by
      rw [size]
      exact_mod_cast Nat.le_of_not_lt large
    exact absurd (int64Bound_le_units digits reached) (Nat.not_le_of_lt small)
  have few : significand * 2 ^ zeros < 10 ^ digitLimit :=
    Nat.lt_trans inside (Nat.lt_of_lt_of_le (by decide : int64Bound < 10 ^ 20)
      (pow_le_pow_right₀ (by decide) (by decide)))
  have numeral := isDecimal_ofNat (significand * 2 ^ zeros)
  have same := size.trans (exactValue_ofNat (significand * 2 ^ zeros)).symm
  calc spelling.units
      = (ofNat (significand * 2 ^ zeros)).units :=
        Nat.le_antisymm (units_mono digits numeral same.le) (units_mono numeral digits same.ge)
    _ = Binary64.decimalUnits (significand * 2 ^ zeros) 0 := units_ofNat few
    _ = significand * 2 ^ zeros * 2 ^ 1074 :=
        Binary64.decimalUnits_whole (Nat.le_of_lt short) zeros

/-- A number with no digit in the first 399 places behind the point is read as zero. -/
theorem units_of_tiny (digits : spelling.IsDecimal)
    (tiny : spelling.exactValue ≤ 10 ^ (-400 : Int)) : spelling.units = 0 := by
  have least : IsDecimal ⟨false, ['1'], [], -400⟩ := List.forall_mem_singleton.mpr rfl
  have value : exactValue ⟨false, ['1'], [], -400⟩ = 10 ^ (-400 : Int) := by
    have one : Text.numeralValue ['1'] = 1 := rfl
    simp [exactValue, one]
  have none : units ⟨false, ['1'], [], -400⟩ = 0 := by decide +kernel
  exact Nat.le_zero.mp (none ▸ units_mono digits least (tiny.trans_eq value.symm))

end DecimalSpelling

namespace Literal

variable {literal : Literal} {whole : Int}

/-- The size of a number with a sign. -/
theorem abs_number (literal : Literal) : |literal.number| = literal.magnitude := by
  have nonnegative : 0 ≤ literal.magnitude := by
    rw [magnitude]
    positivity
  rw [number]
  split
  · rw [abs_neg, abs_of_nonneg nonnegative]
  · exact abs_of_nonneg nonnegative

/-- A literal of the size of an integer below the bound of 64 bits, other than zero, is not
read as of that size when its exponent is not read whole.

Proof: an exponent that is not read whole has reached the limit, and digits before or behind
the point make up for it. Without the rest of the exponent the spelling is far below the
least unit or far above the bound, so it is read as nothing or as too much. -/
theorem isReadWhole_of_units {size : Nat} (same : literal.magnitude = size) (present : size ≠ 0)
    (small : size < int64Bound) (units : literal.spelling.units = size * 2 ^ 1074) :
    literal.IsReadWhole := by
  have least : (1 : ℚ) ≤ size := by exact_mod_cast Nat.pos_of_ne_zero present
  have most : (size : ℚ) ≤ 10 ^ (19 : Int) := by
    have bound : int64Bound ≤ 10 ^ 19 := by decide
    exact_mod_cast Nat.le_trans (Nat.le_of_lt small) bound
  have limit : DecimalSpelling.exponentLimit = 65536 := rfl
  have value := literal.exactValue_spelling
  rw [same] at value
  rcases literal.exponent_spec with ⟨_, fits⟩ | ⟨_, ⟨reached, tenth⟩ | ⟨reached, tenth⟩⟩
  · exact .inl fits
  · -- The exponent that is lost would have brought the number up.
    have tiny : literal.spelling.exactValue ≤ 10 ^ (-400 : Int) :=
      calc literal.spelling.exactValue
          = size * 10 ^ (literal.spelling.exponent - literal.exponent) := value
        _ ≤ 10 ^ (19 : Int) * 10 ^ (-419 : Int) :=
          mul_le_mul most (zpow_le_zpow_right₀ (by norm_num) (by omega)) (by positivity)
            (by positivity)
        _ = 10 ^ (-400 : Int) := by rw [← zpow_add₀ (by norm_num)]; norm_num
    rw [DecimalSpelling.units_of_tiny literal.isDecimal_spelling tiny] at units
    have none := (Nat.mul_eq_zero.mp units.symm).resolve_right (pow_ne_zero _ (by decide))
    exact absurd none present
  · -- The exponent that is lost would have brought the number down.
    have huge : (int64Bound : ℚ) ≤ literal.spelling.exactValue :=
      calc (int64Bound : ℚ) ≤ 10 ^ (19 : Int) := by norm_num [int64Bound]
        _ ≤ 10 ^ (literal.spelling.exponent - literal.exponent) :=
          zpow_le_zpow_right₀ (by norm_num) (by omega)
        _ ≤ size * 10 ^ (literal.spelling.exponent - literal.exponent) :=
          le_mul_of_one_le_left (by positivity) least
        _ = literal.spelling.exactValue := value.symm
    have reach := DecimalSpelling.int64Bound_le_units literal.isDecimal_spelling huge
    rw [units] at reach
    exact absurd (Nat.le_of_mul_le_mul_right reach (pow_pos (by decide) _)) (Nat.not_le_of_lt small)

/-- The integer that a literal is read as has the size and the sign that are read. -/
theorem units_of_integer? (read : literal.spelling.toBinary64.integer? = some whole) :
    whole * (2 ^ 1074 : Nat) = Binary64.signed literal.sign.negative literal.spelling.units ∧
      literal.spelling.units = whole.natAbs * 2 ^ 1074 := by
  have units : whole * (2 ^ 1074 : Nat) =
      Binary64.signed literal.sign.negative literal.spelling.units := by
    rw [Nat.cast_pow]
    exact literal.spelling.hasUnits_toBinary64.integer? read
  have sizes := congrArg Int.natAbs units
  rw [Int.natAbs_mul, Int.natAbs_natCast, Binary64.natAbs_signed] at sizes
  exact ⟨units, sizes.symm⟩

/-- A plain literal that is read as an integer below the bound of 64 bits fits 64 bits with
sign itself. It has no exponent, so it is read as of its own size; and a size from the bound
on would be read as at least the bound. -/
theorem isInt64_of_isPlain (plain : literal.IsPlain)
    (read : literal.spelling.toBinary64.integer? = some whole) (small : whole.natAbs < int64Bound) :
    isInt64 (Binary64.signed literal.sign.negative (Text.numeralValue literal.body)) = true := by
  have size : literal.magnitude = Text.numeralValue literal.body := by
    rw [← literal.abs_number, literal.number_of_isPlain plain, ← Int.cast_abs, Int.abs_eq_natAbs,
      Binary64.natAbs_signed, Int.cast_natCast]
  have readWhole : literal.IsReadWhole := by
    left
    rw [exponent, plain.2]
    decide
  have inside : Text.numeralValue literal.body < int64Bound := by
    by_contra large
    have reached : (int64Bound : ℚ) ≤ literal.spelling.exactValue := by
      rw [literal.exactValue_of_isReadWhole readWhole, size]
      exact_mod_cast Nat.le_of_not_lt large
    have units := DecimalSpelling.int64Bound_le_units literal.isDecimal_spelling reached
    rw [(units_of_integer? read).2] at units
    exact absurd (Nat.le_of_mul_le_mul_right units (pow_pos (by decide) _)) (Nat.not_le_of_lt small)
  rw [isInt64, Bool.and_eq_true, decide_eq_true_eq, decide_eq_true_eq, Binary64.signed]
  split <;> omega

/-- A literal that is read as an integer below the bound of 64 bits denotes this integer
exactly when its number is a short integer and its exponent is read whole.

Proof: a literal that denotes the integer has a short number, since floating-point values
are equal to no other, and its size would be missed if the exponent were not read whole.
Conversely a short number that is read whole is not rounded, so what is read are its own
units. -/
theorem number_eq_iff (read : literal.spelling.toBinary64.integer? = some whole)
    (small : whole.natAbs < int64Bound) :
    literal.number = whole ↔ IsShort literal.number ∧ literal.IsReadWhole := by
  obtain ⟨units, sizes⟩ := units_of_integer? read
  constructor
  · intro same
    have size : literal.magnitude = whole.natAbs := by
      rw [← literal.abs_number, same, Nat.cast_natAbs, Int.cast_abs]
    refine ⟨same ▸ isShort_of_integer? read, ?_⟩
    rcases Nat.eq_zero_or_pos whole.natAbs with none | present
    · exact .inr (by rw [size, none, Nat.cast_zero])
    · exact isReadWhole_of_units size (Nat.pos_iff_ne_zero.mp present) small sizes
  · rintro ⟨⟨significand, zeros, short, size⟩, readWhole⟩
    have magnitude : literal.magnitude = (significand * 2 ^ zeros : Nat) := by
      rw [← literal.abs_number, size]
      push_cast
      rfl
    have below : literal.spelling.units < int64Bound * 2 ^ 1074 := by
      rw [sizes]
      exact Nat.mul_lt_mul_of_pos_right small (pow_pos (by decide) _)
    have own := DecimalSpelling.units_short literal.isDecimal_spelling short
      ((literal.exactValue_of_isReadWhole readWhole).trans magnitude) below
    rw [own, ← Binary64.signed_mul] at units
    rw [literal.number_of_magnitude magnitude, Int.cast_inj]
    exact (Int.eq_of_mul_eq_mul_right (by positivity) units).symm

end Literal

end EventSieve.Number
