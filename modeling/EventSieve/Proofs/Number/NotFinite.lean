import EventSieve.Proofs.Number.DecimalRounding

/-!
# Texts that are read as no finite number

A decimal is read as infinity when it is too large. The greatest finite value has 53 ones,
and the number halfway between it and the next power of two is the least decimal that is
read as infinity, since a half goes to the even neighbour. A decimal below this number is
read as a finite value, however close it comes and however many digits it has.

Besides these decimals, only the words for infinity and for not-a-number are read as no
finite number.
-/

namespace EventSieve.Number

/-- The least number that is rounded to infinity. -/
def overflow : Nat := (2 ^ 54 - 1) * 2 ^ 970

/-- The least number that is rounded to infinity is positive. -/
theorem overflow_pos : 0 < overflow :=
  Nat.mul_pos (by decide) (pow_pos (by decide) _)

/-- The least number that is rounded to infinity has no more digits than are looked at. -/
theorem overflow_lt : overflow < 10 ^ DecimalSpelling.digitLimit := by
  have reach : overflow < 10 ^ 310 := by decide +kernel
  exact Nat.lt_of_lt_of_le reach (pow_le_pow_right₀ (by decide) (by decide))

namespace Binary64

variable {numerator denominator : Nat}

/-- The least number that is rounded to infinity lies a half below the 53rd power of two,
in steps of the greatest finite values. -/
theorem overflow_mul_le_iff : overflow * denominator ≤ numerator ↔
    (2 ^ 54 - 1) * (denominator * 2 ^ 2045) ≤ 2 * (numerator * 2 ^ 1074) := by
  have split : (2 : Nat) ^ 2045 = 2 * (2 ^ 970 * 2 ^ 1074) := by rw [← pow_add, ← pow_succ']
  have steps : (2 ^ 54 - 1) * (denominator * 2 ^ 2045) =
      overflow * denominator * (2 * 2 ^ 1074) := by
    rw [split, overflow]
    generalize 2 ^ 970 = last
    generalize 2 ^ 1074 = unit
    ring
  rw [steps, Nat.mul_left_comm 2, Nat.mul_le_mul_right_iff (by positivity)]

/-- A quotient has too many units for a finite value exactly when it reaches the least
number that is rounded to infinity.

Proof: by the number of places that rounding drops. With fewer than in the last binade of
finite values the quotient is below half of the bound, with more it has reached it. In that
binade the quotient is rounded to a significand of 53 places, and the bound is one step
above the greatest of them, so it is reached from half of that step on, since the greatest
significand is odd. -/
theorem unitsBound_le_roundedUnits_iff (present : 0 < numerator) (positive : 0 < denominator) :
    unitsBound ≤ roundedUnits numerator denominator ↔ overflow * denominator ≤ numerator := by
  obtain ⟨below, kept⟩ := droppedPlaces_spec present positive
  have atMost := roundedUnits_le present positive
  have atLeast := @le_roundedUnits numerator denominator present positive
  have powers (places : Nat) :
      denominator * 2 ^ (places + 52) = 2 ^ 52 * (denominator * 2 ^ places) := by
    rw [pow_add]
    ring
  rw [overflow_mul_le_iff]
  rcases Nat.lt_trichotomy (droppedPlaces numerator denominator) 2045 with fewer | same | more
  · -- With so few places to drop all quotients are below half of the bound.
    apply iff_of_false
    · intro large
      have places := (Nat.pow_le_pow_iff_right (by decide)).mp (Nat.le_trans large atMost)
      exact absurd places (Nat.not_le_of_lt (Nat.add_lt_add_right fewer 53))
    · have places : droppedPlaces numerator denominator + 53 ≤ 2045 + 52 := by omega
      have reach := Nat.le_trans
        (Nat.mul_le_mul_left denominator (pow_le_pow_right₀ (by decide) places))
        (Nat.le_of_eq (powers 2045))
      omega
  · -- The quotient is rounded to a significand, and the bound is the 53rd power of two.
    have step : 0 < denominator * 2 ^ 2045 := Nat.mul_pos positive (pow_pos (by decide) _)
    have bound : unitsBound = 2 ^ 53 * 2 ^ 2045 := by rw [unitsBound, ← pow_add]
    have half :=
      @divideToEven_le_iff (numerator * 2 ^ 1074) (denominator * 2 ^ 2045) step (2 ^ 53 - 1)
    rw [roundedUnits, same, bound, Nat.mul_le_mul_right_iff (Nat.two_pow_pos _)]
    omega
  · -- With so many places to drop all quotients reach the bound.
    rcases kept with none | begins
    · omega
    · have least (places : Nat) (few : places ≤ droppedPlaces numerator denominator + 52) :
          denominator * 2 ^ places ≤ numerator * 2 ^ 1074 :=
        Nat.le_trans (Nat.mul_le_mul_left _ (pow_le_pow_right₀ (by decide) few)) begins
      have twice : (2 : Nat) ^ 2046 = 2 ^ 2045 * 2 := by rw [← pow_succ]
      apply iff_of_true
      · exact atLeast (least 2098 (by omega))
      · have reach := Nat.le_trans (Nat.le_of_eq (powers 2046).symm) (least (2046 + 52) (by omega))
        rw [twice] at reach
        omega

/-- A decimal has too many units for a finite value exactly when it reaches the least number
that is rounded to infinity. -/
theorem unitsBound_le_decimalUnits_iff {coefficient : Nat} {scale : Int} :
    unitsBound ≤ decimalUnits coefficient scale ↔
      (overflow : ℚ) ≤ coefficient * 10 ^ scale := by
  have cross : (overflow : ℚ) ≤ coefficient * 10 ^ scale ↔
      overflow * 10 ^ (-scale).toNat ≤ coefficient * 10 ^ scale.toNat := by
    rw [← mul_le_mul_iff_left₀ (by positivity : (0 : ℚ) < 10 ^ (-scale).toNat), mul_assoc,
      zpow_mul_pow (by norm_num)]
    exact_mod_cast Iff.rfl
  rw [cross, decimalUnits]
  split_ifs with none
  · have bound : 0 < unitsBound := by
      rw [unitsBound]
      exact pow_pos (by decide) _
    have least : 0 < overflow * 10 ^ (-scale).toNat :=
      Nat.mul_pos overflow_pos (pow_pos (by decide) _)
    rw [none, Nat.zero_mul]
    exact iff_of_false (Nat.not_le_of_lt bound) (Nat.not_le_of_lt least)
  · exact unitsBound_le_roundedUnits_iff
      (Nat.mul_pos (Nat.pos_of_ne_zero none) (pow_pos (by decide) _)) (pow_pos (by decide) _)

/-- A value with a number of units is not finite when they are too many. -/
theorem HasUnits.isFinite_eq_false_iff {value : Binary64} {negative : Bool} {count : Nat}
    (own : value.HasUnits negative count) : value.isFinite = false ↔ unitsBound ≤ count := by
  rcases own with ⟨small, _, _, _, rfl, _⟩ | ⟨large, rfl⟩
  · exact iff_of_false (by rintro ⟨⟩) (Nat.not_le_of_lt small)
  · exact iff_of_true rfl large

/-- An integer below the least number that is rounded to infinity is read as a finite value. -/
theorem isFinite_ofInt {whole : Int} (small : whole.natAbs < overflow) :
    (ofInt whole).isFinite = true := by
  rw [ofInt]
  rcases Nat.eq_zero_or_pos whole.natAbs with none | present
  · rw [none]
    rfl
  · apply Bool.eq_true_of_not_eq_false
    rw [(hasUnits_ofFraction _ present Nat.one_pos).isFinite_eq_false_iff,
      unitsBound_le_roundedUnits_iff present Nat.one_pos, Nat.mul_one]
    exact Nat.not_le_of_lt small

end Binary64

namespace DecimalSpelling

variable {spelling : DecimalSpelling}

/-- A natural number with no more digits than are looked at is read as it is. -/
theorem decidingValue_ofNat {value : Nat} (short : value < 10 ^ digitLimit) :
    (ofNat value).decidingValue = value := by
  obtain ⟨coefficient, scale⟩ := coefficient_ofNat short
  rw [decidingValue, coefficient, scale, zpow_zero, mul_one]

/-- What is read in place of a number reaches the least number that is rounded to infinity
exactly when the number does. The least such number has far fewer digits than are read of a
spelling, so it never falls between the digits that are read and the next number of that
length. -/
theorem overflow_le_decidingValue_iff (digits : spelling.IsDecimal) :
    (overflow : ℚ) ≤ spelling.decidingValue ↔ (overflow : ℚ) ≤ spelling.exactValue := by
  have one : 10 ^ digitLimit = 10 ^ (digitLimit - 1 + 1) := congrArg (10 ^ ·) rfl
  constructor
  · intro reached
    by_contra short
    rcases decidingValue_cases digits with ⟨_, _, _, exactly, read⟩ |
      ⟨front, place, wide, _, above, _, read⟩
    · exact short (exactly ▸ read ▸ reached)
    · -- The next front is not above a number of so few digits.
      have before : (front : ℚ) * 10 ^ (place + 1) < overflow * 10 ^ (0 : Int) := by
        rw [zpow_zero, mul_one]
        exact above.trans (lt_of_not_ge short)
      have next := le_of_neighbour wide (one ▸ Nat.le_of_lt overflow_lt) before
      have positive : (0 : ℚ) < 10 ^ place := by positivity
      rw [zpow_zero, mul_one, zpow_add₀ (by norm_num), zpow_one] at next
      rw [read] at reached
      linarith
  · intro reached
    have mono := decidingValue_mono (isDecimal_ofNat overflow) digits
      ((exactValue_ofNat overflow).trans_le reached)
    rwa [decidingValue_ofNat overflow_lt] at mono

/-- A spelling is read as infinity exactly when its number reaches the least number that is
rounded to infinity. -/
theorem isFinite_toBinary64_eq_false_iff (digits : spelling.IsDecimal) :
    spelling.toBinary64.isFinite = false ↔ (overflow : ℚ) ≤ spelling.exactValue := by
  rw [spelling.hasUnits_toBinary64.isFinite_eq_false_iff, units,
    Binary64.unitsBound_le_decimalUnits_iff, ← overflow_le_decidingValue_iff digits, decidingValue]

/-- A text is taken apart into parts that have digits only. -/
theorem isDecimal_of_ofText? {text : List Char} (read : ofText? text = some spelling) :
    spelling.IsDecimal := by
  have taken (characters : List Char) : ∀ digit ∈ characters.takeWhile Char.isDigit,
      digit.isDigit = true := fun _ => List.mem_takeWhile_imp
  simp only [ofText?] at read
  generalize (splitSign text).2 = body at read
  split at read
  · split at read
    · cases read
    · obtain ⟨exponent, _, rfl⟩ := Option.map_eq_some_iff.mp read
      exact List.forall_mem_append.mpr ⟨taken _, taken _⟩
  · split at read
    · cases read
    · obtain ⟨exponent, _, rfl⟩ := Option.map_eq_some_iff.mp read
      exact List.forall_mem_append.mpr ⟨taken _, List.forall_mem_nil _⟩

end DecimalSpelling

/-- Whether a text spells not-a-number, with any sign and in any case. -/
def SpellsNaN (text : List Char) : Prop :=
  Text.lowerChars (splitSign text).2 = ['n', 'a', 'n']

instance (text : List Char) : Decidable (SpellsNaN text) :=
  inferInstanceAs (Decidable (_ = _))

namespace Binary64

/-- A magnitude is a number. -/
theorem pack_ne_nan (negative : Bool) (significand : Nat) (exponent : Int) :
    pack negative significand exponent ≠ .nan := by
  intro same
  rw [pack] at same
  split at same
  · cases same
  · cases same

/-- Zero is a number. -/
theorem zero_ne_nan (negative : Bool) : zero negative ≠ .nan := by
  intro same
  cases same

/-- A rounded quotient is a number. -/
theorem ofFraction_ne_nan (negative : Bool) (numerator denominator : Nat) :
    ofFraction negative numerator denominator ≠ .nan := by
  rw [ofFraction]
  split
  · exact zero_ne_nan negative
  · simp only
    split
    · exact pack_ne_nan _ _ _
    · exact pack_ne_nan _ _ _

/-- A rounded decimal is a number. -/
theorem ofDecimal_ne_nan (negative : Bool) (coefficient : Nat) (scale : Int) :
    ofDecimal negative coefficient scale ≠ .nan := by
  rw [ofDecimal]
  split_ifs
  · exact zero_ne_nan negative
  · intro same
    cases same
  · exact zero_ne_nan negative
  · exact ofFraction_ne_nan _ _ _

end Binary64

/-- Only the word for it is read as not-a-number. -/
theorem float?_eq_nan_iff {text : List Char} : float? text = some .nan ↔ SpellsNaN text := by
  rw [float?, SpellsNaN]
  obtain ⟨negative, body⟩ := splitSign text
  simp only
  generalize Text.lowerChars body = letters
  constructor
  · intro read
    split at read
    · cases read
    · split at read
      · rename_i word
        exact String.ofList_inj.mp word
      · obtain ⟨spelling, _, none⟩ := Option.map_eq_some_iff.mp read
        exact absurd none (Binary64.ofDecimal_ne_nan _ _ _)
  · rintro rfl
    rfl

/-- Whether a text spells infinity, with any sign and in any case. -/
def SpellsInfinity (text : List Char) : Prop :=
  Text.lowerChars (splitSign text).2 = "inf".toList ∨
    Text.lowerChars (splitSign text).2 = "infinity".toList

/-- Whether a text spells a decimal that is rounded to infinity. -/
def SpellsOverflow (text : List Char) : Prop :=
  ∃ spelling, DecimalSpelling.ofText? text = some spelling ∧
    (overflow : ℚ) ≤ spelling.exactValue

/-- Only words for infinity and for not-a-number and decimals that are too large are read as
no finite number. -/
theorem exists_float?_not_finite_iff {text : List Char} :
    (∃ value, float? text = some value ∧ value.isFinite = false) ↔
      SpellsNaN text ∨ SpellsInfinity text ∨ SpellsOverflow text := by
  have letters : "nan".toList = ['n', 'a', 'n'] := rfl
  rw [float?, SpellsNaN, SpellsInfinity, SpellsOverflow]
  simp only [letters, Bool.or_eq_true, decide_eq_true_eq, ← String.toList_inj, String.toList_ofList]
  split_ifs with infinity number
  · exact iff_of_true ⟨_, rfl, rfl⟩ (.inr (.inl infinity))
  · exact iff_of_true ⟨_, rfl, rfl⟩ (.inl number)
  · rw [or_iff_right number, or_iff_right infinity]
    constructor
    · rintro ⟨value, read, large⟩
      obtain ⟨spelling, own, rfl⟩ := Option.map_eq_some_iff.mp read
      exact ⟨spelling, own, (DecimalSpelling.isFinite_toBinary64_eq_false_iff
        (DecimalSpelling.isDecimal_of_ofText? own)).mp large⟩
    · rintro ⟨spelling, own, large⟩
      exact ⟨_, congrArg (Option.map _) own, (DecimalSpelling.isFinite_toBinary64_eq_false_iff
        (DecimalSpelling.isDecimal_of_ofText? own)).mpr large⟩

end EventSieve.Number
