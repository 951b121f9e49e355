import EventSieve.Number.Reading
import EventSieve.Proofs.Number.Rounding
import EventSieve.Proofs.Text.Numeral

/-!
# Reading decimals keeps the order

A decimal is read as the nearest floating-point value. Decimals far beyond either end
of the range are settled by their number of digits, and of very long decimals only the
first digits are looked at, with a one in place of the rest. Neither changes the order:
a decimal that is not above another one is not read as a greater value.

Between two neighbouring decimals of so many digits no decimal of as many or fewer
digits lies, so a one in place of further digits is on the same side of all of them.
-/

namespace EventSieve.Number

/-- A power with an integer exponent is a quotient of two with natural ones. -/
theorem zpow_mul_pow {base : ℚ} (present : base ≠ 0) (exponent : Int) :
    base ^ exponent * base ^ (-exponent).toNat = base ^ exponent.toNat := by
  rw [← zpow_natCast, ← zpow_natCast, ← zpow_add₀ present]
  congr 1
  omega

namespace Binary64

/-- A quotient below half a unit is rounded to none. -/
theorem roundedUnits_eq_zero {numerator denominator : Nat} (present : 0 < numerator)
    (positive : 0 < denominator) (tiny : 2 * (numerator * 2 ^ 1074) < denominator) :
    roundedUnits numerator denominator = 0 := by
  obtain ⟨_, kept⟩ := droppedPlaces_spec present positive
  rw [roundedUnits]
  generalize droppedPlaces numerator denominator = dropped at *
  generalize numerator * 2 ^ 1074 = units at *
  rcases kept with rfl | begins
  · have none : divideToEven units (denominator * 2 ^ 0) ≤ 0 := by
      apply (divideToEven_le_iff (by omega)).mpr
      left
      omega
    rw [Nat.le_zero.mp none, Nat.zero_mul]
  · have least := Nat.le_mul_of_pos_right denominator (Nat.two_pow_pos (dropped + 52))
    omega

/-- A whole number of up to 53 binary places, with any number of zeros behind them, is not
changed; neither is the power of two behind these places.

Proof: the places that rounding drops are chosen so that 53 are left. A number of so many
places with zeros behind them has only zeros in the places that are dropped, and the power
of two behind these places, which has one place more, ends in a zero as well. So the
division has no remainder, and nothing is rounded. -/
theorem roundedUnits_whole {significand : Nat} (present : 0 < significand)
    (small : significand ≤ 2 ^ 53) (zeros : Nat) :
    roundedUnits (significand * 2 ^ zeros) 1 = significand * 2 ^ zeros * 2 ^ 1074 := by
  obtain ⟨_, kept⟩ := droppedPlaces_spec (Nat.mul_pos present (Nat.two_pow_pos zeros)) Nat.one_pos
  rw [roundedUnits]
  generalize droppedPlaces (significand * 2 ^ zeros) 1 = dropped at *
  rw [Nat.mul_assoc, ← pow_add] at kept ⊢
  have steps : ∃ count, significand * 2 ^ (zeros + 1074) = count * 2 ^ dropped := by
    by_cases within : dropped ≤ zeros + 1074
    · obtain ⟨more, total⟩ := Nat.exists_eq_add_of_le' within
      exact ⟨significand * 2 ^ more, by rw [total, pow_add, Nat.mul_assoc]⟩
    · rcases kept with none | begins
      · omega
      · rw [Nat.one_mul] at begins
        have bound : 2 ^ (dropped + 52) ≤ 2 ^ (53 + (zeros + 1074)) := by
          rw [pow_add 2 53]
          exact Nat.le_trans begins (Nat.mul_le_mul_right _ small)
        have places := (Nat.pow_le_pow_iff_right (by decide)).mp bound
        have last : dropped = 1 + (zeros + 1074) := by omega
        refine ⟨2 ^ 52, ?_⟩
        rw [last, Nat.add_right_comm, pow_add _ _ (zeros + 1074)] at begins
        have least := Nat.le_of_mul_le_mul_right begins (pow_pos (by decide) _)
        rw [last, pow_add 2 1, ← Nat.mul_assoc]
        congr 1
        omega
  obtain ⟨count, same⟩ := steps
  rw [same, Nat.one_mul, divideToEven_mul (pow_pos (by decide) _)]

/-- The units to which a decimal is rounded. -/
def decimalUnits (coefficient : Nat) (scale : Int) : Nat :=
  if coefficient = 0 then 0
  else roundedUnits (coefficient * 10 ^ scale.toNat) (10 ^ (-scale).toNat)

/-- A whole number of up to 53 binary places, with any zeros behind them, has its own units. -/
theorem decimalUnits_whole {significand : Nat} (small : significand ≤ 2 ^ 53) (zeros : Nat) :
    decimalUnits (significand * 2 ^ zeros) 0 = significand * 2 ^ zeros * 2 ^ 1074 := by
  rw [decimalUnits]
  split
  · rename_i none
    rw [none, Nat.zero_mul]
  · rename_i present
    rw [Int.neg_zero, Int.toNat_zero, pow_zero, Nat.mul_one]
    exact roundedUnits_whole (Nat.pos_of_mul_pos_right (Nat.pos_of_ne_zero present)) small zeros

/-- A decimal at the upper threshold has too many units for a finite value.

Proof: ten binary places are worth at least three decimal ones, since 1000 is below 1024. So
the decimal is at least the power of ten at the threshold, which is above the powers of two
that finite values reach, and rounding keeps that order. -/
theorem unitsBound_le_of_large {coefficient : Nat} {scale : Int} (present : 0 < coefficient)
    (large : 310 < scale + (3 * (coefficient.log2 / 10) : Nat)) :
    unitsBound ≤ roundedUnits (coefficient * 10 ^ scale.toNat) (10 ^ (-scale).toNat) := by
  have power : 10 ^ (3 * (coefficient.log2 / 10)) ≤ coefficient := by
    calc 10 ^ (3 * (coefficient.log2 / 10))
        = 1000 ^ (coefficient.log2 / 10) := by rw [pow_mul]; norm_num
      _ ≤ 1024 ^ (coefficient.log2 / 10) := Nat.pow_le_pow_left (by decide) _
      _ = 2 ^ (10 * (coefficient.log2 / 10)) := by rw [pow_mul]; norm_num
      _ ≤ 2 ^ coefficient.log2 := pow_le_pow_right₀ (by decide) (Nat.mul_div_le _ _)
      _ ≤ coefficient := Nat.log2_self_le (Nat.pos_iff_ne_zero.mp present)
  have reach : 10 ^ ((-scale).toNat + 311) ≤ coefficient * 10 ^ scale.toNat := by
    calc 10 ^ ((-scale).toNat + 311)
        ≤ 10 ^ (3 * (coefficient.log2 / 10) + scale.toNat) :=
          pow_le_pow_right₀ (by decide) (by omega)
      _ = 10 ^ (3 * (coefficient.log2 / 10)) * 10 ^ scale.toNat := pow_add _ _ _
      _ ≤ coefficient * 10 ^ scale.toNat := Nat.mul_le_mul_right _ power
  have range : 2 ^ 1024 ≤ 10 ^ 311 := by decide +kernel
  rw [unitsBound]
  apply le_roundedUnits (Nat.mul_pos present (pow_pos (by decide) _)) (pow_pos (by decide) _)
  have total : 2 ^ 2098 = 2 ^ 1024 * 2 ^ 1074 := by rw [← pow_add]
  rw [total, ← Nat.mul_assoc]
  apply Nat.mul_le_mul_right
  rw [pow_add] at reach
  exact Nat.le_trans (Nat.mul_le_mul_left _ range) reach

/-- A decimal at the lower threshold is below half a unit. -/
theorem roundedUnits_of_small {coefficient : Nat} {scale : Int} (present : 0 < coefficient)
    (small : scale + (coefficient.log2 / 3 + 1 : Nat) < -330) :
    roundedUnits (coefficient * 10 ^ scale.toNat) (10 ^ (-scale).toNat) = 0 := by
  have power : coefficient < 10 ^ (coefficient.log2 / 3 + 1) := by
    calc coefficient < 2 ^ (coefficient.log2 + 1) := Nat.lt_log2_self
      _ ≤ 2 ^ (3 * (coefficient.log2 / 3 + 1)) := pow_le_pow_right₀ (by decide) (by omega)
      _ = 8 ^ (coefficient.log2 / 3 + 1) := by rw [pow_mul]; norm_num
      _ ≤ 10 ^ (coefficient.log2 / 3 + 1) := Nat.pow_le_pow_left (by decide) _
  have range : 2 * 2 ^ 1074 ≤ 10 ^ 331 := by decide +kernel
  have unit : 0 < 2 * 2 ^ 1074 := by positivity
  have whole : scale.toNat = 0 := by omega
  apply roundedUnits_eq_zero (Nat.mul_pos present (pow_pos (by decide) _)) (pow_pos (by decide) _)
  rw [whole, pow_zero, Nat.mul_one, Nat.mul_left_comm]
  generalize 2 * 2 ^ 1074 = half at *
  calc coefficient * half
      < 10 ^ (coefficient.log2 / 3 + 1) * half := Nat.mul_lt_mul_of_pos_right power unit
    _ ≤ 10 ^ (coefficient.log2 / 3 + 1) * 10 ^ 331 := Nat.mul_le_mul_left _ range
    _ = 10 ^ (coefficient.log2 / 3 + 1 + 331) := (pow_add _ _ _).symm
    _ ≤ 10 ^ (-scale).toNat := pow_le_pow_right₀ (by decide) (by omega)

/-- The value nearest to a decimal has the units to which the decimal is rounded; the
thresholds settle nothing else. -/
theorem hasUnits_ofDecimal (negative : Bool) (coefficient : Nat) (scale : Int) :
    (ofDecimal negative coefficient scale).HasUnits negative (decimalUnits coefficient scale) := by
  rw [ofDecimal, decimalUnits]
  split_ifs with none large small
  · exact hasUnits_zero negative
  · right
    exact ⟨unitsBound_le_of_large (Nat.pos_of_ne_zero none) large, rfl⟩
  · rw [roundedUnits_of_small (Nat.pos_of_ne_zero none) small]
    exact hasUnits_zero negative
  · exact hasUnits_ofFraction negative
      (Nat.mul_pos (Nat.pos_of_ne_zero none) (pow_pos (by decide) _)) (pow_pos (by decide) _)

/-- A decimal that is not above another one is not rounded to more units. Both are fractions
of natural numbers, with a power of ten above or below the line, so their order is that of
the products across, and rounding of fractions is monotone. -/
theorem decimalUnits_mono {coefficient otherCoefficient : Nat} {scale otherScale : Int}
    (le : (coefficient : ℚ) * 10 ^ scale ≤ otherCoefficient * 10 ^ otherScale) :
    decimalUnits coefficient scale ≤ decimalUnits otherCoefficient otherScale := by
  have quotient := @zpow_mul_pow 10 (by norm_num)
  have cross : coefficient * 10 ^ scale.toNat * 10 ^ (-otherScale).toNat ≤
      otherCoefficient * 10 ^ otherScale.toNat * 10 ^ (-scale).toNat := by
    have scaled := mul_le_mul_of_nonneg_right le
      (by positivity : (0 : ℚ) ≤ 10 ^ (-scale).toNat * 10 ^ (-otherScale).toNat)
    have left : (coefficient : ℚ) * 10 ^ scale * (10 ^ (-scale).toNat * 10 ^ (-otherScale).toNat) =
        coefficient * 10 ^ scale.toNat * 10 ^ (-otherScale).toNat := by
      rw [← quotient scale]
      ring
    have right : (otherCoefficient : ℚ) * 10 ^ otherScale *
        (10 ^ (-scale).toNat * 10 ^ (-otherScale).toNat) =
          otherCoefficient * 10 ^ otherScale.toNat * 10 ^ (-scale).toNat := by
      rw [← quotient otherScale]
      ring
    rw [left, right] at scaled
    exact_mod_cast scaled
  rcases Nat.eq_zero_or_pos coefficient with rfl | present
  · exact Nat.zero_le _
  · have otherPresent : 0 < otherCoefficient := by
      by_contra absent
      rw [Nat.eq_zero_of_not_pos absent, Nat.zero_mul, Nat.zero_mul] at cross
      have positive := Nat.mul_pos (Nat.mul_pos present (pow_pos (by decide : 0 < 10) scale.toNat))
        (pow_pos (by decide : 0 < 10) (-otherScale).toNat)
      omega
    rw [decimalUnits, decimalUnits, if_neg (Nat.pos_iff_ne_zero.mp present),
      if_neg (Nat.pos_iff_ne_zero.mp otherPresent)]
    exact roundedUnits_mono (Nat.mul_pos present (pow_pos (by decide) _)) (pow_pos (by decide) _)
      (pow_pos (by decide) _) cross

end Binary64

/-- Between neighbouring decimals with more than a width of digits lies no decimal with at
most one digit more than the width.

Proof: bring both to the smaller of the two powers of ten. When that is the one of the
neighbours, both are whole there, and being above one neighbour means reaching the next.
When it is the finer one, the decimal would need more digits than it has, unless the powers
are the same. -/
theorem le_of_neighbour {width front coefficient : Nat} {place scale : Int}
    (wide : 10 ^ width ≤ front) (narrow : coefficient ≤ 10 ^ (width + 1))
    (above : (front : ℚ) * 10 ^ place < coefficient * 10 ^ scale) :
    ((front : ℚ) + 1) * 10 ^ place ≤ coefficient * 10 ^ scale := by
  rcases Int.le_total place scale with coarse | fine
  · obtain ⟨more, rfl⟩ := Int.le.dest coarse
    have positive : (0 : ℚ) < 10 ^ place := by positivity
    have power : (10 : ℚ) ^ (place + more) = 10 ^ more * 10 ^ place := by
      rw [add_comm, zpow_add₀ (by norm_num), zpow_natCast]
    rw [power, ← mul_assoc] at above ⊢
    have less := lt_of_mul_lt_mul_right above positive.le
    have next : front + 1 ≤ coefficient * 10 ^ more := by
      have whole : front < coefficient * 10 ^ more := by exact_mod_cast less
      exact whole
    apply mul_le_mul_of_nonneg_right _ positive.le
    exact_mod_cast next
  · obtain ⟨more, rfl⟩ := Int.le.dest fine
    have positive : (0 : ℚ) < 10 ^ scale := by positivity
    have power : (10 : ℚ) ^ (scale + more) = 10 ^ more * 10 ^ scale := by
      rw [add_comm, zpow_add₀ (by norm_num), zpow_natCast]
    rw [power, ← mul_assoc] at above ⊢
    have less := lt_of_mul_lt_mul_right above positive.le
    have whole : front * 10 ^ more < coefficient := by exact_mod_cast less
    cases more with
    | zero =>
      apply mul_le_mul_of_nonneg_right _ positive.le
      rw [pow_zero, Nat.mul_one] at whole
      rw [pow_zero, mul_one]
      exact_mod_cast whole
    | succ more =>
      exfalso
      have reach : 10 ^ (width + 1) ≤ front * 10 ^ (more + 1) :=
        calc 10 ^ (width + 1) = 10 ^ width * 10 := pow_succ _ _
          _ ≤ front * 10 ^ (more + 1) :=
            Nat.mul_le_mul wide (Nat.le_self_pow (Nat.succ_ne_zero more) 10)
      omega

/-- Two fronts of one width with a one behind each are in the order of the numbers that they
are the fronts of. Fronts of one width with powers of ten at different places are far apart,
so only fronts at the same place, and equal or neighbouring ones, have to be compared
closely; there the digit behind does not change the order. -/
theorem fronts_le {width front otherFront : Nat} {place otherPlace : Int}
    (wide : 10 ^ width ≤ front) (short : front < 10 ^ (width + 1))
    (otherWide : 10 ^ width ≤ otherFront) (otherShort : otherFront < 10 ^ (width + 1))
    (less : (front : ℚ) * 10 ^ (place + 1) < (otherFront + 1) * 10 ^ (otherPlace + 1)) :
    (10 * front + 1 : ℚ) * 10 ^ place ≤ (10 * otherFront + 1) * 10 ^ otherPlace := by
  have step (exponent : Int) : (10 : ℚ) ^ (exponent + 1) = 10 * 10 ^ exponent := by
    rw [add_comm, zpow_add₀ (by norm_num), zpow_one]
  have positive (exponent : Int) : (0 : ℚ) < 10 ^ exponent := by positivity
  rw [pow_succ] at short otherShort
  rcases lt_trichotomy place otherPlace with lower | rfl | higher
  · have digits : (10 * front + 1 : ℚ) ≤ 10 * (10 * otherFront) := by
      have whole : 10 * front + 1 ≤ 10 * (10 * otherFront) := by omega
      exact_mod_cast whole
    calc (10 * front + 1 : ℚ) * 10 ^ place
        ≤ 10 * (10 * otherFront) * 10 ^ place :=
          mul_le_mul_of_nonneg_right digits (positive place).le
      _ = 10 * otherFront * 10 ^ (place + 1) := by rw [step]; ring
      _ ≤ 10 * otherFront * 10 ^ otherPlace :=
          mul_le_mul_of_nonneg_left (zpow_le_zpow_right₀ (by norm_num) (by omega)) (by positivity)
      _ ≤ (10 * otherFront + 1) * 10 ^ otherPlace :=
          mul_le_mul_of_nonneg_right (by linarith) (positive otherPlace).le
  · have fronts : (front : ℚ) < otherFront + 1 :=
      lt_of_mul_lt_mul_right less (positive (place + 1)).le
    have whole : front ≤ otherFront := Nat.le_of_lt_succ (by exact_mod_cast fronts)
    apply mul_le_mul_of_nonneg_right _ (positive place).le
    exact_mod_cast Nat.add_le_add_right (Nat.mul_le_mul_left 10 whole) 1
  · -- The number with the higher place would be the greater one.
    exfalso
    have digits : (otherFront + 1 : ℚ) ≤ 10 * front := by
      have whole : otherFront + 1 ≤ 10 * front := by omega
      exact_mod_cast whole
    have beyond : (otherFront + 1 : ℚ) * 10 ^ (otherPlace + 1) ≤ front * 10 ^ (place + 1) :=
      calc (otherFront + 1 : ℚ) * 10 ^ (otherPlace + 1)
          ≤ 10 * front * 10 ^ (otherPlace + 1) :=
            mul_le_mul_of_nonneg_right digits (positive _).le
        _ ≤ 10 * front * 10 ^ place :=
            mul_le_mul_of_nonneg_left (zpow_le_zpow_right₀ (by norm_num) (by omega)) (by positivity)
        _ = front * 10 ^ (place + 1) := by rw [step]; ring
    exact absurd less (not_lt_of_ge beyond)

namespace DecimalSpelling

/-- Whether a spelling has digits only, besides its sign, point and exponent. -/
def IsDecimal (spelling : DecimalSpelling) : Prop :=
  ∀ digit ∈ spelling.whole ++ spelling.fraction, digit.isDigit = true

/-- The size of the number that a spelling denotes. -/
def exactValue (spelling : DecimalSpelling) : ℚ :=
  Text.numeralValue (spelling.whole ++ spelling.fraction) *
    10 ^ (spelling.exponent - spelling.fraction.length)

/-- The size of the number that is read in its place, with a one instead of the digits
behind the limit. -/
def decidingValue (spelling : DecimalSpelling) : ℚ :=
  spelling.coefficient * 10 ^ spelling.scale

/-- The digits of a spelling do not start with a zero. -/
theorem digits_ne_zero_cons (spelling : DecimalSpelling) (digit : Char) (rest : List Char)
    (starts : spelling.digits = digit :: rest) : digit ≠ '0' := by
  have first := List.head?_dropWhile_not (fun character => decide (character = '0'))
    (spelling.whole ++ spelling.fraction)
  rw [digits] at starts
  rw [starts] at first
  simpa using first

/-- A power of ten is split at a number of places. -/
theorem zpow_places (place : Int) (count : Nat) :
    (10 : ℚ) ^ (place + count) = 10 ^ count * 10 ^ place := by
  rw [add_comm, zpow_add₀ (by norm_num), zpow_natCast]

/-- Digits that are not all zeros put a number between the digits in front of them and
the next number of that length. -/
theorem between_fronts {front rest : List Char} (restDigits : ∀ digit ∈ rest, digit.isDigit = true)
    (present : 0 < Text.numeralValue rest) (place : Int) :
    (Text.numeralValue front : ℚ) * 10 ^ (place + rest.length) <
        Text.numeralValue (front ++ rest) * 10 ^ place ∧
      Text.numeralValue (front ++ rest) * 10 ^ place <
        ((Text.numeralValue front : ℚ) + 1) * 10 ^ (place + rest.length) := by
  have positive : (0 : ℚ) < 10 ^ place := by positivity
  have below := Text.numeralValue_lt restDigits
  rw [zpow_places, Text.numeralValue_append, ← mul_assoc, ← mul_assoc]
  constructor
  · apply mul_lt_mul_of_pos_right _ positive
    exact_mod_cast Nat.lt_add_of_pos_right present
  · apply mul_lt_mul_of_pos_right _ positive
    have next : Text.numeralValue front * 10 ^ rest.length + Text.numeralValue rest <
        (Text.numeralValue front + 1) * 10 ^ rest.length := by
      rw [Nat.succ_mul]
      omega
    exact_mod_cast next

/-- A row of digits without a zero in front is at least the power of ten of its length. -/
theorem pow_le_of_length {digits : List Char} {width : Nat} (length : digits.length = width + 1)
    (all : ∀ digit ∈ digits, digit.isDigit = true) (leads : ∀ digit more, digits = digit :: more →
      digit ≠ '0') : 10 ^ width ≤ Text.numeralValue digits := by
  cases digits with
  | nil => cases length
  | cons digit more =>
    rw [← Nat.succ.inj length]
    exact Text.pow_le_numeralValue (all digit List.mem_cons_self) (leads digit more rfl)

/-- A spelling is read exactly, or its digits behind the limit are not all zeros. Then it
lies between its first digits and the next number of that length, and so does what is read.

Proof: the digits are split at the limit. When those behind it are all zeros, leaving them
out changes the scale and not the number. Otherwise the front has all the width there is and
no zero at its start, the number lies strictly between it and the next, and the one that is
read behind the front stands for whatever the digits behind it are. -/
theorem decidingValue_cases {spelling : DecimalSpelling} (digits : spelling.IsDecimal) :
    (∃ (coefficient : Nat) (scale : Int), coefficient ≤ 10 ^ digitLimit ∧
      spelling.exactValue = coefficient * 10 ^ scale ∧
        spelling.decidingValue = coefficient * 10 ^ scale) ∨
    ∃ (front : Nat) (place : Int), 10 ^ (digitLimit - 1) ≤ front ∧ front < 10 ^ digitLimit ∧
      (front : ℚ) * 10 ^ (place + 1) < spelling.exactValue ∧
        spelling.exactValue < (front + 1) * 10 ^ (place + 1) ∧
          spelling.decidingValue = (10 * front + 1) * 10 ^ place := by
  have known : Text.numeralValue (spelling.whole ++ spelling.fraction) =
      Text.numeralValue spelling.digits :=
    (Text.numeralValue_dropWhile_zero _).symm
  have allDigits : ∀ digit ∈ spelling.digits, digit.isDigit = true := by
    intro digit member
    exact digits digit ((List.dropWhile_sublist _).subset member)
  have leads := spelling.digits_ne_zero_cons
  have parts : spelling.digits.take digitLimit ++ spelling.digits.drop digitLimit =
      spelling.digits := List.take_append_drop _ _
  have frontDigits : ∀ digit ∈ spelling.digits.take digitLimit, digit.isDigit = true := by
    intro digit member
    exact allDigits digit (List.mem_of_mem_take member)
  have restDigits : ∀ digit ∈ spelling.digits.drop digitLimit, digit.isDigit = true := by
    intro digit member
    exact allDigits digit (List.mem_of_mem_drop member)
  have short : (spelling.digits.take digitLimit).length ≤ digitLimit := List.length_take_le _ _
  have full : spelling.digits.drop digitLimit ≠ [] →
      (spelling.digits.take digitLimit).length = digitLimit := by
    intro more
    have longer := List.length_pos_iff.mpr more
    rw [List.length_drop] at longer
    rw [List.length_take]
    omega
  rw [exactValue, decidingValue, coefficient, scale, decidingDigits, known]
  generalize spelling.digits.take digitLimit = front at *
  generalize spelling.digits.drop digitLimit = rest at *
  rw [← parts] at leads ⊢
  have below : Text.numeralValue front < 10 ^ digitLimit :=
    Nat.lt_of_lt_of_le (Text.numeralValue_lt frontDigits) (pow_le_pow_right₀ (by decide) short)
  split_ifs with zeros
  · left
    have none : Text.numeralValue rest = 0 := (Text.numeralValue_eq_zero_iff restDigits).mpr zeros
    have same : spelling.exponent + ((front ++ rest).length - front.length : Nat) -
        spelling.fraction.length = spelling.exponent - spelling.fraction.length + rest.length := by
      rw [List.length_append]
      omega
    refine ⟨Text.numeralValue front, _, Nat.le_of_lt below, ?_, rfl⟩
    rw [Text.numeralValue_append, none, same, zpow_places, Nat.add_zero]
    push_cast
    ring
  · right
    have present : 0 < Text.numeralValue rest :=
      Nat.pos_of_ne_zero (mt (Text.numeralValue_eq_zero_iff restDigits).mp zeros)
    have nonempty : rest ≠ [] := by
      rintro rfl
      exact zeros rfl
    have longer := List.length_pos_iff.mpr nonempty
    have same : spelling.exponent + ((front ++ rest).length - (front ++ ['1']).length : Nat) -
        spelling.fraction.length + 1 =
          spelling.exponent - spelling.fraction.length + rest.length := by
      rw [List.length_append, List.length_append, List.length_singleton]
      omega
    have width : front.length = digitLimit - 1 + 1 := full nonempty
    have ownLead : ∀ digit more, front = digit :: more → digit ≠ '0' := by
      rintro digit more rfl
      exact leads digit (more ++ rest) rfl
    obtain ⟨after, before⟩ := between_fronts restDigits present
      (spelling.exponent - spelling.fraction.length)
    refine ⟨Text.numeralValue front,
      spelling.exponent + ((front ++ rest).length - (front ++ ['1']).length : Nat) -
        spelling.fraction.length, pow_le_of_length width frontDigits ownLead, below, ?_, ?_, ?_⟩
    · rw [same]
      exact after
    · rw [same]
      exact before
    · have one : Text.numeralValue ['1'] = 1 := rfl
      rw [Text.numeralValue_append, one, List.length_singleton, pow_one]
      push_cast
      ring

/-- What is read in place of two numbers is in their order.

Proof: by the two ways in which each of them is read. Exact ones are in order as they are.
One of few digits cannot lie between neighbouring fronts, so it is on the same side of what
is read as of the number itself. Of two long ones the fronts decide, and equal fronts are
read as the same. -/
theorem decidingValue_mono {spelling other : DecimalSpelling} (digits : spelling.IsDecimal)
    (otherDigits : other.IsDecimal) (le : spelling.exactValue ≤ other.exactValue) :
    spelling.decidingValue ≤ other.decidingValue := by
  have one : 10 ^ digitLimit = 10 ^ (digitLimit - 1 + 1) := congrArg (10 ^ ·) rfl
  have step (place : Int) : (10 : ℚ) ^ (place + 1) = 10 * 10 ^ place := by
    rw [add_comm, zpow_add₀ (by norm_num), zpow_one]
  rcases decidingValue_cases digits with
    ⟨coefficient, scale, narrow, exactly, read⟩ | ⟨front, place, wide, short, above, below, read⟩
  · rcases decidingValue_cases otherDigits with
      ⟨otherCoefficient, otherScale, _, otherExactly, otherRead⟩ |
      ⟨otherFront, otherPlace, otherWide, _, _, otherBelow, otherRead⟩
    · rw [read, otherRead, ← exactly, ← otherExactly]
      exact le
    · -- A number of few digits that is below the next front is not above the front.
      rw [read, otherRead]
      rw [exactly] at le
      have upTo : (coefficient : ℚ) * 10 ^ scale ≤ otherFront * 10 ^ (otherPlace + 1) := by
        by_contra beyond
        have next := le_of_neighbour otherWide (one ▸ narrow) (lt_of_not_ge beyond)
        exact absurd (lt_of_le_of_lt le otherBelow) (not_lt_of_ge next)
      rw [step] at upTo
      have positive : (0 : ℚ) < 10 ^ otherPlace := by positivity
      linarith
  · rcases decidingValue_cases otherDigits with
      ⟨otherCoefficient, otherScale, otherNarrow, otherExactly, otherRead⟩ |
      ⟨otherFront, otherPlace, otherWide, otherShort, _, otherBelow, otherRead⟩
    · rw [read, otherRead]
      rw [otherExactly] at le
      have next := le_of_neighbour wide (one ▸ otherNarrow) (lt_of_lt_of_le above le)
      rw [step] at next
      have positive : (0 : ℚ) < 10 ^ place := by positivity
      linarith
    · rw [read, otherRead]
      exact fronts_le wide (one ▸ short) otherWide (one ▸ otherShort)
        (lt_of_lt_of_le above (le_trans le otherBelow.le))

/-- The units to which the number of a spelling is rounded. -/
def units (spelling : DecimalSpelling) : Nat :=
  Binary64.decimalUnits spelling.coefficient spelling.scale

/-- A spelling is read as the value with its units. -/
theorem hasUnits_toBinary64 (spelling : DecimalSpelling) :
    spelling.toBinary64.HasUnits spelling.negative spelling.units :=
  Binary64.hasUnits_ofDecimal spelling.negative spelling.coefficient spelling.scale

/-- A number that is not above another one has no more units. -/
theorem units_mono {spelling other : DecimalSpelling} (digits : spelling.IsDecimal)
    (otherDigits : other.IsDecimal) (le : spelling.exactValue ≤ other.exactValue) :
    spelling.units ≤ other.units :=
  Binary64.decimalUnits_mono (decidingValue_mono digits otherDigits le)

/-- A natural number written without a point. -/
def ofNat (value : Nat) : DecimalSpelling :=
  ⟨false, Text.decimalChars value, [], 0⟩

/-- A natural number is written with digits only. -/
theorem isDecimal_ofNat (value : Nat) : (ofNat value).IsDecimal := by
  intro digit member
  rw [ofNat, List.append_nil] at member
  exact Text.isDigit_of_mem_decimalChars member

/-- A natural number is what its numeral denotes. -/
theorem exactValue_ofNat (value : Nat) : (ofNat value).exactValue = value := by
  simp [exactValue, ofNat, Text.numeralValue_decimalChars]

/-- A natural number with no more digits than are looked at is its own coefficient, and
no power of ten goes with it. -/
theorem coefficient_ofNat {value : Nat} (short : value < 10 ^ digitLimit) :
    (ofNat value).coefficient = value ∧ (ofNat value).scale = 0 := by
  have length : (ofNat value).digits.length ≤ digitLimit := by
    have numeral : (Text.decimalChars value).length ≤ digitLimit :=
      (Nat.length_toDigits_le_iff (by decide) (by decide)).mpr short
    rw [digits, ofNat, List.append_nil]
    exact Nat.le_trans (List.dropWhile_sublist _).length_le numeral
  have deciding : (ofNat value).decidingDigits = (ofNat value).digits := by
    rw [decidingDigits, List.take_of_length_le length, List.drop_of_length_le length]
    rfl
  constructor
  · rw [coefficient, deciding, digits, Text.numeralValue_dropWhile_zero, ofNat, List.append_nil,
      Text.numeralValue_decimalChars]
  · rw [scale, deciding, Nat.sub_self]
    rfl

/-- A natural number with no more digits than are looked at is read as it is. -/
theorem units_ofNat {value : Nat} (short : value < 10 ^ digitLimit) :
    (ofNat value).units = Binary64.decimalUnits value 0 := by
  obtain ⟨coefficient, scale⟩ := coefficient_ofNat short
  rw [units, coefficient, scale]

/-- A natural number of up to 53 binary places is read exactly. -/
theorem units_ofNat_whole {value : Nat} (small : value ≤ 2 ^ 53) :
    (ofNat value).units = value * 2 ^ 1074 := by
  have short : value < 10 ^ digitLimit :=
    Nat.lt_of_le_of_lt small (Nat.lt_of_lt_of_le (by decide : 2 ^ 53 < 10 ^ 20)
      (pow_le_pow_right₀ (by decide) (by decide)))
  have whole := Binary64.decimalUnits_whole small 0
  rw [pow_zero, Nat.mul_one] at whole
  rw [units_ofNat short, whole]

section

variable {spelling : DecimalSpelling} {value : Nat}

/-- A number that reaches a whole one of up to 53 binary places has the units of that. -/
theorem le_units (digits : spelling.IsDecimal) (small : value ≤ 2 ^ 53)
    (le : value ≤ spelling.exactValue) : value * 2 ^ 1074 ≤ spelling.units := by
  rw [← units_ofNat_whole small]
  exact units_mono (isDecimal_ofNat value) digits ((exactValue_ofNat value).trans_le le)

/-- A number that is not above a whole one of up to 53 binary places has no more units
than that. -/
theorem units_le (digits : spelling.IsDecimal) (small : value ≤ 2 ^ 53)
    (le : spelling.exactValue ≤ value) : spelling.units ≤ value * 2 ^ 1074 := by
  rw [← units_ofNat_whole small]
  exact units_mono digits (isDecimal_ofNat value) (le.trans_eq (exactValue_ofNat value).symm)

/-- A number beyond the integers of 64 bits is not rounded back to them. -/
theorem int64Bound_le_units (digits : spelling.IsDecimal)
    (large : int64Bound ≤ spelling.exactValue) : int64Bound * 2 ^ 1074 ≤ spelling.units := by
  have short : int64Bound < 10 ^ digitLimit :=
    Nat.lt_of_lt_of_le (by decide : int64Bound < 10 ^ 20)
      (pow_le_pow_right₀ (by decide) (by decide))
  have power : int64Bound = 2 ^ 63 := by decide
  have own : int64Bound * 2 ^ 1074 ≤ (ofNat int64Bound).units := by
    rw [units_ofNat short, Binary64.decimalUnits, if_neg (by decide), Int.neg_zero, Int.toNat_zero,
      pow_zero, Nat.mul_one, power, ← pow_add]
    apply Binary64.le_roundedUnits (by decide) Nat.one_pos
    rw [Nat.one_mul, pow_add]
  exact Nat.le_trans own
    (units_mono (isDecimal_ofNat int64Bound) digits ((exactValue_ofNat int64Bound).trans_le large))

end

end DecimalSpelling

end EventSieve.Number
