import EventSieve.Number.Binary64
import Mathlib

/-!
# Rounding keeps the order

Finite floating-point values are multiples of the least positive one, so a magnitude
is a natural number of such units, and magnitudes compare as these numbers do. A
quotient is rounded to a whole number of steps, where a step is a power of two of
units that depends on the size of the quotient alone.

Of two quotients the greater one is not rounded to less. With steps of one size this
is rounding to whole numbers; with steps of two sizes the power of two where the
greater quotient begins lies between the results.
-/

namespace EventSieve.Number

section

variable {numerator denominator otherNumerator otherDenominator : Nat}

/-- A quotient is rounded to no more than a number when it lies below the number and a
half, or there when the number is even. -/
theorem divideToEven_le_iff (positive : 0 < denominator) {bound : Nat} :
    divideToEven numerator denominator ≤ bound ↔
      2 * numerator < (2 * bound + 1) * denominator ∨
        2 * numerator = (2 * bound + 1) * denominator ∧ bound % 2 = 0 := by
  have parts := Nat.div_add_mod numerator denominator
  have small := Nat.mod_lt numerator positive
  have spread : (2 * bound + 1) * denominator = 2 * (denominator * bound) + denominator := by ring
  simp only [divideToEven]
  generalize numerator / denominator = below at *
  generalize numerator % denominator = remainder at *
  rw [spread]
  rcases Nat.lt_trichotomy below bound with less | rfl | more
  · have step := Nat.mul_le_mul_left denominator (Nat.succ_le_of_lt less)
    rw [Nat.mul_succ] at step
    split_ifs <;> omega
  · split_ifs <;> omega
  · have step := Nat.mul_le_mul_left denominator (Nat.succ_le_of_lt more)
    rw [Nat.mul_succ] at step
    split_ifs <;> omega

/-- The greater quotient is not rounded to less. Reaching a bound by rounding means to be
above the half before it, or at this half when the bound is even. Both conditions pass from
a quotient to a greater one. -/
theorem divideToEven_mono (positive : 0 < denominator) (otherPositive : 0 < otherDenominator)
    (le : numerator * otherDenominator ≤ otherNumerator * denominator) :
    divideToEven numerator denominator ≤ divideToEven otherNumerator otherDenominator := by
  have self := (divideToEven_le_iff otherPositive).mp
    (Nat.le_refl (divideToEven otherNumerator otherDenominator))
  generalize divideToEven otherNumerator otherDenominator = bound at self ⊢
  apply (divideToEven_le_iff positive).mpr
  have scaled : 2 * numerator * otherDenominator ≤ 2 * otherNumerator * denominator := by
    rw [Nat.mul_assoc, Nat.mul_assoc]
    exact Nat.mul_le_mul_left 2 le
  have exchange : (2 * bound + 1) * otherDenominator * denominator =
      (2 * bound + 1) * denominator * otherDenominator := Nat.mul_right_comm _ _ _
  rcases self with below | ⟨half, even⟩
  · left
    apply Nat.lt_of_mul_lt_mul_right (a := otherDenominator)
    have strict := Nat.mul_lt_mul_of_pos_right below positive
    omega
  · rw [half, exchange] at scaled
    have atMost := Nat.le_of_mul_le_mul_right scaled otherPositive
    rcases Nat.lt_or_eq_of_le atMost with less | same
    · exact .inl less
    · exact .inr ⟨same, even⟩

/-- A quotient that is not above a number is not rounded above it. -/
theorem divideToEven_le (positive : 0 < denominator) {bound : Nat}
    (le : numerator ≤ bound * denominator) : divideToEven numerator denominator ≤ bound := by
  apply (divideToEven_le_iff positive).mpr
  left
  have spread : (2 * bound + 1) * denominator = 2 * (bound * denominator) + denominator := by ring
  omega

/-- A quotient that is not below a number is not rounded below it. -/
theorem le_divideToEven (positive : 0 < denominator) {bound : Nat}
    (le : bound * denominator ≤ numerator) : bound ≤ divideToEven numerator denominator := by
  by_contra less
  have before : divideToEven numerator denominator ≤ bound - 1 := by omega
  have half := (divideToEven_le_iff positive).mp before
  have spread : (2 * (bound - 1) + 1) * denominator + denominator = 2 * (bound * denominator) := by
    obtain ⟨previous, rfl⟩ : ∃ previous, bound = previous + 1 := ⟨bound - 1, by omega⟩
    rw [Nat.add_sub_cancel]
    ring
  omega

/-- A quotient that is a whole number is not changed. -/
theorem divideToEven_mul (positive : 0 < denominator) (whole : Nat) :
    divideToEven (whole * denominator) denominator = whole :=
  Nat.le_antisymm (divideToEven_le positive (Nat.le_refl _))
    (le_divideToEven positive (Nat.le_refl _))

/-- Comparing a quotient with a power of two does not depend on how the power is split
between numerator and denominator. -/
theorem mul_pow_le_congr {up down otherUp otherDown : Nat}
    (same : (up : Int) - down = otherUp - otherDown) :
    denominator * 2 ^ up ≤ numerator * 2 ^ down ↔
      denominator * 2 ^ otherUp ≤ numerator * 2 ^ otherDown := by
  have total : up + otherDown = otherUp + down := by omega
  rw [← Nat.mul_le_mul_right_iff (Nat.two_pow_pos otherDown), Nat.mul_assoc, Nat.mul_assoc,
    ← Nat.pow_add, ← Nat.pow_add, total, Nat.add_comm down, Nat.pow_add, Nat.pow_add,
    ← Nat.mul_assoc, ← Nat.mul_assoc, Nat.mul_le_mul_right_iff (Nat.two_pow_pos down)]

end

namespace Binary64

section

variable {numerator denominator otherNumerator otherDenominator : Nat}

/-- The binary order of a quotient is the exponent of the greatest power of two that is not
above it. The logarithms of the two numbers leave only two candidates, and one comparison
tells which of them it is. The exponent is given as a difference, so that no quotient has to
be formed. -/
theorem binaryOrder_spec (present : 0 < numerator) (positive : 0 < denominator) {up down : Nat}
    (order : (up : Int) - down = binaryOrder numerator denominator) :
    denominator * 2 ^ up ≤ numerator * 2 ^ down ∧
      numerator * 2 ^ down < denominator * 2 ^ (up + 1) := by
  have least := Nat.log2_self_le (Nat.pos_iff_ne_zero.mp present)
  have most := @Nat.lt_log2_self numerator
  have otherLeast := Nat.log2_self_le (Nat.pos_iff_ne_zero.mp positive)
  have otherMost := @Nat.lt_log2_self denominator
  -- The guess is right or one too high, whatever the digits of both numbers are.
  have above : numerator * 2 ^ denominator.log2 < denominator * 2 ^ (numerator.log2 + 1) := by
    rw [Nat.mul_comm denominator]
    exact Nat.mul_lt_mul_of_lt_of_le most otherLeast positive
  have below : denominator * 2 ^ numerator.log2 ≤ numerator * 2 ^ (denominator.log2 + 1) := by
    rw [Nat.mul_comm numerator]
    exact Nat.mul_le_mul (Nat.le_of_lt otherMost) least
  simp only [binaryOrder] at order
  split at order
  · rename_i right
    constructor
    · exact (mul_pow_le_congr (by omega)).mp right
    · apply Nat.lt_of_not_le
      intro beyond
      exact Nat.not_le_of_lt above ((mul_pow_le_congr (by omega)).mp beyond)
  · rename_i high
    constructor
    · exact (mul_pow_le_congr (by omega)).mp below
    · apply Nat.lt_of_not_le
      intro beyond
      exact high ((mul_pow_le_congr (by omega)).mp beyond)

/-- The number of units in a magnitude; a unit is the least positive value. -/
def units (significand : Nat) (exponent : Int) : Nat :=
  significand * 2 ^ (exponent + 1074).toNat

/-- The number of units that is too large for a finite value. -/
def unitsBound : Nat := 2 ^ 2098

/-- Whether a value is not above another one. What is not a number is neither above
nor below anything. -/
def upTo : Binary64 → Binary64 → Bool
  | .nan, _ => false
  | _, .nan => false
  | .infinite true, _ => true
  | _, .infinite false => true
  | _, .infinite true => false
  | .infinite false, _ => false
  | .finite negative significand exponent _, .finite otherNegative otherSignificand otherExponent _ =>
    signed negative (units significand exponent) ≤
      signed otherNegative (units otherSignificand otherExponent)

/-- The number of binary places of a quotient in units that are rounded away. -/
def droppedPlaces (numerator denominator : Nat) : Nat :=
  (binaryOrder numerator denominator + 1022).toNat

/-- A quotient rounded to steps of its size, in units. -/
def roundedUnits (numerator denominator : Nat) : Nat :=
  divideToEven (numerator * 2 ^ 1074) (denominator * 2 ^ droppedPlaces numerator denominator) *
    2 ^ droppedPlaces numerator denominator

/-- Rounding keeps at most 53 binary places of a quotient, and exactly these unless
everything down to the units is kept. -/
theorem droppedPlaces_spec (present : 0 < numerator) (positive : 0 < denominator) :
    numerator * 2 ^ 1074 < denominator * 2 ^ (droppedPlaces numerator denominator + 53) ∧
      (droppedPlaces numerator denominator = 0 ∨
        denominator * 2 ^ (droppedPlaces numerator denominator + 52) ≤ numerator * 2 ^ 1074) := by
  have spec := @binaryOrder_spec numerator denominator present positive
  rw [droppedPlaces]
  generalize binaryOrder numerator denominator = order at spec
  constructor
  · have above := (@spec (order + 1074).toNat ((order + 1074).toNat - order).toNat (by omega)).2
    have start : numerator * 2 ^ 1074 ≤ numerator * 2 ^ ((order + 1074).toNat - order).toNat :=
      Nat.mul_le_mul_left _ (pow_le_pow_right₀ (by decide) (by omega))
    have reach : denominator * 2 ^ ((order + 1074).toNat + 1) ≤
        denominator * 2 ^ ((order + 1022).toNat + 53) :=
      Nat.mul_le_mul_left _ (Nat.pow_le_pow_right (by decide) (by omega))
    exact Nat.lt_of_le_of_lt start (Nat.lt_of_lt_of_le above reach)
  · by_cases all : (order + 1022).toNat = 0
    · exact .inl all
    · exact .inr (@spec ((order + 1022).toNat + 52) 1074 (by omega)).1

/-- A quotient that is not below a power of two of units is not rounded below it. The power
is a whole number of steps, or smaller than one step when rounding drops more places than it
has; in the second case the quotient has at least the least significand of 53 places. -/
theorem le_roundedUnits (present : 0 < numerator) (positive : 0 < denominator) {places : Nat}
    (le : denominator * 2 ^ places ≤ numerator * 2 ^ 1074) :
    2 ^ places ≤ roundedUnits numerator denominator := by
  obtain ⟨_, kept⟩ := droppedPlaces_spec present positive
  rw [roundedUnits]
  generalize droppedPlaces numerator denominator = dropped at *
  have step : 0 < denominator * 2 ^ dropped := Nat.mul_pos positive (Nat.two_pow_pos _)
  have steps : ∀ more, dropped + more = places ∨ (more = 0 ∧ places ≤ dropped) →
      denominator * 2 ^ (dropped + more) ≤ numerator * 2 ^ 1074 → 2 ^ places ≤
        divideToEven (numerator * 2 ^ 1074) (denominator * 2 ^ dropped) * 2 ^ dropped := by
    intro more reaches below
    have whole : 2 ^ more ≤ divideToEven (numerator * 2 ^ 1074) (denominator * 2 ^ dropped) := by
      apply le_divideToEven step
      rw [Nat.mul_left_comm, ← Nat.pow_add, Nat.add_comm more]
      exact below
    calc 2 ^ places ≤ 2 ^ (more + dropped) := Nat.pow_le_pow_right (by decide) (by omega)
      _ = 2 ^ more * 2 ^ dropped := Nat.pow_add _ _ _
      _ ≤ _ := Nat.mul_le_mul_right _ whole
  by_cases reaches : dropped ≤ places
  · obtain ⟨more, rfl⟩ := Nat.exists_eq_add_of_le reaches
    exact steps more (.inl rfl) le
  · rcases kept with none | begins
    · omega
    · apply steps 0 (.inr ⟨rfl, by omega⟩)
      exact Nat.le_trans (Nat.mul_le_mul_left _ (Nat.pow_le_pow_right (by decide) (by omega))) begins

/-- A quotient that is below a power of two of units that keeps its places is not
rounded above it. -/
theorem roundedUnits_le (present : 0 < numerator) (positive : 0 < denominator) :
    roundedUnits numerator denominator ≤ 2 ^ (droppedPlaces numerator denominator + 53) := by
  obtain ⟨below, _⟩ := droppedPlaces_spec present positive
  rw [roundedUnits]
  generalize droppedPlaces numerator denominator = dropped at *
  rw [Nat.pow_add _ dropped 53, Nat.mul_comm (2 ^ dropped)]
  apply Nat.mul_le_mul_right
  apply divideToEven_le (Nat.mul_pos positive (Nat.two_pow_pos _))
  rw [Nat.mul_left_comm, ← Nat.pow_add, Nat.add_comm 53]
  exact Nat.le_of_lt below

/-- The greater quotient is not rounded to fewer units.

Proof: by the places that are dropped. With the same number of them the steps are the same,
and rounding to steps is monotone. When the greater quotient drops more, the power of two at
which its places begin lies between the two results. It cannot drop fewer. -/
theorem roundedUnits_mono (present : 0 < numerator) (positive : 0 < denominator)
    (otherPositive : 0 < otherDenominator)
    (le : numerator * otherDenominator ≤ otherNumerator * denominator) :
    roundedUnits numerator denominator ≤ roundedUnits otherNumerator otherDenominator := by
  have otherPresent : 0 < otherNumerator := by
    by_contra absent
    have product := Nat.mul_pos present otherPositive
    rw [Nat.eq_zero_of_not_pos absent, Nat.zero_mul] at le
    omega
  obtain ⟨_, kept⟩ := droppedPlaces_spec present positive
  obtain ⟨otherBelow, otherKept⟩ := droppedPlaces_spec otherPresent otherPositive
  have atMost := roundedUnits_le present positive
  have atLeast := @le_roundedUnits otherNumerator otherDenominator otherPresent otherPositive
  have scaled : numerator * 2 ^ 1074 * otherDenominator ≤ otherNumerator * 2 ^ 1074 * denominator := by
    rw [Nat.mul_right_comm, Nat.mul_right_comm otherNumerator]
    exact Nat.mul_le_mul_right _ le
  rcases Nat.lt_trichotomy (droppedPlaces numerator denominator)
    (droppedPlaces otherNumerator otherDenominator) with fewer | same | more
  · -- The power of two where the greater quotient begins lies between.
    rcases otherKept with none | begins
    · omega
    · calc roundedUnits numerator denominator
          ≤ 2 ^ (droppedPlaces numerator denominator + 53) := atMost
        _ ≤ 2 ^ (droppedPlaces otherNumerator otherDenominator + 52) :=
            Nat.pow_le_pow_right (by decide) (by omega)
        _ ≤ roundedUnits otherNumerator otherDenominator := atLeast begins
  · rw [roundedUnits, roundedUnits, ← same]
    apply Nat.mul_le_mul_right
    apply divideToEven_mono (Nat.mul_pos positive (Nat.two_pow_pos _))
      (Nat.mul_pos otherPositive (Nat.two_pow_pos _))
    rw [← Nat.mul_assoc, ← Nat.mul_assoc]
    exact Nat.mul_le_mul_right _ scaled
  · -- A quotient with more places to drop would be the greater one.
    rcases kept with none | begins
    · omega
    · exfalso
      have power : 2 ^ (droppedPlaces otherNumerator otherDenominator + 53) ≤
          2 ^ (droppedPlaces numerator denominator + 52) :=
        Nat.pow_le_pow_right (by decide) (by omega)
      have first := Nat.mul_le_mul_right otherDenominator begins
      have second := Nat.mul_lt_mul_of_pos_right otherBelow positive
      have third := Nat.mul_le_mul_left (otherDenominator * denominator) power
      have left : denominator * 2 ^ (droppedPlaces numerator denominator + 52) * otherDenominator =
          otherDenominator * denominator * 2 ^ (droppedPlaces numerator denominator + 52) := by ring
      have right : otherDenominator * 2 ^ (droppedPlaces otherNumerator otherDenominator + 53) *
          denominator = otherDenominator * denominator *
            2 ^ (droppedPlaces otherNumerator otherDenominator + 53) := by ring
      omega

/-- Whether a value is a number of units with a sign, or the infinity of the sign when
these are too many. -/
def HasUnits (value : Binary64) (negative : Bool) (count : Nat) : Prop :=
  (count < unitsBound ∧ ∃ significand exponent canonical,
    value = .finite negative significand exponent canonical ∧ units significand exponent = count) ∨
  (unitsBound ≤ count ∧ value = .infinite negative)

/-- Zero has no units. -/
theorem hasUnits_zero (negative : Bool) : (zero negative).HasUnits negative 0 := by
  have positive : 0 < unitsBound := by
    rw [unitsBound]
    exact pow_pos (by decide) _
  exact .inl ⟨positive, 0, -1074, by decide, rfl, Nat.zero_mul _⟩

/-- A value without a sign in front is not above one with at least as many units. -/
theorem HasUnits.upTo {value other : Binary64} {count otherCount : Nat}
    (own : value.HasUnits false count) (others : other.HasUnits false otherCount)
    (le : count ≤ otherCount) : value.upTo other = true := by
  rcases own with ⟨_, significand, exponent, _, rfl, rfl⟩ | ⟨large, rfl⟩
  · rcases others with ⟨_, otherSignificand, otherExponent, _, rfl, rfl⟩ | ⟨_, rfl⟩
    · simpa [Binary64.upTo, signed] using le
    · rfl
  · rcases others with ⟨small, _⟩ | ⟨_, rfl⟩
    · omega
    · rfl

/-- The size of a magnitude with a sign. -/
theorem natAbs_signed (negative : Bool) (magnitude : Nat) :
    (signed negative magnitude).natAbs = magnitude := by
  cases negative with
  | false => rfl
  | true => exact Int.natAbs_neg _

/-- A sign stays in front of a magnitude that is multiplied. -/
theorem signed_mul (negative : Bool) (magnitude factor : Nat) :
    signed negative magnitude * factor = signed negative (magnitude * factor) := by
  cases negative with
  | false => exact (Int.natCast_mul magnitude factor).symm
  | true =>
    rw [signed, signed, if_pos rfl, if_pos rfl, Int.neg_mul, Int.natCast_mul]

/-- A value is equal to an integer only with the units and the sign of that. -/
theorem HasUnits.integer? {value : Binary64} {negative : Bool} {count : Nat} {whole : Int}
    (own : value.HasUnits negative count) (read : value.integer? = some whole) :
    whole * 2 ^ 1074 = signed negative count := by
  rcases own with ⟨_, significand, exponent, canonical, rfl, rfl⟩ | ⟨_, rfl⟩
  · have numerator : whole * (2 ^ (-exponent).toNat : Nat) =
        signed negative (significand * 2 ^ exponent.toNat) := integer?_exact read
    have least : -1074 ≤ exponent := canonical.2.1
    have places : exponent.toNat + 1074 = (exponent + 1074).toNat + (-exponent).toNat := by omega
    have split : significand * 2 ^ exponent.toNat * 2 ^ 1074 =
        units significand exponent * 2 ^ (-exponent).toNat := by
      rw [units, Nat.mul_assoc, Nat.mul_assoc, ← pow_add, ← pow_add, places]
    have positive : ((2 ^ (-exponent).toNat : Nat) : Int) ≠ 0 := by positivity
    apply Int.eq_of_mul_eq_mul_right positive
    have unit : (2 : Int) ^ 1074 = (2 ^ 1074 : Nat) := by rw [Nat.cast_pow, Nat.cast_ofNat]
    rw [mul_right_comm, numerator, unit, signed_mul, split, ← signed_mul]
  · cases read

/-- A significand of at most 53 places, and of exactly these unless it counts units, is
packed to that many units. It is a finite value when its exponent is in the range, and
infinite otherwise; in that case it has at least as many units as the first number that is
too large. -/
theorem hasUnits_pack (negative : Bool) {significand dropped : Nat} {exponent : Int}
    (place : exponent = dropped - 1074) (below : significand < significandBound)
    (kept : significandLeast ≤ significand ∨ dropped = 0) :
    (pack negative significand exponent).HasUnits negative (significand * 2 ^ dropped) := by
  have least : significandLeast = 2 ^ 52 := by decide
  have bound : significandBound = 2 ^ 53 := by decide
  have canonicalIff : Canonical significand exponent ↔ dropped ≤ 2045 := by
    simp only [Canonical]
    omega
  have same : units significand exponent = significand * 2 ^ dropped := by
    rw [units, place, Int.sub_add_cancel, Int.toNat_natCast]
  rw [pack]
  split
  · rename_i canonical
    left
    refine ⟨?_, significand, exponent, canonical, rfl, same⟩
    have small := canonicalIff.mp canonical
    calc significand * 2 ^ dropped < 2 ^ 53 * 2 ^ dropped :=
          Nat.mul_lt_mul_of_pos_right (bound ▸ below) (Nat.two_pow_pos _)
      _ = 2 ^ (53 + dropped) := (Nat.pow_add _ _ _).symm
      _ ≤ unitsBound := by
          rw [unitsBound]
          exact pow_le_pow_right₀ (by decide) (by omega)
  · rename_i other
    right
    refine ⟨?_, rfl⟩
    have large : 2045 < dropped := Nat.lt_of_not_le (mt canonicalIff.mpr other)
    calc unitsBound ≤ 2 ^ (52 + dropped) := by
          rw [unitsBound]
          exact pow_le_pow_right₀ (by decide) (by omega)
      _ = 2 ^ 52 * 2 ^ dropped := Nat.pow_add _ _ _
      _ ≤ significand * 2 ^ dropped := Nat.mul_le_mul_right _ (by omega)

/-- The value nearest to a quotient has the units to which the quotient is rounded.

Proof: the quotient is divided by the step that keeps 53 places, as the definition of the
units does. It divides the power of two otherwise between the numerator and the denominator,
which changes neither quotient nor rest. Rounding up may give the power of two behind the
significands; that one is packed with one place less and one step more. -/
theorem hasUnits_ofFraction (negative : Bool) (present : 0 < numerator)
    (positive : 0 < denominator) :
    (ofFraction negative numerator denominator).HasUnits negative
      (roundedUnits numerator denominator) := by
  obtain ⟨below, kept⟩ := droppedPlaces_spec present positive
  have place : max (binaryOrder numerator denominator - 52) (-1074) =
      (droppedPlaces numerator denominator : Int) - 1074 := by
    rw [droppedPlaces]
    omega
  rw [ofFraction, if_neg (Nat.pos_iff_ne_zero.mp present), roundedUnits]
  simp only [place]
  generalize droppedPlaces numerator denominator = dropped at *
  have step : 0 < denominator * 2 ^ dropped := Nat.mul_pos positive (Nat.two_pow_pos _)
  -- The quotient in steps is the same, however the power is split.
  have split : divideToEven (numerator * Nat.pow 2 (-((dropped : Int) - 1074)).toNat)
      (denominator * Nat.pow 2 ((dropped : Int) - 1074).toNat) =
        divideToEven (numerator * 2 ^ 1074) (denominator * 2 ^ dropped) := by
    have total : (-((dropped : Int) - 1074)).toNat + dropped =
        1074 + ((dropped : Int) - 1074).toNat := by omega
    have cross : numerator * Nat.pow 2 (-((dropped : Int) - 1074)).toNat * (denominator * 2 ^ dropped) =
        numerator * 2 ^ 1074 * (denominator * Nat.pow 2 ((dropped : Int) - 1074).toNat) := by
      calc numerator * 2 ^ (-((dropped : Int) - 1074)).toNat * (denominator * 2 ^ dropped)
          = numerator * denominator * (2 ^ (-((dropped : Int) - 1074)).toNat * 2 ^ dropped) :=
            Nat.mul_mul_mul_comm _ _ _ _
        _ = numerator * denominator * (2 ^ 1074 * 2 ^ ((dropped : Int) - 1074).toNat) := by
            rw [← Nat.pow_add, ← Nat.pow_add, total]
        _ = _ := Nat.mul_mul_mul_comm _ _ _ _
    have otherStep : 0 < denominator * Nat.pow 2 ((dropped : Int) - 1074).toNat :=
      Nat.mul_pos positive (Nat.two_pow_pos _)
    exact Nat.le_antisymm (divideToEven_mono otherStep step (Nat.le_of_eq cross))
      (divideToEven_mono step otherStep (Nat.le_of_eq cross.symm))
  rw [split]
  have least : significandLeast = 2 ^ 52 := by decide
  have bound : significandBound = 2 ^ 53 := by decide
  have atMost : divideToEven (numerator * 2 ^ 1074) (denominator * 2 ^ dropped) ≤ 2 ^ 53 := by
    apply divideToEven_le step
    rw [Nat.mul_left_comm, ← Nat.pow_add, Nat.add_comm 53]
    exact Nat.le_of_lt below
  have atLeast : 2 ^ 52 ≤ divideToEven (numerator * 2 ^ 1074) (denominator * 2 ^ dropped) ∨
      dropped = 0 := by
    rcases kept with none | begins
    · exact .inr none
    · left
      apply le_divideToEven step
      rw [Nat.mul_left_comm, ← Nat.pow_add, Nat.add_comm 52]
      exact begins
  generalize divideToEven (numerator * 2 ^ 1074) (denominator * 2 ^ dropped) = significand at *
  split_ifs with full
  · have carried := @hasUnits_pack negative significandLeast (dropped + 1)
      ((dropped : Int) - 1074 + 1) (by omega) (by decide) (.inl (Nat.le_refl _))
    have same : significand * 2 ^ dropped = significandLeast * 2 ^ (dropped + 1) := by
      rw [full, bound, least, ← Nat.pow_add, ← Nat.pow_add]
      congr 1
      omega
    rw [same]
    exact carried
  · exact hasUnits_pack negative rfl (by omega) (by omega)

end

end Binary64

end EventSieve.Number
