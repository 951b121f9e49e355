import EventSieve.Number.Binary64

/-!
# The fewest decimal digits that read back

Every finite value of the binary format owns an interval of numbers that round
to it; the ends belong to it exactly when the significand is even. Among the
decimals with the fewest digits inside this interval the one nearest to the
value is chosen. Only the two neighbours of the value have to be looked at on a
decimal grid: when any point of the grid lies in the interval, one of them does.
Two neighbours can be equally near, and then a rule chosen by the caller
decides.

All comparisons are between natural numbers, after both sides have been
multiplied by the denominators.
-/

namespace EventSieve.Number

/-- What is written when two shortest decimals are equally near. -/
inductive Tie where
  | upward
  | toEven
deriving DecidableEq, Repr

/-- The decimal number `coefficient * 10 ^ scale`. -/
structure Decimal where
  coefficient : Nat
  scale : Int
deriving DecidableEq, Repr

namespace Decimal

/-- Moves up to a given number of trailing zeros from the coefficient into the scale. -/
def withoutTrailingZeros : Nat → Decimal → Decimal
  | 0, decimal => decimal
  | limit + 1, decimal =>
    if decimal.coefficient % 10 = 0 then
      withoutTrailingZeros limit ⟨decimal.coefficient / 10, decimal.scale + 1⟩
    else decimal

/-- Whether a quotient reaches a power of ten. -/
def reaches (numerator denominator : Nat) (exponent : Int) : Bool :=
  denominator * Nat.pow 10 exponent.toNat ≤ numerator * Nat.pow 10 (-exponent).toNat

/-- The exponent of the greatest power of ten that is not above a positive value
of the format, given as a quotient. The greatest power of two that is not above it
leaves two candidates. Five digits of the decimal logarithm of two are enough to
find them: up to exponents of 2000 no power of two but one itself lies so near to a
power of ten that a sixth digit would matter. -/
def order (numerator denominator : Nat) : Int :=
  let candidate := Binary64.binaryOrder numerator denominator * 30103 / 100000
  if reaches numerator denominator (candidate + 1) then candidate + 1 else candidate

end Decimal

/-- The interval of numbers that round to a value, in units of a quarter of the
distance to the next greater value. -/
structure RoundingInterval where
  low : Nat
  middle : Nat
  high : Nat
  /-- The exponent of two of the unit. -/
  unit : Int
  /-- Whether the ends belong to the interval. -/
  closed : Bool

namespace RoundingInterval

/-- The interval of a positive magnitude. Below a power of two the neighbours
stand twice as close, except at the smallest exponent. -/
def ofMagnitude (significand : Nat) (exponent : Int) : RoundingInterval where
  low := if significand = significandLeast ∧ -1074 < exponent then 4 * significand - 1
    else 4 * significand - 2
  middle := 4 * significand
  high := 4 * significand + 2
  unit := exponent - 2
  closed := significand % 2 = 0

/-- Whether a scaled number lies in the interval scaled alike. -/
def holds (interval : RoundingInterval) (factor point : Nat) : Bool :=
  if interval.closed then interval.low * factor ≤ point && point ≤ interval.high * factor
  else interval.low * factor < point && point < interval.high * factor

/-- The point of the grid `10 ^ scale` that is nearest to the middle among its
two neighbours inside the interval. -/
def onGrid? (interval : RoundingInterval) (tie : Tie) (scale : Int) : Option Nat :=
  let factor := Nat.pow 2 interval.unit.toNat * Nat.pow 10 (-scale).toNat
  let step := Nat.pow 10 scale.toNat * Nat.pow 2 (-interval.unit).toNat
  let middle := interval.middle * factor
  let below := middle / step
  let above := below + 1
  match interval.holds factor (below * step), interval.holds factor (above * step) with
  | false, false => none
  | true, false => some below
  | false, true => some above
  | true, true =>
    let toBelow := middle - below * step
    let toAbove := above * step - middle
    if toBelow < toAbove then some below
    else if toAbove < toBelow then some above
    else match tie with
      | .upward => some above
      | .toEven => some (if below % 2 = 0 then below else above)

/-- Tries ever finer grids from a scale downward. The last grid that is left is
taken with the point below the middle when none has a point in the interval. -/
def search (interval : RoundingInterval) (tie : Tie) : Nat → Int → Decimal
  | 0, scale =>
    let factor := Nat.pow 2 interval.unit.toNat * Nat.pow 10 (-scale).toNat
    let step := Nat.pow 10 scale.toNat * Nat.pow 2 (-interval.unit).toNat
    ⟨interval.middle * factor / step, scale⟩
  | finer + 1, scale =>
    match interval.onGrid? tie scale with
    | some coefficient => ⟨coefficient, scale⟩
    | none => search interval tie finer (scale - 1)

end RoundingInterval

/-- The decimal with the fewest digits that rounds to a positive magnitude, and
the nearest of those. Seventeen digits always suffice. -/
def shortest (tie : Tie) (significand : Nat) (exponent : Int) : Decimal :=
  if significand = 0 then ⟨0, 0⟩
  else
    let quotient := Binary64.fraction significand exponent
    let interval := RoundingInterval.ofMagnitude significand exponent
    (interval.search tie 17 (Decimal.order quotient.1 quotient.2)).withoutTrailingZeros 17

/-- A grid only ever gives one of its points inside the interval. There are two neighbours
on the grid, and each of them is given only where it was found to be inside. -/
theorem RoundingInterval.holds_of_onGrid? {interval : RoundingInterval} {tie : Tie} {scale : Int}
    {coefficient : Nat} (found : interval.onGrid? tie scale = some coefficient) :
    interval.holds (Nat.pow 2 interval.unit.toNat * Nat.pow 10 (-scale).toNat)
      (coefficient * (Nat.pow 10 scale.toNat * Nat.pow 2 (-interval.unit).toNat)) = true := by
  simp only [onGrid?] at found
  split at found
  · cases found
  · cases found; assumption
  · cases found; assumption
  · rename_i belowInside aboveInside
    split at found
    · cases found; exact belowInside
    · split at found
      · cases found; exact aboveInside
      · cases tie with
        | upward => cases found; exact aboveInside
        | toEven =>
          simp only at found
          split at found
          · cases found; exact belowInside
          · cases found; exact aboveInside

example : shortest .toEven 1 (-1074) = ⟨5, -324⟩ := by decide +kernel

example : shortest .upward significandLeast (-52) = ⟨1, 0⟩ := by decide +kernel

end EventSieve.Number
