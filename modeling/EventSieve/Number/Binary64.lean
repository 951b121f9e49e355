/-!
# Binary floating point with 64 bits

A value is not a number, an infinity, or a sign with a magnitude
`significand * 2 ^ exponent`. The magnitude of a finite value is canonical: it
uses all 53 binary places unless the exponent has reached its lower end. Two
zeros exist, one for each sign, and they are different values here.

Arithmetic is exact arithmetic on natural numbers followed by one rounding to
the nearest value, a half going to the even significand. A magnitude beyond the
largest exponent rounds to infinity. No machine float is involved, so results
are computed the same way by the compiler and by the kernel.
-/

namespace EventSieve.Number

/-- The quotient rounded to the nearest natural number, a half going to the
even neighbour. -/
def divideToEven (numerator denominator : Nat) : Nat :=
  let below := numerator / denominator
  let remainder := numerator % denominator
  if 2 * remainder < denominator then below
  else if denominator < 2 * remainder then below + 1
  else below + below % 2

/-- The bound of significands, which is the 53rd power of two. -/
def significandBound : Nat := 9007199254740992

/-- The least significand without leading zeros, which is half of the bound. -/
def significandLeast : Nat := 4503599627370496

/-- A magnitude is canonical when it fits 53 binary places, its exponent is in
range, and leading zeros occur only at the smallest exponent. -/
def Canonical (significand : Nat) (exponent : Int) : Prop :=
  significand < significandBound ∧ -1074 ≤ exponent ∧ exponent ≤ 971 ∧
    (significandLeast ≤ significand ∨ exponent = -1074)

instance (significand : Nat) (exponent : Int) : Decidable (Canonical significand exponent) :=
  inferInstanceAs (Decidable (_ ∧ _ ∧ _ ∧ _))

/-- The values of the binary format with 64 bits. All not-a-numbers are one value. -/
inductive Binary64 where
  | nan
  | infinite (negative : Bool)
  | finite (negative : Bool) (significand : Nat) (exponent : Int)
      (canonical : Canonical significand exponent)
deriving DecidableEq, Repr

namespace Binary64

/-- The zero of a sign. -/
def zero (negative : Bool) : Binary64 :=
  .finite negative 0 (-1074) (by decide)

/-- A canonical magnitude as a finite value, and infinity in place of any other. -/
def pack (negative : Bool) (significand : Nat) (exponent : Int) : Binary64 :=
  if canonical : Canonical significand exponent then
    .finite negative significand exponent canonical
  else .infinite negative

/-- A magnitude as a quotient of natural numbers. -/
def fraction (significand : Nat) (exponent : Int) : Nat × Nat :=
  (significand * Nat.pow 2 exponent.toNat, Nat.pow 2 (-exponent).toNat)

/-- The greatest power of two, by its exponent, that is not above a positive quotient. -/
def binaryOrder (numerator denominator : Nat) : Int :=
  let guess : Int := (numerator.log2 : Int) - denominator.log2
  if denominator * Nat.pow 2 guess.toNat ≤ numerator * Nat.pow 2 (-guess).toNat then guess
  else guess - 1

/-- The value nearest to a quotient of natural numbers, a half going to the
even significand. -/
def ofFraction (negative : Bool) (numerator denominator : Nat) : Binary64 :=
  if numerator = 0 then zero negative
  else
    let exponent := max (binaryOrder numerator denominator - 52) (-1074)
    let significand :=
      divideToEven (numerator * Nat.pow 2 (-exponent).toNat) (denominator * Nat.pow 2 exponent.toNat)
    if significand = significandBound then pack negative significandLeast (exponent + 1)
    else pack negative significand exponent

/-- The value nearest to an integer. -/
def ofInt (value : Int) : Binary64 :=
  ofFraction (value < 0) value.natAbs 1

/-- The value nearest to `coefficient * 10 ^ scale`. A positive coefficient with
the binary logarithm `b` is at least `10 ^ (3 * (b / 10))` and less than
`10 ^ (b / 3 + 1)`, which settles numbers far beyond either end of the range. -/
def ofDecimal (negative : Bool) (coefficient : Nat) (scale : Int) : Binary64 :=
  if coefficient = 0 then zero negative
  else if 310 < scale + (3 * (coefficient.log2 / 10) : Nat) then .infinite negative
  else if scale + (coefficient.log2 / 3 + 1 : Nat) < -330 then zero negative
  else ofFraction negative (coefficient * Nat.pow 10 scale.toNat) (Nat.pow 10 (-scale).toNat)

/-- Whether a value is not a number. -/
def isNaN : Binary64 → Bool
  | .nan => true
  | _ => false

/-- Whether a value is finite. -/
def isFinite : Binary64 → Bool
  | .finite .. => true
  | _ => false

/-- Whether a value is one of the two zeros. -/
def isZero : Binary64 → Bool
  | .finite _ significand _ _ => significand == 0
  | _ => false

/-- The value with the opposite sign. -/
def negate : Binary64 → Binary64
  | .nan => .nan
  | .infinite negative => .infinite !negative
  | .finite negative significand exponent canonical =>
    .finite (!negative) significand exponent canonical

/-- The rounded product. Infinity times zero is not a number. -/
def multiply : Binary64 → Binary64 → Binary64
  | .nan, _ => .nan
  | _, .nan => .nan
  | .infinite left, .infinite right => .infinite (left != right)
  | .infinite left, .finite right significand _ _ =>
    if significand = 0 then .nan else .infinite (left != right)
  | .finite left significand _ _, .infinite right =>
    if significand = 0 then .nan else .infinite (left != right)
  | .finite left leftSignificand leftExponent _, .finite right rightSignificand rightExponent _ =>
    let product := fraction (leftSignificand * rightSignificand) (leftExponent + rightExponent)
    ofFraction (left != right) product.1 product.2

/-- The rounded quotient. A number other than zero divided by zero is infinite. -/
def divide : Binary64 → Binary64 → Binary64
  | .nan, _ => .nan
  | _, .nan => .nan
  | .infinite _, .infinite _ => .nan
  | .infinite left, .finite right _ _ _ => .infinite (left != right)
  | .finite left _ _ _, .infinite right => zero (left != right)
  | .finite left leftSignificand leftExponent _, .finite right rightSignificand rightExponent _ =>
    if rightSignificand = 0 then
      if leftSignificand = 0 then .nan else .infinite (left != right)
    else
      let dividend := fraction leftSignificand leftExponent
      let divisor := fraction rightSignificand rightExponent
      ofFraction (left != right) (dividend.1 * divisor.2) (dividend.2 * divisor.1)

/-- A sign put in front of a natural number. -/
def signed (negative : Bool) (magnitude : Nat) : Int :=
  if negative then -(magnitude : Int) else magnitude

/-- The integer that a value is equal to, when there is one. -/
def integer? : Binary64 → Option Int
  | .finite negative significand exponent _ =>
    let quotient := fraction significand exponent
    if quotient.1 % quotient.2 = 0 then some (signed negative (quotient.1 / quotient.2)) else none
  | _ => none

/-- The nearest integer to a finite value, a half going away from zero. -/
def rounded? : Binary64 → Option Int
  | .finite negative significand exponent _ =>
    let quotient := fraction significand exponent
    some (signed negative ((2 * quotient.1 + quotient.2) / (2 * quotient.2)))
  | _ => none

/-- Changing the sign twice changes nothing. -/
theorem negate_negate (value : Binary64) : value.negate.negate = value := by
  cases value <;> simp [negate]

/-- The denominator of a magnitude is positive. -/
theorem fraction_denominator_pos (significand : Nat) (exponent : Int) :
    0 < (fraction significand exponent).2 :=
  Nat.pow_pos (by decide)

/-- An integer value times its denominator is the signed numerator: the reading
as an integer is exact. -/
theorem integer?_exact {negative : Bool} {significand : Nat} {exponent value : Int}
    {canonical : Canonical significand exponent}
    (read : integer? (.finite negative significand exponent canonical) = some value) :
    value * (fraction significand exponent).2 = signed negative (fraction significand exponent).1 := by
  simp only [integer?] at read
  split at read
  · rename_i whole
    have exactQuotient := Nat.div_mul_cancel (Nat.dvd_of_mod_eq_zero whole)
    simp only [Option.some.injEq] at read
    subst read
    cases negative
    · simpa [signed] using congrArg Int.ofNat exactQuotient
    · simp only [signed, if_true, Int.neg_mul]
      exact congrArg Neg.neg (congrArg Int.ofNat exactQuotient)
  · cases read

example : (ofInt (significandBound + 1)).integer? = some significandBound := by decide +kernel

example : (ofDecimal false 25 (-1)).rounded? = some 3 := by decide +kernel

example : ofDecimal false 1 400 = .infinite false := by decide +kernel

end Binary64

end EventSieve.Number
