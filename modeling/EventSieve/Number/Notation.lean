import EventSieve.Number.Shortest
import EventSieve.Text.Ascii

/-!
# Numbers as text

Integers are written in decimal with a minus sign when negative. Floating-point
values are written with the fewest digits that read back, in one of two styles:
the plain style never uses an exponent and adds no fraction to a whole number,
the document style keeps a fraction and leaves positional notation for very
large and very small magnitudes.
-/

namespace EventSieve.Number

/-- An integer in decimal. -/
def integerText (value : Int) : String :=
  let digits := Text.decimalChars value.natAbs
  String.ofList (if value < 0 then '-' :: digits else digits)

/-- The decisions that tell one written form of floating-point values from another. -/
structure FloatStyle where
  /-- Which of two equally near shortest decimals is written. -/
  tie : Tie
  /-- The decimal exponents written positionally, from the first up to but
  without the second; none means all of them. -/
  positional : Option (Int × Int)
  /-- Whether a whole number written positionally still shows a fraction. -/
  showsFraction : Bool

/-- The style of cell texts: no exponent and no needless fraction. -/
def plainStyle : FloatStyle := ⟨.upward, none, false⟩

/-- The style of JSON documents: positional from `0.00001` up to below `10 ^ 16`. -/
def documentStyle : FloatStyle := ⟨.toEven, some (-5, 16), true⟩

namespace Decimal

/-- A positive decimal in positional notation. -/
def positionalChars (showsFraction : Bool) (decimal : Decimal) : List Char :=
  let digits := Text.decimalChars decimal.coefficient
  let point : Int := digits.length + decimal.scale
  if 0 ≤ decimal.scale then
    digits ++ List.replicate decimal.scale.toNat '0' ++ (if showsFraction then ['.', '0'] else [])
  else if 0 < point then digits.take point.toNat ++ '.' :: digits.drop point.toNat
  else '0' :: '.' :: (List.replicate (-point).toNat '0' ++ digits)

/-- A positive decimal with one digit before the point and an exponent that
always shows its sign. -/
def scientificChars (decimal : Decimal) : List Char :=
  let digits := Text.decimalChars decimal.coefficient
  let exponent : Int := digits.length + decimal.scale - 1
  let fraction := digits.drop 1
  digits.take 1 ++ (if fraction.isEmpty then [] else '.' :: fraction) ++
    'e' :: (if exponent < 0 then '-' else '+') :: Text.decimalChars exponent.natAbs

end Decimal

/-- The characters of a finite magnitude in a style. -/
def magnitudeChars (style : FloatStyle) (significand : Nat) (exponent : Int) : List Char :=
  let decimal := shortest style.tie significand exponent
  let order : Int := (Text.decimalChars decimal.coefficient).length + decimal.scale - 1
  match style.positional with
  | none => decimal.positionalChars style.showsFraction
  | some (first, last) =>
    if first ≤ order && order < last then decimal.positionalChars style.showsFraction
    else decimal.scientificChars

/-- The text of a floating-point value in a style. -/
def floatText (style : FloatStyle) : Binary64 → String
  | .nan => "NaN"
  | .infinite negative => if negative then "-inf" else "inf"
  | .finite negative significand exponent _ =>
    let magnitude := magnitudeChars style significand exponent
    String.ofList (if negative then '-' :: magnitude else magnitude)

example : floatText plainStyle (.ofDecimal false 1 20) = "100000000000000000000" := by decide +kernel

example : floatText documentStyle (.ofDecimal true 15 299) = "-1.5e+300" := by decide +kernel

example : floatText documentStyle (.ofDecimal false 1 (-5)) = "0.00001" := by decide +kernel

example : floatText documentStyle (.ofDecimal false 1 (-6)) = "1e-6" := by decide +kernel

example : floatText plainStyle (.zero true) = "-0" := by decide +kernel

end EventSieve.Number
