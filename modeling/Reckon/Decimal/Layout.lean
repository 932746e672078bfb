import Reckon.Decimal.Shortest
import Reckon.Text.Basic

/-!
# Writing doubles

Every format writes the same digits, those of `Decimal.shortest`, and differs only in where the
point goes. A `FloatLayout` records the choices: for which exponents of the leading digit the
number is written out, how many digits an exponent has at least, and whether an integral number
keeps a `.0`.
-/

namespace Reckon

/-- The choices that make up a number format. -/
structure FloatLayout where
  /-- The least exponent of the leading digit that is written out. -/
  positionalFrom : Int
  /-- The least exponent of the leading digit that is too large to be written out. -/
  positionalBelow : Int
  /-- The least number of digits of an exponent that is negative. -/
  negativeExponentDigits : Nat
  /-- Whether a number without point and exponent gets a `.0`. -/
  marksIntegers : Bool
deriving DecidableEq, Repr

namespace FloatLayout

/-- The digits of a coefficient. -/
def coefficientDigits (x : Decimal) : Text := Text.ofNat x.coefficient

/-- A decimal written out, with a point only if there are digits after it. -/
def positional (x : Decimal) : Text :=
  let digits := coefficientDigits x
  if 0 ≤ x.exponent then digits ++ List.replicate x.exponent.toNat '0'.toUInt8
  else
    let places := (-x.exponent).toNat
    if places < digits.length then
      digits.take (digits.length - places) ++ Text.lit "." ++ digits.drop (digits.length - places)
    else Text.lit "0." ++ List.replicate (places - digits.length) '0'.toUInt8 ++ digits

/-- A decimal with one digit before the point and an exponent. -/
def scientific (layout : FloatLayout) (x : Decimal) (lead : Int) : Text :=
  let mantissa :=
    match coefficientDigits x with
    | first :: second :: rest => first :: '.'.toUInt8 :: second :: rest
    | digits => digits
  let width := if lead < 0 then layout.negativeExponentDigits else 2
  let exponent := Text.ofNat lead.natAbs
  mantissa ++ Text.lit (if lead < 0 then "e-" else "e+")
    ++ List.replicate (width - exponent.length) '0'.toUInt8 ++ exponent

/-- A positive decimal in the given layout. -/
def positive (layout : FloatLayout) (x : Decimal) : Text :=
  let lead := x.exponent + (coefficientDigits x).length - 1
  if layout.positionalFrom ≤ lead && lead < layout.positionalBelow then
    let digits := positional x
    if layout.marksIntegers && !digits.contains '.'.toUInt8 then digits ++ Text.lit ".0" else digits
  else layout.scientific x lead

/-- A double in the given layout. -/
def format (layout : FloatLayout) (x : Float) : Text :=
  match Binary64.ofFloat x with
  | .nan => Text.lit "NaN"
  | .infinite negative => Text.lit (if negative then "-Inf" else "+Inf")
  | .finite negative m q =>
    let sign := Text.lit (if negative then "-" else "")
    if m == 0 then sign ++ Text.lit (if layout.marksIntegers then "0.0" else "0")
    else sign ++ layout.positive (Decimal.shortest m q)

/-- Results: at most six digits before the point are written out, and `.0` tells a float from an
integer. -/
def result : FloatLayout := ⟨-4, 6, 2, true⟩

/-- Numbers in messages and tree listings: as results, without the `.0`. -/
def plain : FloatLayout := ⟨-4, 6, 2, false⟩

/-- JSON numbers: written out from a millionth to below `10 ^ 21`. -/
def json : FloatLayout := ⟨-6, 21, 1, false⟩

end FloatLayout

end Reckon
