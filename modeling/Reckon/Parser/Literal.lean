import Reckon.Expr.Basic
import Reckon.Parser.Error

/-!
# Operands of one token

An integer is a run of digits up to `2 ^ 63 - 1`. A float is a run of digits with exactly one
point; it stands for the nearest double, and is too large if that is infinite.
-/

namespace Reckon

namespace Token

/-- The integer that a run of digits spells. -/
def toIntExpr (t : Token) : Except InputError Expr :=
  let n := Text.digitsToNat t.text
  if n < 0x8000000000000000 then .ok (.int (Int64.ofNat n)) else .error (.number t true)

/-- The nearest double to the decimal with the given digits before and after the point. -/
def nearestFloat (whole fraction : Text) : Float :=
  Float.ofScientific (Text.digitsToNat (whole ++ fraction)) true fraction.length

/-- The double that digits with a point spell. -/
def toFloatExpr (t : Token) : Except InputError Expr :=
  match Text.cut '.'.toUInt8 t.text with
  | none => .error (.number t false)
  | some (whole, fraction) =>
    if fraction.contains '.'.toUInt8 then .error (.number t false)
    else
      let x := nearestFloat whole fraction
      if (Binary64.ofFloat x).isFinite then .ok (.float x) else .error (.number t true)

/-- The operand that a number or an identifier stands for; no other token stands for one. -/
def operand? (t : Token) : Option (Except InputError Expr) :=
  match t.kind with
  | .int => some t.toIntExpr
  | .float => some t.toFloatExpr
  | .identifier => some (.ok (.identifier t.text))
  | _ => none

/-- A bracket stands for no operand by itself. -/
theorem operand?_of_leftParen {t : Token} (h : t.kind = .leftParen) : t.operand? = none := by
  rw [operand?, h]

end Token

end Reckon
