import Reckon.Decimal.Layout

/-!
# Results

A number is a 64-bit integer or a double. An equation results in a number, in a truth value when
it is an equality, or in the confirmation of an assignment.
-/

namespace Reckon

/-- A 64-bit integer or a double. -/
inductive Number where
  | int (n : Int64)
  | float (x : Float)
deriving Inhabited

namespace Number

/-- The number as a double, rounded to nearest. -/
def toFloat : Number → Float
  | int n => .ofModel (.ofInt64 n)
  | float x => x

/-- Whether a number is zero, of either sign. -/
def isZero : Number → Bool
  | int n => n == 0
  | float x => x == 0

/-- How a number is written: floats always have a point or an exponent. -/
def text : Number → Text
  | int n => Text.ofInt n.toInt
  | float x => FloatLayout.result.format x

end Number

/-- What an equation results in. -/
inductive Value where
  | number (n : Number)
  | bool (b : Bool)
  /-- A value was stored under a name. -/
  | assignment (name : Text) (value : Value)
deriving Inhabited

namespace Value

/-- How a value is written. -/
def text : Value → Text
  | number n => n.text
  | bool b => Text.lit (if b then "true" else "false")
  | assignment name value => name ++ Text.lit " = " ++ value.text

/-- The number that a value is, if it is one. -/
def number? : Value → Option Number
  | number n => some n
  | _ => none

end Value

end Reckon
