import Reckon.Eval.Error

/-!
# Arithmetic

Integers stay integers under `+`, `-` and `*`. They are computed in 64 bits, and a result that has
wrapped around is told by comparing it with the operands, and refused. As soon as one operand is a
float the operation is one on doubles. Division always is, and refuses a zero divisor.

Two integers are equal if they are the same. When a float is involved, a positive tolerance
admits every absolute difference up to it; without one the comparison is exact, so an integer
equals a float only if the float denotes that very integer.
-/

namespace Reckon

namespace Number

/-- A sum of 64-bit integers, and whether it is exact: one that has wrapped around is not above the
first summand just where it should be. -/
def wrappedSum (a b : Int64) : Int64 × Bool :=
  (a + b, decide (a < a + b) == decide (0 < b))

/-- A difference of 64-bit integers, and whether it is exact. -/
def wrappedDifference (a b : Int64) : Int64 × Bool :=
  (a - b, decide (a - b < a) == decide (0 < b))

/-- A product of 64-bit integers, and whether it is exact: the division by one factor gives back the
other one. The least integer is its own product with `-1`, which no division tells. -/
def wrappedProduct (a b : Int64) : Int64 × Bool :=
  if a == 0 || b == 0 then (0, true)
  else if (a == -1 && b == Int64.minValue) || (b == -1 && a == Int64.minValue) then (a * b, false)
  else (a * b, a * b / b == a)

/-- An integer result, unless it has wrapped around. -/
def checked (result : Int64 × Bool) : Except EvalError Number :=
  if result.2 then .ok (.int result.1) else .error .integerOverflow

/-- The least 64-bit integer as a double. -/
def leastInteger : Float := Float.ofBits 0xC3E0000000000000

/-- The first double above all 64-bit integers. -/
def integerBound : Float := Float.ofBits 0x43E0000000000000

/-- Whether a double is the given integer. The integer is not made a double, which would round it
above `2 ^ 53`. The double is made an integer, once it is known to be one of 64 bits. -/
def isExactly (n : Int64) (x : Float) : Bool :=
  if x.isNaN || x != Binary64.truncated x || decide (x < leastInteger) ||
      decide (integerBound ≤ x) then false
  else x.toModel.toInt64 == n

/-- Equality without tolerance. -/
def exactlyEqual : Number → Number → Bool
  | int a, int b => a == b
  | int a, float y => isExactly a y
  | float x, int b => isExactly b x
  | float x, float y => x == y

/-- Equality up to a tolerance, which is in force if it is positive and a float is involved. -/
def equal (tolerance : Float) : Number → Number → Bool
  | int a, int b => a == b
  | a, b =>
    if 0 < tolerance then decide ((a.toFloat - b.toFloat).abs ≤ tolerance) else exactlyEqual a b

/-- The quotient of two numbers, as a float. -/
def divide (a b : Number) : Except EvalError Number :=
  if b.isZero then .error .divisionByZero else .ok (.float (a.toFloat / b.toFloat))

/-- The result of `+`, `-` or `*` on two numbers. -/
def arith (kind : TokenKind) : Number → Number → Except EvalError Number
  | int a, int b =>
    match kind with
    | .plus => checked (wrappedSum a b)
    | .minus => checked (wrappedDifference a b)
    | .times => checked (wrappedProduct a b)
    | _ => .error (.malformed (.intOperator kind))
  | a, b =>
    match kind with
    | .plus => .ok (.float (a.toFloat + b.toFloat))
    | .minus => .ok (.float (a.toFloat - b.toFloat))
    | .times => .ok (.float (a.toFloat * b.toFloat))
    | _ => .error (.malformed (.floatOperator kind))

/-- The result of an operator other than assignment on two numbers. -/
def apply (tolerance : Float) (kind : TokenKind) (a b : Number) : Except EvalError Value :=
  match kind with
  | .equal => .ok (.bool (equal tolerance a b))
  | .divide => (divide a b).map .number
  | _ => (arith kind a b).map .number

end Number

namespace Value

/-- Whether a value can be an operand. -/
def isOperand (v : Value) : Bool := v.number?.isSome

/-- The number that an operand is; for anything else there is none. -/
def toNumber : Value → Except EvalError Number
  | number n => .ok n
  | v => .error (.malformed (.noNumber v.text))

/-- The result of an operator other than assignment on two values. Both are checked before either is
taken for a number, the left one first. -/
def apply (tolerance : Float) (operator : Token) (left right : Value) : Except EvalError Value :=
  match [left, right].find? fun v => !v.isOperand with
  | some v => .error (.operand operator.text v)
  | none => do Number.apply tolerance operator.kind (← left.toNumber) (← right.toNumber)

/-- Operands that pass the check are numbers, so arithmetic meets nothing else. -/
theorem apply_eq (tolerance : Float) (operator : Token) (left right : Value) :
    left.apply tolerance operator right =
      match left.number? with
      | none => .error (.operand operator.text left)
      | some a =>
        match right.number? with
        | none => .error (.operand operator.text right)
        | some b => Number.apply tolerance operator.kind a b := by
  cases left <;> cases right <;> rfl

end Value

end Reckon
