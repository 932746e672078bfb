import Reckon.Decimal.Binary64
import Reckon.Text.Basic

/-!
# Reading floats

`FloatText.read` reads a text as a double: decimal digits with an optional point and an optional
exponent, a hexadecimal number with a binary exponent, an infinity or `nan`. Underscores may stand
between digits. The result is the nearest double, and a number that would round to an infinity is
out of range.
-/

namespace Reckon

namespace FloatText

/-- Why a text is no double. -/
inductive Fault where
  | malformed
  | outOfRange
deriving DecidableEq, Repr

/-- A letter in its small form. -/
def small (b : UInt8) : UInt8 := if 65 ≤ b && b ≤ 90 then b + 32 else b

/-- Takes a sign off; the flag tells whether it is negative. -/
def sign : Text → Bool × Text
  | 43 :: rest => (false, rest)
  | 45 :: rest => (true, rest)
  | t => (false, t)

/-- The value of a digit in base ten or sixteen. -/
def digit? (hexadecimal : Bool) (b : UInt8) : Option Nat :=
  if Text.isDigitByte b then some (b.toNat - 48)
  else if hexadecimal && 97 ≤ small b && small b ≤ 102 then some ((small b).toNat - 87)
  else none

/-- The digits of a number: their value, how many there are, and how many follow the point. -/
structure Mantissa where
  value : Nat
  digits : Nat
  places : Nat
  hasPoint : Bool

/-- Reads digits with at most one point. Underscores are passed over. -/
def mantissa (hexadecimal : Bool) : Text → Mantissa → Mantissa × Text
  | [], m => (m, [])
  | b :: rest, m =>
    match digit? hexadecimal b with
    | some d =>
      let base := if hexadecimal then 16 else 10
      mantissa hexadecimal rest
        { m with
          value := base * m.value + d
          digits := m.digits + 1
          places := if m.hasPoint then m.places + 1 else m.places }
    | none =>
      if b == '_'.toUInt8 then mantissa hexadecimal rest m
      else if b == '.'.toUInt8 && !m.hasPoint then
        mantissa hexadecimal rest { m with hasPoint := true }
      else (m, b :: rest)

/-- Reads the digits of an exponent, which is kept below 100000. -/
def exponentDigits : Text → Nat → Nat × Text
  | [], n => (n, [])
  | b :: rest, n =>
    if b == '_'.toUInt8 then exponentDigits rest n
    else if Text.isDigitByte b then
      exponentDigits rest (if n < 10000 then 10 * n + (b.toNat - 48) else n)
    else (n, b :: rest)

/-- Reads an exponent after the given letter, if there is one; the letter needs a digit after it. -/
def exponent (letter : UInt8) (t : Text) : Option (Option Int × Text) :=
  match t with
  | b :: rest =>
    if small b == letter then
      let (negative, rest) := sign rest
      match rest with
      | d :: _ =>
        if Text.isDigitByte d then
          let (n, rest) := exponentDigits rest 0
          some (some (if negative then -(n : Int) else n), rest)
        else none
      | [] => none
    else some (none, t)
  | [] => some (none, [])

/-- Whether every underscore stands between digits, or between a base mark and a digit. -/
def underscoresOk (hexadecimal : Bool) : Text → Bool → Bool
  | [], _ => true
  | b :: rest, afterDigit =>
    if b == '_'.toUInt8 then
      afterDigit && (rest.head?.any fun d => (digit? hexadecimal d).isSome) &&
        underscoresOk hexadecimal rest false
    else underscoresOk hexadecimal rest (digit? hexadecimal b).isSome

/-- The nearest double to `m · 10 ^ e`. -/
def decimalFloat (m : Nat) (e : Int) : Float :=
  if 0 ≤ e then Float.ofScientific m false e.toNat else Float.ofScientific m true (-e).toNat

/-- The nearest double to `m · 2 ^ e`. -/
def binaryFloat (m : Nat) (e : Int) : Float :=
  if 0 ≤ e then Float.ofScientific (m * Nat.pow 2 e.toNat) false 0
  else Float.ofScientific (m * Nat.pow 5 (-e).toNat) true (-e).toNat

/-- Reads an unsigned number. -/
def readUnsigned (t : Text) : Except Fault Float :=
  let (hexadecimal, body) :=
    match t with
    | 48 :: b :: rest => if small b == 120 then (true, rest) else (false, t)
    | _ => (false, t)
  let (m, rest) := mantissa hexadecimal body ⟨0, 0, 0, false⟩
  if m.digits == 0 then .error .malformed
  else
    match exponent (if hexadecimal then 'p'.toUInt8 else 'e'.toUInt8) rest with
    | some (e, []) =>
      if (hexadecimal && e.isNone) || !underscoresOk hexadecimal body hexadecimal then
        .error .malformed
      else
        let x :=
          if hexadecimal then binaryFloat m.value (e.getD 0 - 4 * m.places)
          else decimalFloat m.value (e.getD 0 - m.places)
        if (Binary64.ofFloat x).isFinite then .ok x else .error .outOfRange
    | _ => .error .malformed

/-- Reads a text as a double. -/
def read (t : Text) : Except Fault Float :=
  let (negative, body) := sign t
  let word := body.map small
  if word == Text.lit "inf" || word == Text.lit "infinity" then
    .ok (Float.ofBits (if negative then 0xFFF0000000000000 else 0x7FF0000000000000))
  else if t.map small == Text.lit "nan" then .ok (Float.ofBits 0x7FF8000000000000)
  else (readUnsigned body).map fun x => if negative then -x else x

end FloatText

end Reckon
