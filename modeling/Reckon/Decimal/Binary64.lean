/-!
# Doubles as exact numbers

A double is read from its 64 bits: a sign, eleven exponent bits and 52 fraction bits. A finite
one denotes the dyadic number `± m · 2 ^ q` of its significand `m` and exponent `q`, with no
rounding anywhere. Infinities and NaN denote no number.
-/

namespace Reckon

/-- What the bits of a double say. -/
inductive Binary64 where
  /-- The number `m · 2 ^ q`, negated if `negative`. -/
  | finite (negative : Bool) (m : Nat) (q : Int)
  | infinite (negative : Bool)
  | nan
deriving DecidableEq, Repr

namespace Binary64

/-- The reading of a double's bits. Exponent zero is the row of subnormal numbers, and the
largest exponent is kept for infinities and NaN. -/
def ofBits (bits : UInt64) : Binary64 :=
  let n := bits.toNat
  let negative := n / 0x8000000000000000 == 1
  let exponent : Nat := n / 0x10000000000000 % 2048
  let fraction : Nat := n % 0x10000000000000
  if exponent == 2047 then (if fraction == 0 then .infinite negative else .nan)
  else if exponent == 0 then .finite negative fraction (-1074)
  else .finite negative (0x10000000000000 + fraction) (exponent - 1075)

/-- The exact meaning of a double. -/
def ofFloat (x : Float) : Binary64 := ofBits x.toBits

/-- Whether a double denotes a number. -/
def isFinite : Binary64 → Bool
  | .finite .. => true
  | _ => false

/-- The integer part of a finite double, rounding toward zero. -/
def truncate? : Binary64 → Option Int
  | .finite negative m q =>
    let size : Nat := if 0 ≤ q then m * Nat.pow 2 q.toNat else m / Nat.pow 2 (-q).toNat
    some (if negative then -(size : Int) else size)
  | _ => none

/-- How many of the last bits of a double count parts of one: all but the sign if it is below one,
and none from `2 ^ 52` on. -/
def bitsAfterPoint (bits : UInt64) : Nat :=
  let exponent : Nat := bits.toNat / 0x10000000000000 % 2048
  if exponent < 1023 then 63 else 1075 - exponent

/-- The integer part of a double as a double again. Zeros, infinities and NaN are their own. -/
def truncated (x : Float) : Float :=
  let unit := Nat.pow 2 (bitsAfterPoint x.toBits)
  Float.ofBits (UInt64.ofNat (x.toBits.toNat / unit * unit))

end Binary64

end Reckon
