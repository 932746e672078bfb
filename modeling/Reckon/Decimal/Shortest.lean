import Reckon.Decimal.Binary64

/-!
# The shortest decimal of a double

Among the decimals that round to a given double, the one with the fewest digits is chosen, and
among those the one nearest to the double. The reals that round to `m · 2 ^ q` form an interval
around it, which reaches half way to the neighbouring doubles and includes its ends when `m` is
even. For one digit, two digits and so on, the two multiples of the grid around the value are
tested against that interval in exact arithmetic.
-/

namespace Reckon

/-- A positive decimal number `coefficient · 10 ^ exponent`. -/
structure Decimal where
  coefficient : Nat
  exponent : Int
deriving DecidableEq, Repr

namespace Decimal

/-- The positive fractions that round to one double: from `low` to `high` over `denominator`,
around `value`, with the ends included if `closed`. -/
structure Interval where
  low : Nat
  value : Nat
  high : Nat
  denominator : Nat
  closed : Bool
deriving DecidableEq, Repr

/-- The interval of `m · 2 ^ q`. Everything is counted in quarters of the last place, so that the
bounds are integers also below a power of two, where the lower neighbour is nearer. -/
def interval (m : Nat) (q : Int) : Interval :=
  let below := if m == 0x10000000000000 && -1074 < q then 1 else 2
  let scale := if 0 ≤ q then Nat.pow 2 q.toNat else 1
  { low := (4 * m - below) * scale
    value := 4 * m * scale
    high := (4 * m + 2) * scale
    denominator := 4 * (if 0 ≤ q then 1 else Nat.pow 2 (-q).toNat)
    closed := m % 2 == 0 }

/-- Whether the fraction `n / d` lies in the interval. -/
def Interval.contains (i : Interval) (n d : Nat) : Bool :=
  let above := i.low * d < n * i.denominator || i.closed && i.low * d == n * i.denominator
  let under := n * i.denominator < i.high * d || i.closed && n * i.denominator == i.high * d
  above && under

/-- The decimal exponent of the leading digit of a positive fraction `n / d ≥ 10 ^ (-400)`. -/
def leadingExponent (n d : Nat) : Int :=
  ((Nat.toDigits 10 (n * Nat.pow 10 400 / d)).length : Int) - 401

/-- The better of the two neighbours of the value among the multiples of `10 ^ e`, if one of them
lies in the interval: the nearer one, and in the middle the even one. -/
def Interval.onGrid (i : Interval) (e : Int) : Option Nat :=
  let up := if 0 ≤ e then Nat.pow 10 e.toNat else 1
  let down := if 0 ≤ e then 1 else Nat.pow 10 (-e).toNat
  let n := i.value * down
  let d := i.denominator * up
  let below := n / d
  let rest := n % d
  let okBelow := i.contains (below * up) down
  let okAbove := i.contains ((below + 1) * up) down
  if okBelow && okAbove then
    if 2 * rest < d || 2 * rest == d && below % 2 == 0 then some below else some (below + 1)
  else if okBelow then some below
  else if okAbove then some (below + 1)
  else none

/-- Moves trailing zeros of the coefficient into the exponent. -/
def normalize : Nat → Decimal → Decimal
  | 0, x => x
  | fuel + 1, x =>
    if x.coefficient % 10 == 0 && x.coefficient != 0 then
      normalize fuel ⟨x.coefficient / 10, x.exponent + 1⟩
    else x

/-- The first grid, from coarse to fine, that has a point in the interval. Seventeen digits
always suffice. -/
def Interval.search (i : Interval) (lead : Int) : Nat → Nat → Decimal
  | 0, digits => ⟨i.value * Nat.pow 10 digits / i.denominator, -digits⟩
  | fuel + 1, digits =>
    match i.onGrid (lead - digits) with
    | some n => normalize 20 ⟨n, lead - digits⟩
    | none => i.search lead fuel (digits + 1)

/-- The shortest decimal that reads back as `m · 2 ^ q`, for a positive `m`. -/
def shortest (m : Nat) (q : Int) : Decimal :=
  let i := interval m q
  i.search (leadingExponent i.value i.denominator) 17 0

end Decimal

end Reckon
