import Reckon.Decimal.Binary64
import Reckon.Text.Basic

/-!
# Durations

A duration is written as a sign and one or more numbers, each with a unit: `1h2m3.5s`. It is counted
in nanoseconds, in 64 bits. A zero needs no unit.
-/

namespace Reckon

namespace Duration

/-- Why a text is no duration. -/
inductive Fault where
  | invalid (text : Text)
  | missingUnit (text : Text)
  | unknownUnit (unit text : Text)
deriving DecidableEq, Repr

/-- A text between quotation marks, in which every byte outside printable ASCII is escaped. -/
def quote (t : Text) : Text :=
  let escaped := t.flatMap fun b =>
    if b < 0x20 || 0x80 ≤ b then Text.lit "\\x" ++ Text.hex 2 b.toNat
    else if b == '"'.toUInt8 || b == '\\'.toUInt8 then ['\\'.toUInt8, b]
    else [b]
  Text.lit "\"" ++ escaped ++ Text.lit "\""

/-- What the user is told. -/
def Fault.message : Fault → Text
  | invalid t => Text.lit "time: invalid duration " ++ quote t
  | missingUnit t => Text.lit "time: missing unit in duration " ++ quote t
  | unknownUnit u t =>
    Text.lit "time: unknown unit " ++ quote u ++ Text.lit " in duration " ++ quote t

/-- The length of a unit in nanoseconds. -/
def unit? (t : Text) : Option Nat :=
  if t == Text.lit "ns" then some 1
  else if t == Text.lit "us" || t == Text.lit "µs" || t == Text.lit "μs" then some 1000
  else if t == Text.lit "ms" then some 1000000
  else if t == Text.lit "s" then some 1000000000
  else if t == Text.lit "m" then some 60000000000
  else if t == Text.lit "h" then some 3600000000000
  else none

/-- The value of the digits before the point, up to `2 ^ 63`. -/
def whole? (digits : Text) : Option Nat :=
  let n := Text.digitsToNat digits
  if n ≤ 0x8000000000000000 then some n else none

/-- The digits after the point as a number and its scale. Digits that would take the number beyond
`2 ^ 63` are passed over. -/
def fraction (digits : Text) : Nat × Nat :=
  let (n, scale, _) := digits.foldl (fun (n, scale, full) d =>
    let next := 10 * n + (d.toNat - 48)
    if full || (0x8000000000000000 - 1) / 10 < n || 0x8000000000000000 < next then (n, scale, true)
    else (next, 10 * scale, false)) (0, 1, false)
  (n, scale)

/-- A fraction of a unit in whole nanoseconds, computed in doubles. -/
def fractionOf (n scale unit : Nat) : Nat :=
  let x := Float.ofNat n * (Float.ofNat unit / Float.ofNat scale)
  ((Binary64.ofFloat x).truncate?.getD 0).toNat

/-- Whether a byte belongs to a number. -/
def isNumberByte (b : UInt8) : Bool := b == '.'.toUInt8 || Text.isDigitByte b

/-- One number with its unit, in nanoseconds, and what follows. -/
def part (all t : Text) : Except Fault (Nat × Text) :=
  let before := t.takeWhile Text.isDigitByte
  let rest := t.dropWhile Text.isDigitByte
  let (after, rest) :=
    match rest with
    | 46 :: rest => (rest.takeWhile Text.isDigitByte, rest.dropWhile Text.isDigitByte)
    | rest => ([], rest)
  match whole? before with
  | none => .error (.invalid all)
  | some n =>
    if before.isEmpty && after.isEmpty then .error (.invalid all)
    else
      let name := rest.takeWhile fun b => !isNumberByte b
      if name.isEmpty then .error (.missingUnit all)
      else
        match unit? name with
        | none => .error (.unknownUnit name all)
        | some unit =>
          let (f, scale) := fraction after
          let total := n * unit + (if 0 < f then fractionOf f scale unit else 0)
          if 0x8000000000000000 / unit < n || 0x8000000000000000 < total then .error (.invalid all)
          else .ok (total, rest.dropWhile fun b => !isNumberByte b)

/-- The sum of all parts from here on, in 64 bits, where each partial sum may reach `2 ^ 63`. -/
def parts (all : Text) : Nat → Text → Nat → Except Fault Nat
  | _, [], total => .ok total
  | 0, _, _ => .error (.invalid all)
  | fuel + 1, t, total =>
    match part all t with
    | .error e => .error e
    | .ok (n, rest) =>
      let sum := (total + n) % 0x10000000000000000
      if 0x8000000000000000 < sum then .error (.invalid all) else parts all fuel rest sum

/-- The nanoseconds of a duration. -/
def read (t : Text) : Except Fault Int :=
  let (negative, body) :=
    match t with
    | 43 :: rest => (false, rest)
    | 45 :: rest => (true, rest)
    | _ => (false, t)
  if body == Text.lit "0" then .ok 0
  else if body.isEmpty then .error (.invalid t)
  else
    match parts t body.length body 0 with
    | .error e => .error e
    | .ok n =>
      if negative then .ok (-(n : Int))
      else if 0x8000000000000000 ≤ n then .error (.invalid t)
      else .ok n

end Duration

end Reckon
