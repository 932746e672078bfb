import Reckon.Text.Basic

/-!
# Base64

Bytes written as letters that stand for six bits each. Four letters make three bytes; at the end
two letters and two equality signs make one byte, and three letters and one sign make two. Line
breaks may stand anywhere and mean nothing.
-/

namespace Reckon

namespace Base64

/-- The six bits that a letter stands for. -/
def sextet? (b : UInt8) : Option Nat :=
  if 65 ≤ b && b ≤ 90 then some (b.toNat - 65)
  else if 97 ≤ b && b ≤ 122 then some (b.toNat - 71)
  else if 48 ≤ b && b ≤ 57 then some (b.toNat + 4)
  else if b == '+'.toUInt8 then some 62
  else if b == '/'.toUInt8 then some 63
  else none

/-- The bytes that groups of four letters stand for. Bits left over at the end are dropped. -/
def groups? : Text → Option Text
  | [] => some []
  | [a, b, 61, 61] => do
    let a ← sextet? a
    let b ← sextet? b
    some [(a * 4 + b / 16).toUInt8]
  | [a, b, c, 61] => do
    let a ← sextet? a
    let b ← sextet? b
    let c ← sextet? c
    some [(a * 4 + b / 16).toUInt8, (b * 16 + c / 4).toUInt8]
  | a :: b :: c :: d :: rest => do
    let a ← sextet? a
    let b ← sextet? b
    let c ← sextet? c
    let d ← sextet? d
    let rest ← groups? rest
    some ((a * 4 + b / 16).toUInt8 :: (b * 16 + c / 4).toUInt8 :: (c * 64 + d).toUInt8 :: rest)
  | _ => none

/-- The bytes that a text stands for, if it is written in this way. -/
def decode? (t : Text) : Option Text := groups? (t.filter fun b => b != 10 && b != 13)

end Base64

end Reckon
