import Reckon.Data.Basic

/-!
# Writing documents as MessagePack

Every value starts with a byte that tells its kind, followed by what belongs to it, numbers with
the most significant byte first. Integers and lengths take the shortest form that holds them, and
integers that are not negative are written as unsigned ones.
-/

namespace Reckon

namespace Data

/-- A number in the given count of bytes, the most significant one first; what does not fit is
dropped. -/
def bigEndian (width n : Nat) : Text :=
  (List.range width).reverse.map fun i => (n / Nat.pow 256 i).toUInt8

/-- An integer, in the shortest form. -/
def packInt (n : Int) : Text :=
  let positive := n.toNat
  let complement (width : Nat) : Text := bigEndian width (n + Nat.pow 256 width).toNat
  if 0 ≤ n then
    if n < 0x80 then bigEndian 1 positive
    else if n < 0x100 then 0xcc :: bigEndian 1 positive
    else if n < 0x10000 then 0xcd :: bigEndian 2 positive
    else if n < 0x100000000 then 0xce :: bigEndian 4 positive
    else 0xcf :: bigEndian 8 positive
  else if -0x20 ≤ n then complement 1
  else if -0x80 ≤ n then 0xd0 :: complement 1
  else if -0x8000 ≤ n then 0xd1 :: complement 2
  else if -0x80000000 ≤ n then 0xd2 :: complement 4
  else 0xd3 :: complement 8

/-- A text, after its length in bytes. -/
def packText (t : Text) : Text :=
  let n := t.length
  let head : Text :=
    if n < 0x20 then [0xa0 + n.toUInt8]
    else if n < 0x100 then 0xd9 :: bigEndian 1 n
    else if n < 0x10000 then 0xda :: bigEndian 2 n
    else 0xdb :: bigEndian 4 n
  head ++ t

/-- What precedes a given number of fields. -/
def packHead (n : Nat) : Text :=
  if n < 0x10 then [0x80 + n.toUInt8]
  else if n < 0x10000 then 0xde :: bigEndian 2 n
  else 0xdf :: bigEndian 4 n

mutual

/-- A document as MessagePack. -/
def msgpack : Data → Text
  | bool b => [if b then 0xc3 else 0xc2]
  | int n => packInt n.toInt
  | float x => 0xcb :: bigEndian 8 x.toBits.toNat
  | text t => packText t
  | fields l => packHead l.length ++ packFields l

/-- Some fields as MessagePack, names and values in turn. -/
def packFields : List (Text × Data) → Text
  | [] => []
  | (name, d) :: rest => packText name ++ d.msgpack ++ packFields rest

end

end Data

end Reckon
