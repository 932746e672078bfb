/-!
# Text as bytes

Equations, names and messages are sequences of bytes. They are usually UTF-8, but nothing in
the calculator relies on it: a byte that spells no character is carried along unchanged.

`Text.lit` gives the bytes of a string literal, and `Text.ofNat`, `Text.ofInt` and `Text.hex`
write numbers.
-/

namespace Reckon

/-- Any sequence of bytes, whether or not it is well-formed UTF-8. -/
abbrev Text := List UInt8

namespace Text

/-- The UTF-8 bytes of a string. -/
def lit (s : String) : Text := s.toUTF8.data.toList

/-- The UTF-8 bytes of one character. -/
def ofChar (c : Char) : Text := String.utf8EncodeChar c

/-- The UTF-8 bytes of a list of characters. -/
def ofChars (cs : List Char) : Text := cs.flatMap ofChar

/-- Decimal digits of a natural number, without leading zeros. -/
def ofNat (n : Nat) : Text := (Nat.toDigits 10 n).map Char.toUInt8

/-- Decimal digits of an integer, after a `-` when it is negative. -/
def ofInt (n : Int) : Text :=
  if n < 0 then '-'.toUInt8 :: ofNat n.natAbs else ofNat n.natAbs

/-- Lower-case hexadecimal digits, padded with zeros on the left to at least `width`. -/
def hex (width n : Nat) : Text :=
  let digits := (Nat.toDigits 16 n).map Char.toUInt8
  List.replicate (width - digits.length) '0'.toUInt8 ++ digits

/-- The decimal number that a run of ASCII digits spells. -/
def digitsToNat (digits : Text) : Nat :=
  digits.foldl (fun n d => 10 * n + (d.toNat - 48)) 0

/-- Whether a byte is one of the ASCII digits `0` to `9`. -/
def isDigitByte (b : UInt8) : Bool := 48 ≤ b && b ≤ 57

/-- The texts joined with a separator between neighbours. -/
def join (separator : Text) : List Text → Text
  | [] => []
  | [t] => t
  | t :: rest => t ++ separator ++ join separator rest

/-- Cuts a text at every occurrence of a byte. The result is never empty. -/
def splitOn (separator : UInt8) (t : Text) : List Text :=
  t.foldr (fun b pieces =>
    if b == separator then [] :: pieces
    else
      match pieces with
      | [] => [[b]]
      | piece :: rest => (b :: piece) :: rest) [[]]

/-- Splits a text at the first occurrence of a byte, which belongs to neither part. -/
def cut (separator : UInt8) (t : Text) : Option (Text × Text) :=
  match t.dropWhile fun b => b != separator with
  | [] => none
  | _ :: after => some (t.takeWhile fun b => b != separator, after)

/-- The rest of a text after a given beginning. -/
def afterStart? : Text → Text → Option Text
  | [], t => some t
  | _ :: _, [] => none
  | a :: start, b :: t => if a == b then afterStart? start t else none

/-- The text without one given last byte, if it ends in it. -/
def dropLastByte (b : UInt8) (t : Text) : Text :=
  if t.getLast? == some b then t.dropLast else t

end Text

end Reckon
