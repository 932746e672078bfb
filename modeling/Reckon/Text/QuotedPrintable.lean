import Reckon.Decimal.Reader

/-!
# Quoted-printable text

Bytes may be written as `=` and two hexadecimal digits. Blanks at the end of a line do not count, and
`=` at the end of a line joins the next one to it. An `=` that starts no such thing stands for itself,
and bytes outside of ASCII stand as they are, but control characters are refused.
-/

namespace Reckon

namespace QuotedPrintable

/-- How long a line may be, with its newline. -/
def maxLine : Nat := 4096

/-- Whether a byte at the end of a line does not count. -/
def isDiscarded (b : UInt8) : Bool :=
  b == ' '.toUInt8 || b == '\t'.toUInt8 || b == '\r'.toUInt8 || b == '\n'.toUInt8

/-- The bytes that a line stands for, after those already read (last byte first). -/
def bytes? (done : Text) : Text → Option Text
  | [] => some done.reverse
  | b :: rest =>
    if b == '='.toUInt8 then
      match rest with
      | [] => none
      | high :: low :: rest =>
        match FloatText.digit? true high, FloatText.digit? true low with
        | some high, some low => bytes? ((16 * high + low).toUInt8 :: done) rest
        | _, _ =>
          if high == '\r'.toUInt8 || high == '\n'.toUInt8 then none
          else bytes? (b :: done) (high :: low :: rest)
      | [high] =>
        if high == '\r'.toUInt8 || high == '\n'.toUInt8 then none
        else bytes? (b :: done) [high]
    else if isDiscarded b || (0x20 ≤ b && b != 0x7F) then bytes? (b :: done) rest
    else none

/-- The bytes that a line with its newline stands for. The last line has none. -/
def line? (line : Text) : Option Text :=
  let kept := (line.reverse.dropWhile isDiscarded).reverse
  let ending := line.drop kept.length
  let isLast := line.getLast? != some '\n'.toUInt8
  if maxLine < line.length || (isLast && maxLine ≤ line.length) then none
  else if kept.getLast? == some '='.toUInt8 then
    let joins := ending.head? == some '\n'.toUInt8 || ending.take 2 == Text.lit "\r\n"
      || (ending.isEmpty && 1 < kept.length)
    if joins then bytes? [] kept.dropLast else none
  else if isLast then bytes? [] kept
  else
    let newline := if line.drop (line.length - 2) == Text.lit "\r\n" then "\r\n" else "\n"
    bytes? [] (kept ++ Text.lit newline)

/-- The lines of a text with their newlines. -/
def lines (t : Text) : List Text :=
  t.foldr (fun b lines =>
    if b == '\n'.toUInt8 then [b] :: lines
    else
      match lines with
      | [] => [[b]]
      | line :: rest => (b :: line) :: rest) []

/-- The bytes that a text stands for, unless it is malformed. -/
def decode? (t : Text) : Option Text := ((lines t).mapM line?).map List.flatten

end QuotedPrintable

end Reckon
