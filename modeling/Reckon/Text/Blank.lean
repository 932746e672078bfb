import Reckon.Text.Ranges
import Reckon.Text.Rune

/-!
# White space

The characters with the property `White_Space`. A line that has no other characters holds no
equation.
-/

namespace Reckon

namespace Text

/-- The characters that are white space. -/
def blankRanges : CodeRanges :=
  [(0x9, 0xd), (0x20, 0x20), (0x85, 0x85), (0xa0, 0xa0), (0x1680, 0x1680), (0x2000, 0x200a),
   (0x2028, 0x2029), (0x202f, 0x202f), (0x205f, 0x205f), (0x3000, 0x3000)]

/-- Whether a character is white space. -/
def isBlank (c : Char) : Bool := CodeRanges.mem c.toNat blankRanges

/-- Whether a text has no characters but white space. -/
def isAllBlank (t : Text) : Bool := t.chars.all isBlank

/-- The text without the white space at its two ends. -/
def trimmed (t : Text) : Text :=
  let inner := (t.runes.dropWhile fun r => isBlank r.char).reverse.dropWhile fun r => isBlank r.char
  inner.reverse.flatMap Rune.spelling

end Text

end Reckon
