import Reckon.Text.Printable
import Reckon.Text.Rune

/-!
# Quoted text

Messages show foreign text between quotation marks. Printable characters stand for themselves;
the mark itself and the backslash are escaped with a backslash, the common controls have a
letter, and everything else is a hexadecimal escape: `\x7f` for controls and for bytes that
spell no character, `\u00ad` up to `U+FFFF`, `\U000e0001` above.
-/

namespace Reckon

namespace Text

/-- The letter that follows the backslash for the controls that have one. -/
def controlLetter? (c : Char) : Option Char :=
  match c.toNat with
  | 0x07 => some 'a'
  | 0x08 => some 'b'
  | 0x0C => some 'f'
  | 0x0A => some 'n'
  | 0x0D => some 'r'
  | 0x09 => some 't'
  | 0x0B => some 'v'
  | _ => none

/-- A character as it is written inside quotation marks of the given kind. -/
def escapedChar (mark c : Char) : Text :=
  if c == mark || c == '\\' then ofChar '\\' ++ ofChar c
  else if isPrintable c then ofChar c
  else
    match controlLetter? c with
    | some letter => ofChar '\\' ++ ofChar letter
    | none =>
      if c.toNat < 0x80 then lit "\\x" ++ hex 2 c.toNat
      else if c.toNat < 0x10000 then lit "\\u" ++ hex 4 c.toNat
      else lit "\\U" ++ hex 8 c.toNat

/-- A rune as it is written inside double quotation marks. -/
def escapedRune (r : Rune) : Text :=
  if r.isInvalid then r.spelling.flatMap fun b => lit "\\x" ++ hex 2 b.toNat
  else escapedChar '"' r.char

/-- Some runes between double quotation marks. -/
def quoteRunes (rs : List Rune) : Text := lit "\"" ++ rs.flatMap escapedRune ++ lit "\""

/-- A text between double quotation marks. -/
def quote (t : Text) : Text := quoteRunes t.runes

/-- The first `n` runes of a text between double quotation marks. -/
def quoteFirst (n : Nat) (t : Text) : Text := quoteRunes (t.runes.take n)

/-- A character between single quotation marks. -/
def quoteChar (c : Char) : Text := lit "'" ++ escapedChar '\'' c ++ lit "'"

end Text

end Reckon
