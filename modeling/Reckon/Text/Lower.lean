import Reckon.Text.Rune

/-!
# Comparing names without regard to case

The names that are matched this way (log levels, loggers, parameters) consist of ASCII letters
and hyphens, so only characters with an ASCII counterpart matter. Besides the ASCII capitals,
`U+0130` has the small letter `i` and `U+212A` (the kelvin sign) the small letter `k`. Folding, which
identifies all forms of a letter, adds `U+017F` (the long s), a form of `s`, and leaves out
`U+0130`, which is no form of `i`.
-/

namespace Reckon

namespace Text

/-- The small letter of a character, where it is an ASCII letter; other characters stay. -/
def lowerChar (c : Char) : Char :=
  if c == '\u0130' then 'i' else if c == '\u212A' then 'k' else c.toLower

/-- A text in small letters, as far as these are ASCII. -/
def lower (t : Text) : Text := ofChars (t.chars.map lowerChar)

/-- The representative of a character among all forms of the same ASCII letter. -/
def foldChar (c : Char) : Char :=
  if c == '\u017F' then 's' else if c == '\u212A' then 'k' else c.toLower

/-- Whether two texts are equal up to the forms of ASCII letters. -/
def foldEq (t u : Text) : Bool := t.chars.map foldChar == u.chars.map foldChar

end Text

end Reckon
