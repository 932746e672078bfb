import Reckon.Data.Basic
import Reckon.Text.Rune

/-!
# Writing documents as JSON

Fields are written in the order of the document, without blanks. Texts are written so that they can
stand inside HTML and scripts: besides what JSON demands, `<`, `>`, `&` and the two line separators
`U+2028` and `U+2029` are escaped. A byte that spells no character is written as `U+FFFD`.
-/

namespace Reckon

namespace Data

/-- The letter that follows the backslash for the controls that have one. -/
def jsonLetter? (c : Char) : Option Char :=
  match c.toNat with
  | 0x08 => some 'b'
  | 0x0C => some 'f'
  | 0x0A => some 'n'
  | 0x0D => some 'r'
  | 0x09 => some 't'
  | _ => none

/-- Whether a character is written by its code. -/
def jsonEscapes (c : Char) : Bool :=
  c.toNat < 0x20 || c == '<' || c == '>' || c == '&' || c == '\u2028' || c == '\u2029'

/-- A character inside quotation marks. -/
def jsonChar (c : Char) : Text :=
  if c == '"' || c == '\\' then Text.ofChar '\\' ++ Text.ofChar c
  else
    match jsonLetter? c with
    | some letter => Text.ofChar '\\' ++ Text.ofChar letter
    | none => if jsonEscapes c then Text.lit "\\u" ++ Text.hex 4 c.toNat else Text.ofChar c

/-- A text between quotation marks. -/
def jsonText (t : Text) : Text := Text.lit "\"" ++ t.chars.flatMap jsonChar ++ Text.lit "\""

mutual

/-- A document as JSON. -/
def json : Data → Text
  | bool b => Text.lit (if b then "true" else "false")
  | int n => Text.ofInt n.toInt
  | float x => FloatLayout.json.format x
  | text t => jsonText t
  | fields l => Text.lit "\x7b" ++ Text.join (Text.lit ",") (jsonFields l) ++ Text.lit "\x7d"

/-- Each of some fields as JSON. -/
def jsonFields : List (Text × Data) → List Text
  | [] => []
  | (name, d) :: rest => (jsonText name ++ Text.lit ":" ++ d.json) :: jsonFields rest

end

end Data

end Reckon
