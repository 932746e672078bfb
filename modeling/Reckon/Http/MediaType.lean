import Reckon.Http.Form
import Reckon.Text.Blank
import Reckon.Text.Lower

/-!
# Media types

A media type is a pair of words such as `text/html`, followed by parameters `; name=value`. Case does
not matter in the words and in the names of parameters. A long value may be cut into numbered pieces
`name*0`, `name*1` and so on, and a star at the end of a name tells that the value has escaped bytes,
with the name of a character set in front of them.
-/

namespace Reckon

/-- The kind of a body, with the parameters of the kind. -/
structure MediaType where
  name : Text
  parameters : List (Text × Text)
deriving DecidableEq, Repr

namespace MediaType

/-- Whether a byte is punctuation that no word contains. -/
def isSpecial (b : UInt8) : Bool := (Text.lit "()<>@,;:\\\"/[]?=").contains b

/-- Whether a byte may occur in a word. -/
def isWordByte (b : UInt8) : Bool := 0x20 < b && b < 0x7F && !isSpecial b

/-- The word at the start of a text, possibly empty, with the text after it. -/
def word (t : Text) : Text × Text := (t.takeWhile isWordByte, t.dropWhile isWordByte)

/-- The text after the white space at its start. -/
def skipBlanks (t : Text) : Text :=
  (t.runes.dropWhile fun r => Text.isBlank r.char).flatMap Rune.spelling

/-- The rest of a quoted value after what was already read (last byte first) and possibly a
backslash, with the text after the closing mark. A backslash protects punctuation only. -/
def quoted? (backslash : Bool) (done : Text) : Text → Option (Text × Text)
  | [] => none
  | b :: rest =>
    if backslash && isSpecial b then quoted? false (b :: done) rest
    else
      let done := if backslash then '\\'.toUInt8 :: done else done
      if b == '"'.toUInt8 then some (done.reverse, rest)
      else if b == '\r'.toUInt8 || b == '\n'.toUInt8 then none
      else if b == '\\'.toUInt8 then quoted? true done rest
      else quoted? false (b :: done) rest

/-- The value of a parameter, a word or a quoted text. -/
def value? (t : Text) : Option (Text × Text) :=
  match t with
  | [] => none
  | b :: rest =>
    if b == '"'.toUInt8 then quoted? false [] rest
    else
      match word t with
      | ([], _) => none
      | found => some found

/-- The text after a given byte that white space may precede. -/
def after? (b : UInt8) (t : Text) : Option Text :=
  match skipBlanks t with
  | [] => none
  | c :: rest => if c == b then some (skipBlanks rest) else none

/-- A parameter with the semicolon in front of it. -/
def parameter? (t : Text) : Option ((Text × Text) × Text) := do
  let rest ← after? ';'.toUInt8 t
  let (name, rest) := word rest
  if name.isEmpty then none
  else
    let rest ← after? '='.toUInt8 rest
    let (value, rest) ← value? rest
    return ((Text.lower name, value), rest)

/-- The parameters up to the end of a text, of which there are fewer than `count`. A lone semicolon
may end them, and a name may only come again with the same value. -/
def parameters? : (count : Nat) → List (Text × Text) → Text → Option (List (Text × Text))
  | 0, _, _ => none
  | count + 1, found, t =>
    if Text.isAllBlank t then some found
    else
      match parameter? t with
      | none => if Text.trimmed t == Text.lit ";" then some found else none
      | some ((name, value), rest) =>
        match found.find? fun p => p.1 == name with
        | none => parameters? count (found ++ [(name, value)]) rest
        | some (_, earlier) => if earlier == value then parameters? count found rest else none

/-- Whether a text is one word, or two with a slash between them. -/
def isName (t : Text) : Bool :=
  match word t with
  | ([], _) => false
  | (_, []) => true
  | (_, slash :: rest) =>
    match word rest with
    | ([], _) => false
    | (_, after) => slash == '/'.toUInt8 && after.isEmpty

/-- Reads a media type. -/
def read? (t : Text) : Option MediaType :=
  let isBody (b : UInt8) : Bool := b != ';'.toUInt8
  let name := Text.trimmed (Text.lower (t.takeWhile isBody))
  if isName name then
    (parameters? (t.length + 1) [] (t.dropWhile isBody)).map fun parameters => ⟨name, parameters⟩
  else none

/-! ### Values of parameters -/

/-- The value written behind a name, stars and numbers included. -/
def stated? (m : MediaType) (name : Text) : Option Text :=
  (m.parameters.find? fun p => p.1 == name).map Prod.snd

/-- A value with escaped bytes, behind the names of a character set and of a language, each followed
by an apostrophe. The language does not matter. -/
def escapedValue? (t : Text) : Option Text := do
  let (charset, rest) ← Text.cut '\''.toUInt8 t
  let (_, value) ← Text.cut '\''.toUInt8 rest
  if [Text.lit "us-ascii", Text.lit "utf-8"].contains (Text.lower charset) then
    Form.unescape? false [] value
  else none

/-- A piece of a value. Only the first piece names a character set. -/
def piece? (m : MediaType) (name : Text) (number : Nat) : Option Text :=
  let numbered := name ++ Text.lit "*" ++ Text.ofNat number
  match m.stated? numbered with
  | some value => some value
  | none => (m.stated? (numbered ++ Text.lit "*")).map fun value =>
    (if number == 0 then escapedValue? value else Form.unescape? false [] value).getD []

/-- The pieces of a value from a number on, of which there are at most `count`. -/
def piecesFrom (m : MediaType) (name : Text) : (count number : Nat) → List Text
  | 0, _ => []
  | count + 1, number =>
    match m.piece? name number with
    | some piece => piece :: piecesFrom m name count (number + 1)
    | none => []

/-- The value of a parameter. Pieces and escapes come before the plain form. -/
def parameterValue? (m : MediaType) (parameter : String) : Option Text :=
  let name := Text.lit parameter
  match m.stated? (name ++ Text.lit "*") with
  | some value => (escapedValue? value).or (m.stated? name)
  | none =>
    match m.piecesFrom name m.parameters.length 0 with
    | [] => m.stated? name
    | pieces => some pieces.flatten

end MediaType

end Reckon
