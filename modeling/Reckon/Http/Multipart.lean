import Reckon.Http.MediaType
import Reckon.Text.QuotedPrintable

/-!
# Bodies of several parts

A body of several parts is divided by lines that consist of `--` and a boundary chosen by the
sender; the last one has `--` after it as well. Each part has header lines, an empty line and its
content. What stands before the first dividing line and after the last one does not count. Lines end
with `\r\n`, or all of them with `\n`, which the first dividing line tells.

A part of a form says its name in the header `Content-Disposition`, and may be the content of a file.
The content may be written as quoted-printable text. A body that ends in the header of a part is read
up to that part.
-/

namespace Reckon

/-- A part of a form. -/
structure FormPart where
  name : Text
  /-- Whether the part comes from a file. -/
  isFile : Bool
  content : Text
deriving DecidableEq, Repr

namespace Multipart

/-- How long a dividing line, or a line before the first one, may be with its newline. -/
def maxLine : Nat := 4096

/-- How many parts a body may have. -/
def maxParts : Nat := 1000

/-- How many header lines a part may have. -/
def maxHeaders : Nat := 10000

/-- A line at the start of a text. -/
inductive Line where
  /-- A line with its newline, and the text after it. -/
  | whole (line rest : Text)
  /-- The end of the text, without a newline. -/
  | last (line : Text)
  | tooLong

/-- The line at the start of a text. -/
def Line.of (t : Text) : Line :=
  let inside (b : UInt8) : Bool := b != '\n'.toUInt8
  let line := (t.take maxLine).takeWhile inside
  if line.length == maxLine then .tooLong
  else
    match t.drop line.length with
    | newline :: rest => .whole (line ++ [newline]) rest
    | [] => .last line

/-- The text after the blanks and tabs at its start. -/
def skipBlanks (t : Text) : Text :=
  t.dropWhile fun b => b == ' '.toUInt8 || b == '\t'.toUInt8

/-- How the parts of a body are divided. -/
structure Divider where
  /-- `--` and the boundary. -/
  dashes : Text
  newline : Text

namespace Divider

/-- Whether a line starts a part. -/
def starts (d : Divider) (line : Text) : Bool :=
  match Text.afterStart? d.dashes line with
  | some rest => skipBlanks rest == d.newline
  | none => false

/-- Whether a line, which may lack its newline, ends the last part. -/
def ends (d : Divider) (line : Text) : Bool :=
  match Text.afterStart? (d.dashes ++ Text.lit "--") line with
  | some rest => (skipBlanks rest).isEmpty || skipBlanks rest == d.newline
  | none => false

/-- Whether what follows `--` and the boundary makes a dividing line of it. -/
def closes : Text → Bool
  | [] => true
  | b :: rest =>
    b == ' '.toUInt8 || b == '\t'.toUInt8 || b == '\r'.toUInt8 || b == '\n'.toUInt8
      || (b == '-'.toUInt8 && rest.head? == some '-'.toUInt8)

/-- The content of a part after what was already read (last byte first), with the text from the
newline in front of the dividing line on. -/
def content? (d : Divider) (done : Text) : Text → Option (Text × Text)
  | [] => none
  | b :: rest =>
    match Text.afterStart? (d.newline ++ d.dashes) (b :: rest) with
    | some after =>
      if closes after then some (done.reverse, b :: rest) else content? d (b :: done) rest
    | none => content? d (b :: done) rest

end Divider

/-! ### Headers -/

/-- Whether a byte is a blank or a tab. -/
def isBlank (b : UInt8) : Bool := b == ' '.toUInt8 || b == '\t'.toUInt8

/-- The text without blanks and tabs at its ends. -/
def trim (t : Text) : Text := ((t.dropWhile isBlank).reverse.dropWhile isBlank).reverse

/-- The first line of a text without its newline, and the text after it. -/
def cutLine (t : Text) : Text × Text :=
  match Text.cut '\n'.toUInt8 t with
  | some (line, rest) => (Text.dropLastByte '\r'.toUInt8 line, rest)
  | none => (t, [])

/-- A header line with the lines that start with a blank and continue it, and the text after them.
There are fewer than `count` of them. -/
def continued : (count : Nat) → Text → Text → Text × Text
  | 0, line, t => (line, t)
  | count + 1, line, t =>
    match t with
    | [] => (line, [])
    | b :: _ =>
      if isBlank b then
        let (more, rest) := cutLine (t.dropWhile isBlank)
        continued count (line ++ Text.lit " " ++ trim more) rest
      else (line, t)

/-- Whether a byte may occur in the name of a header. -/
def isNameByte (b : UInt8) : Bool :=
  MediaType.isWordByte b && b != '\x7b'.toUInt8 && b != '\x7d'.toUInt8

/-- Whether a byte may occur in the value of a header. -/
def isValueByte (b : UInt8) : Bool := b == '\t'.toUInt8 || (0x20 ≤ b && b != 0x7F)

/-- A header with its name in small letters. A name may hold blanks, but then it is none of those
that matter. -/
def header? (line : Text) : Option (Text × Text) := do
  let (name, value) ← Text.cut ':'.toUInt8 line
  if name.isEmpty || !name.all (fun b => isNameByte b || b == ' '.toUInt8) then none
  else if !value.all isValueByte then none
  else some (Text.lower name, value.dropWhile isBlank)

/-- What stands at the start of a part. -/
inductive Headers where
  /-- The headers, and the text after the empty line behind them. -/
  | read (headers : List (Text × Text)) (rest : Text)
  /-- The text ends before the empty line. -/
  | unfinished
  | malformed

/-- Reads headers up to the empty line, after those already read (last one first). There may be fewer
than `count` of them. -/
def headersFrom : (count : Nat) → List (Text × Text) → Text → Headers
  | 0, _, _ => .malformed
  | count + 1, done, t =>
    let (line, rest) := cutLine t
    if t.isEmpty then .unfinished
    else if line.isEmpty then .read done.reverse rest
    else if !line.contains ':'.toUInt8 then .malformed
    else
      let (line, rest) := continued rest.length (trim line) rest
      match header? line with
      | some header => headersFrom count (header :: done) rest
      | none => .malformed

/-- The headers of a part. The first line may not start with a blank. -/
def headers (t : Text) : Headers :=
  match t with
  | [] => .unfinished
  | b :: _ => if isBlank b then .malformed else headersFrom (maxHeaders + 1) [] t

/-- The first header of a name. -/
def valueOf (headers : List (Text × Text)) (name : String) : Text :=
  ((headers.find? fun h => h.1 == Text.lit name).map Prod.snd).getD []

/-! ### Parts -/

/-- The name of a part with the given headers, and whether it is a file; nothing if it has no name. -/
def nameOf? (headers : List (Text × Text)) : Option (Text × Bool) := do
  let disposition ← MediaType.read? (valueOf headers "content-disposition")
  let name ← disposition.parameterValue? "name"
  if disposition.name != Text.lit "form-data" || name.isEmpty then none
  else
    let file := (disposition.parameterValue? "filename").getD []
    return (name, !file.isEmpty)

/-- The content that is meant by a written one. -/
def decoded? (headers : List (Text × Text)) (content : Text) : Option Text :=
  let encoding := valueOf headers "content-transfer-encoding"
  if Text.foldEq encoding (Text.lit "quoted-printable") then QuotedPrintable.decode? content
  else some content

/-- The part that headers and a content make, if it has a name; fails if the content is malformed. -/
def part? (headers : List (Text × Text)) (content : Text) : Option (List FormPart) :=
  match nameOf? headers with
  | none => some []
  | some (name, isFile) => (decoded? headers content).map fun content => [⟨name, isFile, content⟩]

/-- The content of a part, with the text from the dividing line on. -/
def contentAndRest? (d : Divider) (t : Text) : Option (Text × Text) :=
  match (Text.afterStart? d.dashes t).filter Divider.closes with
  | some _ => some ([], t)
  | none => (d.content? [] t).map fun (content, rest) => (content, rest.drop d.newline.length)

/-- The named parts of a body from a dividing line on, of which there are fewer than `count`. -/
def parts? (d : Divider) : (count : Nat) → Text → Option (List FormPart)
  | 0, _ => none
  | count + 1, t =>
    match Line.of t with
    | .tooLong => none
    | .last line => if d.ends line then some [] else none
    | .whole line rest =>
      if d.starts line then
        match headers rest with
        | .malformed => none
        | .unfinished => some []
        | .read headers rest => do
          let (content, rest) ← contentAndRest? d rest
          let here ← part? headers content
          let later ← parts? d count rest
          return here ++ later
      else if d.ends line then some []
      else none

/-- The text from the first dividing line on, of which there are fewer than `count` lines before,
and how parts are divided. -/
def firstDivider? (dashes : Text) : (count : Nat) → Text → Option (Divider × Text)
  | 0, _ => none
  | count + 1, t =>
    let usual : Divider := ⟨dashes, Text.lit "\r\n"⟩
    let short : Divider := ⟨dashes, Text.lit "\n"⟩
    match Line.of t with
    | .tooLong => none
    | .last line => if usual.ends line then some (usual, t) else none
    | .whole line rest =>
      if usual.starts line || usual.ends line then some (usual, t)
      else if short.starts line then some (short, t)
      else firstDivider? dashes count rest

/-- The named parts of a body. -/
def read? (boundary body : Text) : Option (List FormPart) :=
  if boundary.isEmpty then none
  else do
    let (d, rest) ← firstDivider? (Text.lit "--" ++ boundary) (body.length + 1) body
    parts? d (maxParts + 1) rest

end Multipart

end Reckon
