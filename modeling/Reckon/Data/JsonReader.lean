import Reckon.Decimal.Reader
import Reckon.Text.Rune

/-!
# Reading JSON

`JsonValue.first?` reads the value at the start of a text and does not look at what follows it.
Numbers keep their spelling. An escaped character that is half of a surrogate pair, and every byte
that spells no character, is read as `U+FFFD`. Values nest at most `JsonValue.maxNesting` deep.
-/

namespace Reckon

/-- A JSON value. -/
inductive JsonValue where
  | null
  | bool (b : Bool)
  /-- A number as it was written. -/
  | number (literal : Text)
  | text (t : Text)
  | list (items : List JsonValue)
  /-- The members in the order in which they were written, repeated names included. -/
  | object (members : List (Text × JsonValue))
deriving Inhabited

namespace JsonValue

/-- Whether a byte may stand between the parts of a value. -/
def isSpace (b : UInt8) : Bool := b == 0x20 || b == 0x09 || b == 0x0A || b == 0x0D

/-- The text after the blanks at its start. -/
def skipSpace (t : Text) : Text := t.dropWhile isSpace

/-! ### Numbers -/

/-- A run of at least one digit, with the text after it. -/
def digits? (t : Text) : Option (Text × Text) :=
  let run := t.takeWhile Text.isDigitByte
  if run.isEmpty then none else some (run, t.dropWhile Text.isDigitByte)

/-- The digits before the point: a zero stands alone. -/
def wholePart? : Text → Option (Text × Text)
  | 0x30 :: rest => some ([0x30], rest)
  | t => digits? t

/-- The point and the digits after it, if there is a point. -/
def fractionPart? : Text → Option (Text × Text)
  | 0x2E :: rest => (digits? rest).map fun (run, rest) => (0x2E :: run, rest)
  | t => some ([], t)

/-- The exponent, if there is one. -/
def exponentPart? : Text → Option (Text × Text)
  | [] => some ([], [])
  | e :: rest =>
    if FloatText.small e == 'e'.toUInt8 then
      let (sign, rest) : Text × Text :=
        match rest with
        | 0x2B :: rest => ([0x2B], rest)
        | 0x2D :: rest => ([0x2D], rest)
        | rest => ([], rest)
      (digits? rest).map fun (run, rest) => (e :: sign ++ run, rest)
    else some ([], e :: rest)

/-- A number, with the text after it. -/
def number? (t : Text) : Option (JsonValue × Text) := do
  let (sign, rest) : Text × Text :=
    match t with
    | 0x2D :: rest => ([0x2D], rest)
    | t => ([], t)
  let (whole, rest) ← wholePart? rest
  let (fraction, rest) ← fractionPart? rest
  let (exponent, rest) ← exponentPart? rest
  return (number (sign ++ whole ++ fraction ++ exponent), rest)

/-! ### Texts -/

/-- A piece of a quoted text: a byte as it stands or a 16-bit code. -/
inductive Piece where
  | byte (b : UInt8)
  | code (n : Nat)

/-- The byte that a letter after a backslash stands for. -/
def escaped? (letter : UInt8) : Option UInt8 :=
  if letter == '"'.toUInt8 || letter == '\\'.toUInt8 || letter == '/'.toUInt8 then some letter
  else if letter == 'b'.toUInt8 then some 0x08
  else if letter == 'f'.toUInt8 then some 0x0C
  else if letter == 'n'.toUInt8 then some 0x0A
  else if letter == 'r'.toUInt8 then some 0x0D
  else if letter == 't'.toUInt8 then some 0x09
  else none

/-- The code that four hexadecimal digits spell. -/
def code? (digits : Text) : Option Nat :=
  digits.foldl (fun n d => do return 16 * (← n) + (← FloatText.digit? true d)) (some 0)

/-- The pieces up to the closing quotation mark, after those already read (last one first), with
the text after the mark. -/
def pieces? (done : List Piece) : Text → Option (List Piece × Text)
  | [] => none
  | b :: rest =>
    if b == '"'.toUInt8 then some (done.reverse, rest)
    else if b < 0x20 then none
    else if b != '\\'.toUInt8 then pieces? (.byte b :: done) rest
    else
      match rest with
      | [] => none
      | letter :: rest =>
        if letter == 'u'.toUInt8 then
          match rest with
          | a :: b :: c :: d :: rest =>
            match code? [a, b, c, d] with
            | some n => pieces? (.code n :: done) rest
            | none => none
          | _ => none
        else
          match escaped? letter with
          | some b => pieces? (.byte b :: done) rest
          | none => none

/-- Whether a code is the first half of a pair. -/
def isHighHalf (n : Nat) : Bool := 0xD800 ≤ n && n < 0xDC00

/-- Whether a code is the second half of a pair. -/
def isLowHalf (n : Nat) : Bool := 0xDC00 ≤ n && n < 0xE000

/-- The character of a code that is no part of a pair. -/
def codeChar (n : Nat) : Char :=
  if isHighHalf n || isLowHalf n then Rune.replacement else Char.ofNat n

/-- The bytes that some pieces spell, after those already written (last one first). -/
def spell (done : Text) : List Piece → Text
  | [] => done.reverse
  | .byte b :: rest => spell (b :: done) rest
  | .code high :: .code low :: rest =>
    if isHighHalf high && isLowHalf low then
      let c := Char.ofNat (0x10000 + (high - 0xD800) * 0x400 + (low - 0xDC00))
      spell ((Text.ofChar c).reverse ++ done) rest
    else spell ((Text.ofChar (codeChar high)).reverse ++ done) (.code low :: rest)
  | .code n :: rest => spell ((Text.ofChar (codeChar n)).reverse ++ done) rest

/-- A text after its opening quotation mark, with what follows its closing one. -/
def text? (t : Text) : Option (Text × Text) :=
  (pieces? [] t).map fun (l, rest) => (Text.repaired (spell [] l), rest)

/-! ### Values -/

/-- Items with commas between them up to a closing byte, after the items already read (last one
first), with the text after it. Each item takes a byte at least, so there are no more than `count`
of them in a text of that length. -/
def separated {α : Type} (item : Text → Option (α × Text)) (close : UInt8) :
    (count : Nat) → (done : List α) → Text → Option (List α × Text)
  | 0, _, _ => none
  | count + 1, done, t =>
    match item (skipSpace t) with
    | none => none
    | some (a, rest) =>
      match skipSpace rest with
      | [] => none
      | b :: rest =>
        if b == close then some ((a :: done).reverse, rest)
        else if b == ','.toUInt8 then separated item close count (a :: done) rest
        else none

/-- What stands between brackets, after the opening one. -/
def bracketed {α : Type} (item : Text → Option (α × Text)) (close : UInt8) (t : Text) :
    Option (List α × Text) :=
  match skipSpace t with
  | [] => none
  | b :: rest => if b == close then some ([], rest) else separated item close t.length [] t

/-- A member of an object, its value read as given. -/
def member? (value : Text → Option (JsonValue × Text)) :
    Text → Option ((Text × JsonValue) × Text)
  | [] => none
  | b :: rest =>
    if b != '"'.toUInt8 then none
    else
      match text? rest with
      | none => none
      | some (name, rest) =>
        match skipSpace rest with
        | [] => none
        | b :: rest =>
          if b != ':'.toUInt8 then none
          else (value (skipSpace rest)).map fun (v, rest) => ((name, v), rest)

/-- A value without parts, with the text after it. -/
def plain? (t : Text) : Option (JsonValue × Text) :=
  match Text.afterStart? (Text.lit "null") t with
  | some rest => some (null, rest)
  | none =>
    match Text.afterStart? (Text.lit "true") t with
    | some rest => some (bool true, rest)
    | none =>
      match Text.afterStart? (Text.lit "false") t with
      | some rest => some (bool false, rest)
      | none => number? t

/-- The value at the start of a text, with the text after it, when lists and objects may nest as
deep as given. -/
def value? : (nesting : Nat) → Text → Option (JsonValue × Text)
  | _, [] => none
  | nesting, b :: rest =>
    if b == '"'.toUInt8 then (text? rest).map fun (t, rest) => (text t, rest)
    else if b == '['.toUInt8 then
      match nesting with
      | 0 => none
      | nesting + 1 =>
        (bracketed (value? nesting) ']'.toUInt8 rest).map fun (l, rest) => (list l, rest)
    else if b == '\x7b'.toUInt8 then
      match nesting with
      | 0 => none
      | nesting + 1 =>
        (bracketed (member? (value? nesting)) '\x7d'.toUInt8 rest).map
          fun (l, rest) => (object l, rest)
    else plain? (b :: rest)

/-- How deep lists and objects may nest. -/
def maxNesting : Nat := 10000

/-- The value at the start of a text. -/
def first? (t : Text) : Option JsonValue :=
  (value? maxNesting (skipSpace t)).map Prod.fst

end JsonValue

end Reckon
