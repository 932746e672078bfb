import Reckon.Decimal.Reader
import Reckon.Text.Base64
import Reckon.Yaml.Node

/-!
# What plain scalars mean

A scalar without quotation marks and tag means what its text looks like: nothing, a truth value, a
number, a date, or else just the text. Integers may have a base mark, a leading zero makes them
octal, and underscores are passed over; `yes`, `on` and the like are truth values. A tag may ask for
one of these meanings, or for bytes in base64.
-/

namespace Reckon

namespace Yaml

/-- What a scalar means. -/
inductive Meaning where
  | null
  | bool (b : Bool)
  | int (n : Int)
  | float (x : Float)
  | timestamp
  | text
  | binary (data : Text)

/-- The beginning that all standard tags share. -/
def tagStart : Text := Text.lit "tag:yaml.org,2002:"

/-- A standard tag in full. -/
def standardTag (name : String) : Text := tagStart ++ Text.lit name

/-- The tag of a meaning. -/
def Meaning.tag : Meaning → Text
  | null => standardTag "null"
  | bool _ => standardTag "bool"
  | int _ => standardTag "int"
  | float _ => standardTag "float"
  | timestamp => standardTag "timestamp"
  | text => standardTag "str"
  | binary _ => standardTag "binary"

/-- A tag as it is shown: standard tags with two exclamation marks. -/
def shortTag (tag : Text) : Text :=
  match Text.afterStart? tagStart tag with
  | some name => Text.lit "!!" ++ name
  | none => tag

/-! ### Words -/

/-- The words with a meaning of their own. -/
def wordMeaning? (t : Text) : Option Meaning :=
  let among (words : List String) : Bool := words.any fun w => Text.lit w == t
  if among ["y", "Y", "yes", "Yes", "YES", "true", "True", "TRUE", "on", "On", "ON"] then
    some (.bool true)
  else if among ["n", "N", "no", "No", "NO", "false", "False", "FALSE", "off", "Off", "OFF"] then
    some (.bool false)
  else if among ["", "~", "null", "Null", "NULL"] then some .null
  else if among [".nan", ".NaN", ".NAN"] then some (.float (Float.ofBits 0x7FF8000000000000))
  else if among [".inf", ".Inf", ".INF", "+.inf", "+.Inf", "+.INF"] then
    some (.float (Float.ofBits 0x7FF0000000000000))
  else if among ["-.inf", "-.Inf", "-.INF"] then some (.float (Float.ofBits 0xFFF0000000000000))
  else none

/-! ### Integers -/

/-- The value of digits in a base up to sixteen; there may be none. -/
def digitsIn? (base : Nat) (t : Text) : Option Nat :=
  t.foldlM (fun n b =>
    match FloatText.digit? true b with
    | some d => if d < base then some (base * n + d) else none
    | none => none) 0

/-- The value of digits after an optional base mark. -/
def magnitude? (t : Text) : Option Nat :=
  match t with
  | [] => none
  | 48 :: mark :: d :: rest =>
    match FloatText.small mark with
    | 98 => digitsIn? 2 (d :: rest)
    | 111 => digitsIn? 8 (d :: rest)
    | 120 => digitsIn? 16 (d :: rest)
    | _ => digitsIn? 8 (mark :: d :: rest)
  | 48 :: rest => digitsIn? 8 rest
  | _ => digitsIn? 10 t

/-- An integer of at most 64 bits, which may use all of them if it has no sign. -/
def bounded? (signed negative : Bool) (n : Nat) : Option Int :=
  if negative then (if n ≤ 0x8000000000000000 then some (-(n : Int)) else none)
  else if n < 0x8000000000000000 || (!signed && n < 0x10000000000000000) then some n
  else none

/-- The integer that a text spells. -/
def integer? (t : Text) : Option Int := do
  let (negative, body) := FloatText.sign t
  let n ← magnitude? body
  bounded? (body.length < t.length) negative n

/-- The integer that a sign and binary digits after the mark `0b` spell. -/
def binaryInteger? (t : Text) : Option Int :=
  let signedBinary (t : Text) : Option Int := do
    let (negative, body) := FloatText.sign t
    if body.isEmpty then none
    else bounded? (body.length < t.length) negative (← digitsIn? 2 body)
  match Text.afterStart? (Text.lit "0b") t with
  | some digits => signedBinary digits
  | none =>
    match Text.afterStart? (Text.lit "-0b") t with
    | some digits => signedBinary (Text.lit "-" ++ digits)
    | none => none

/-! ### Floats -/

/-- Whether a text has the form of a decimal float: digits with at most one point and an optional
exponent. -/
def isFloatForm (t : Text) : Bool :=
  let (_, body) := FloatText.sign t
  let whole := body.takeWhile Text.isDigitByte
  let rest := body.dropWhile Text.isDigitByte
  let (hasDigits, rest) :=
    match rest with
    | 46 :: rest =>
      (!whole.isEmpty || rest.head?.any Text.isDigitByte, rest.dropWhile Text.isDigitByte)
    | rest => (!whole.isEmpty, rest)
  match rest with
  | [] => hasDigits
  | e :: rest =>
    let (_, digits) := FloatText.sign rest
    hasDigits && FloatText.small e == 'e'.toUInt8 && !digits.isEmpty &&
      digits.all Text.isDigitByte

/-! ### Dates -/

/-- Reads a number of one or two digits. -/
def shortNumber? : Text → Option (Nat × Text)
  | a :: b :: rest =>
    if !Text.isDigitByte a then none
    else if Text.isDigitByte b then some (Text.digitsToNat [a, b], rest)
    else some (Text.digitsToNat [a], b :: rest)
  | [a] => if Text.isDigitByte a then some (Text.digitsToNat [a], []) else none
  | [] => none

/-- The number of days of a month. -/
def daysIn (year month : Nat) : Nat :=
  if month == 2 then
    if year % 4 == 0 && (year % 100 != 0 || year % 400 == 0) then 29 else 28
  else if [4, 6, 9, 11].contains month then 30
  else 31

/-- Takes a given byte off. -/
def expect? (c : Char) : Text → Option Text
  | b :: rest => if b == c.toUInt8 then some rest else none
  | [] => none

/-- Reads a date, with a four-digit year. -/
def date? (t : Text) : Option Text := do
  let year := t.takeWhile Text.isDigitByte
  if year.length != 4 then none
  else
    let rest ← expect? '-' (t.drop 4)
    let (month, rest) ← shortNumber? rest
    let rest ← expect? '-' rest
    let (day, rest) ← shortNumber? rest
    let valid := 1 ≤ month && month ≤ 12 && 1 ≤ day && day ≤ daysIn (Text.digitsToNat year) month
    if valid then some rest else none

/-- Reads a time of day, with an optional fraction of a second. -/
def time? (t : Text) : Option Text := do
  let (hour, rest) ← shortNumber? t
  let rest ← expect? ':' rest
  let (minute, rest) ← shortNumber? rest
  let rest ← expect? ':' rest
  let (second, rest) ← shortNumber? rest
  if 24 ≤ hour || 60 ≤ minute || 60 ≤ second then none
  else
    match rest with
    | point :: digit :: more =>
      if (point == '.'.toUInt8 || point == ','.toUInt8) && Text.isDigitByte digit then
        some (more.dropWhile Text.isDigitByte)
      else some rest
    | _ => some rest

/-- Whether a text is a time zone: `Z`, or a difference in hours and minutes. -/
def isZone (t : Text) : Bool :=
  match t with
  | [90] => true
  | s :: rest =>
    (s == '+'.toUInt8 || s == '-'.toUInt8) && rest.length == 5 &&
      (rest.take 2).all Text.isDigitByte && rest[2]? == some ':'.toUInt8 &&
      (rest.drop 3).all Text.isDigitByte && Text.digitsToNat (rest.take 2) ≤ 24 &&
      Text.digitsToNat (rest.drop 3) ≤ 60
  | [] => false

/-- Whether a text is a date, alone or with a time of day. The time follows blanks, or the letter
`T` and then it has a zone. -/
def isTimestamp (t : Text) : Bool :=
  match date? t with
  | none => false
  | some [] => true
  | some (separator :: rest) =>
    if separator == ' '.toUInt8 then time? (rest.dropWhile (· == ' '.toUInt8)) == some []
    else if separator == 'T'.toUInt8 || separator == 't'.toUInt8 then (time? rest).any isZone
    else false

/-! ### All together -/

/-- The meaning of a text that starts with a digit or a sign. -/
def numberMeaning (dates : Bool) (t : Text) : Meaning :=
  if dates && isTimestamp t then .timestamp
  else
    let digits := t.filter (· != '_'.toUInt8)
    match integer? digits with
    | some n => .int n
    | none =>
      let float? := if isFloatForm digits then (FloatText.read digits).toOption else none
      match float? with
      | some x => .float x
      | none =>
        match binaryInteger? digits with
        | some n => .int n
        | none => .text

/-- The meaning of a plain text. Dates are looked for on demand. -/
def plainMeaning (dates : Bool) (t : Text) : Meaning :=
  match t with
  | [] => .null
  | b :: _ =>
    if Text.isDigitByte b || b == '+'.toUInt8 || b == '-'.toUInt8 then
      (wordMeaning? t).getD (numberMeaning dates t)
    else if b == '.'.toUInt8 then
      match wordMeaning? t with
      | some m => m
      | none =>
        match FloatText.read t with
        | .ok x => .float x
        | .error _ => .text
    else if (Text.lit "yYnNtTfFoO~").contains b then (wordMeaning? t).getD .text
    else .text

/-- The meaning of a scalar with the tag to be shown for it. A standard tag that the text does not
bear out is a failure; an unknown tag leaves the text as it is. An integer can be asked for as a
float if it fits into 63 bits and a sign. -/
def resolve? (tag text : Text) (implicit : Bool) : Option (Text × Meaning) :=
  let standard (name : String) : Bool := tag == standardTag name
  if (tag.isEmpty && !implicit) || standard "str" then some (standardTag "str", .text)
  else if tag.isEmpty then
    let m := plainMeaning true text
    some (m.tag, m)
  else if standard "binary" then (Base64.decode? text).map fun data => (tag, .binary data)
  else if ["bool", "int", "float", "null", "timestamp"].any standard then
    let m := plainMeaning (standard "timestamp") text
    match m with
    | .int n =>
      if standard "int" then some (tag, m)
      else if standard "float" && n < 0x8000000000000000 then some (tag, .float (Float.ofInt n))
      else none
    | m => if m.tag == tag then some (tag, m) else none
  else some (tag, .text)

end Yaml

end Reckon
