import Reckon.Yaml.Scalar

/-!
# Names, tags and directives

A tag gives the type of a node. It is written in full between angle brackets, or as a handle and a
suffix, where the handle stands for a beginning that a directive may choose. Tags may hold escaped
bytes; those need only look like UTF-8 sequences, so a tag is a text of any bytes.
-/

namespace Reckon

namespace Yaml

/-- A character of a name or of a tag's handle. -/
def isWordChar (c : Char) : Bool := c.isAlphanum || c == '_' || c == '-'

/-- A character of a tag. -/
def isTagChar (c : Char) : Bool := isWordChar c || ";/?:@&=+$,.!~*'()[]".toList.contains c

/-- A tag as it is written. -/
structure TagName where
  /-- What a beginning is given for; empty if the suffix is the whole tag. -/
  handle : List Char
  suffix : Text
deriving DecidableEq, Repr

/-- A line that is about the file. -/
inductive Directive where
  | version (major minor : Nat)
  /-- What a handle stands for. -/
  | tag (handle : List Char) (start : Text)
deriving DecidableEq, Repr

namespace Scan

/-- Reads the name of an anchor or alias, from its mark on. -/
def name : Scan (List Char) := do
  next
  let text ← readWhile isWordChar
  let c ← here
  if !text.isEmpty && (endsWord c || "?:,]\x7d%@\x60".toList.contains c) then return text
  else failure

/-! ### Tags -/

/-- Reads an escaped byte. -/
def escapedByte : Scan UInt8 := do
  need 3
  if (← here) != '%' then failure
  let high ← hexValue? (← ahead 1)
  let low ← hexValue? (← ahead 2)
  skip 3
  return (16 * high + low).toUInt8

/-- Reads so many escaped bytes that can only continue a sequence. -/
def escapedTrail : Nat → Scan Text
  | 0 => return []
  | n + 1 => do
    let b ← escapedByte
    if Rune.isTrail b then return b :: (← escapedTrail n) else failure

/-- Reads the escaped bytes of a character. Only the form of the sequence is looked at. -/
def escapedChar : Scan Text := do
  let b ← escapedByte
  match sequenceWidth b with
  | 0 => failure
  | n + 1 => return b :: (← escapedTrail n)

/-- Reads the characters of a tag, with escaped bytes decoded. -/
def tagText : Scan Text := loop (go [])
where
  /-- Goes on after some pieces, the last one first. -/
  go (pieces : List Text) : Nat → Scan Text
    | 0 => failure
    | n + 1 => do
      need 1
      let c ← here
      if c == '%' then go ((← escapedChar) :: pieces) n
      else if isTagChar c then
        next
        go (Text.ofChar c :: pieces) n
      else return pieces.reverse.flatten

/-- Reads the characters of a tag; there must be some. -/
def someTagText : Scan Text := do
  let text ← tagText
  if text.isEmpty then failure else return text

/-- Reads a word between exclamation marks, of which the last one may be missing. -/
def handle : Scan (List Char) := do
  need 1
  if (← here) != '!' then failure
  next
  let word ← readWhile isWordChar
  if (← here) == '!' then
    next
    return '!' :: word ++ ['!']
  else return '!' :: word

/-- Whether a word is a handle: it ends in an exclamation mark too. -/
def isHandle (word : List Char) : Bool := 1 < word.length && word.getLast? == some '!'

/-- Reads a tag: `!<...>`, `!handle!suffix`, `!suffix`, or `!` alone, which is a tag of its own. -/
def tag : Scan TagName := do
  need 2
  let name ←
    if (← ahead 1) == '<' then do
      skip 2
      let text ← someTagText
      if (← here) != '>' then failure
      next
      pure (TagName.mk [] text)
    else do
      let word ← handle
      if isHandle word then pure ⟨word, ← someTagText⟩
      else
        let suffix := Text.ofChars (word.drop 1) ++ (← tagText)
        pure (if suffix.isEmpty then ⟨[], Text.lit "!"⟩ else ⟨['!'], suffix⟩)
  need 1
  if endsWord (← here) then return name else failure

/-! ### Directives -/

/-- Reads a number of one or two digits. -/
def versionNumber : Scan Nat := do
  let digits ← readWhile Char.isDigit
  if digits.isEmpty || 2 < digits.length then failure
  return digits.foldl (fun n d => 10 * n + (d.toNat - 48)) 0

/-- Reads a version. -/
def version : Scan Directive := do
  let _ ← readWhile isBlank
  let major ← versionNumber
  if (← here) != '.' then failure
  next
  let minor ← versionNumber
  return .version major minor

/-- Reads a handle and what it stands for. -/
def tagDirective : Scan Directive := do
  let _ ← readWhile isBlank
  let word ← handle
  if word != ['!'] && !isHandle word then failure
  need 1
  if !isBlank (← here) then failure
  let _ ← readWhile isBlank
  let start ← someTagText
  need 1
  if endsWord (← here) then return .tag word start else failure

/-- Reads a directive line, from its mark on. -/
def directive : Scan Directive := do
  next
  let word ← readWhile isWordChar
  if !endsWord (← here) then failure
  let d ←
    if word == "YAML".toList then version
    else if word == "TAG".toList then tagDirective
    else failure
  restOfLine
  return d

end Scan

end Yaml

end Reckon
