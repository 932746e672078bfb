import Reckon.Text.Rune

/-!
# Settings files as characters

A settings file is UTF-8 text, or UTF-16 text after a byte order mark, without control characters
other than tabs and line breaks. It is taken in block by block, so that a fault far behind the first
document does no harm: `Yaml.blocks` gives the characters of each block up to the first faulty one.
-/

namespace Reckon

namespace Yaml

/-- Whether a character may stand in a settings file. -/
def isAllowed (c : Char) : Bool :=
  let n := c.toNat
  n == 0x09 || n == 0x0A || n == 0x0D || (0x20 ≤ n && n ≤ 0x7E) || n == 0x85 ||
    (0xA0 ≤ n && n ≤ 0xFFFD) || 0x10000 ≤ n

/-- How the characters of a file are written as bytes. -/
inductive Encoding where
  | utf8
  /-- In units of two bytes, with the lower byte first or last. -/
  | utf16 (lowerFirst : Bool)
deriving DecidableEq, Repr

/-- The encoding that the first bytes of a file tell, and how many bytes tell it. -/
def Encoding.ofStart : Text → Encoding × Nat
  | 0xFF :: 0xFE :: _ => (.utf16 true, 2)
  | 0xFE :: 0xFF :: _ => (.utf16 false, 2)
  | 0xEF :: 0xBB :: 0xBF :: _ => (.utf8, 3)
  | _ => (.utf8, 0)

/-- What stands at the start of some bytes. -/
inductive Decoded where
  /-- A character, in so many bytes. -/
  | char (c : Char) (width : Nat)
  /-- The beginning of a character. -/
  | incomplete
  | faulty
deriving DecidableEq, Repr

/-- How many bytes a UTF-8 sequence takes by its first byte, and zero if none starts with it. -/
def sequenceWidth (b : UInt8) : Nat :=
  if b < 0x80 then 1
  else if b < 0xC0 then 0
  else if b < 0xE0 then 2
  else if b < 0xF0 then 3
  else if b < 0xF8 then 4
  else 0

/-- Decodes the first character of UTF-8 text. -/
def decodeUtf8 : Text → Decoded
  | [] => .incomplete
  | b :: rest =>
    let width := sequenceWidth b
    let bytes := (b :: rest).take width
    if width == 0 then .faulty
    else if bytes.length < width then .incomplete
    else
      match Text.uncons bytes with
      | some (rune, []) => .char rune.char width
      | _ => .faulty

/-- Decodes the first character of UTF-16 text. Surrogates come in pairs, the high one first. -/
def decodeUtf16 (lowerFirst : Bool) (t : Text) : Decoded :=
  let unit (a b : UInt8) : Nat :=
    if lowerFirst then 256 * b.toNat + a.toNat else 256 * a.toNat + b.toNat
  let isHigh (n : Nat) : Bool := 0xD800 ≤ n && n < 0xDC00
  let isLow (n : Nat) : Bool := 0xDC00 ≤ n && n < 0xE000
  match t with
  | a :: b :: rest =>
    let first := unit a b
    if isLow first then .faulty
    else if isHigh first then
      match rest with
      | c :: d :: _ =>
        let second := unit c d
        if isLow second then
          .char (Char.ofNat (0x10000 + 0x400 * (first - 0xD800) + (second - 0xDC00))) 4
        else .faulty
      | _ => .incomplete
    else .char (Char.ofNat first) 2
  | _ => .incomplete

/-- Decodes the first character of a text. -/
def Encoding.decode : Encoding → Text → Decoded
  | utf8, t => decodeUtf8 t
  | utf16 lowerFirst, t => decodeUtf16 lowerFirst t

/-- The characters of a block, and the bytes at its end that only begin a character; nothing if the
block has a fault. The number bounds the length of the block. -/
def decodeBlock (e : Encoding) : Nat → Text → Option (List Char × Text)
  | 0, t => some ([], t)
  | n + 1, t =>
    if t.isEmpty then some ([], [])
    else
      match e.decode t with
      | .incomplete => some ([], t)
      | .faulty => none
      | .char c width =>
        if isAllowed c then do
          let (cs, carried) ← decodeBlock e n (t.drop width)
          some (c :: cs, carried)
        else none

/-- How many bytes are taken in at once. -/
def blockSize : Nat := 512

/-- The characters of a file by blocks. -/
structure Blocks where
  /-- The blocks up to the end of the file or up to the first fault. -/
  blocks : List (List Char)
  /-- Whether the file ends after them. -/
  sound : Bool
deriving DecidableEq, Repr

/-- Takes in the next block, of a given number of new bytes after those carried over from the last
one, and those that follow. The first argument bounds the number of blocks. -/
def blocksFrom (e : Encoding) : Nat → Nat → Text → Text → Blocks
  | 0, _, _, _ => ⟨[], false⟩
  | n + 1, room, carried, t =>
    if t.isEmpty then ⟨[], carried.isEmpty⟩
    else
      let block := carried ++ t.take room
      match decodeBlock e block.length block with
      | none => ⟨[], false⟩
      | some (cs, carried) =>
        let later := blocksFrom e n (blockSize - carried.length) carried (t.drop room)
        ⟨cs :: later.blocks, later.sound⟩

/-- The blocks of a file, without its byte order mark. -/
def blocks (t : Text) : Blocks :=
  let (encoding, width) := Encoding.ofStart t
  blocksFrom encoding (t.length + 1) (blockSize - width) [] (t.drop width)

/-! ### Kinds of characters -/

/-- The character that stands for the end of a file; it cannot occur inside one. -/
def endMark : Char := Char.ofNat 0

/-- A character that ends a line. -/
def isBreak (c : Char) : Bool :=
  c == '\n' || c == '\r' || c == '\u0085' || c == '\u2028' || c == '\u2029'

/-- A blank or a tab. -/
def isBlank (c : Char) : Bool := c == ' ' || c == '\t'

/-- Whether a line ends here. -/
def endsLine (c : Char) : Bool := isBreak c || c == endMark

/-- Whether a word ends here: at a blank, at the end of a line or at the end of the file. -/
def endsWord (c : Char) : Bool := isBlank c || endsLine c

/-- The line break that is read for a given one: the usual ones are newlines, and the two Unicode
separators are kept apart. -/
def readBreak (c : Char) : Char := if c == '\u2028' || c == '\u2029' then c else '\n'

end Yaml

end Reckon
