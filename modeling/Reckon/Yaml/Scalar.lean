import Reckon.Yaml.Source

/-!
# Scalars of settings files

A scalar is written plainly, between quotation marks, or as a block of indented lines. Plain and
quoted scalars may run over several lines; a line break between two lines then reads as a blank,
and empty lines between them as newlines. Each reader returns the text and stops right behind the
scalar, or fails if the scalar is malformed.
-/

namespace Reckon

namespace Yaml

/-- The blanks and line breaks met since the last character of a scalar, all in reverse. -/
structure Gap where
  /-- Blanks before any line break. -/
  blanks : List Char
  /-- Whether a new line was begun. -/
  newLine : Bool
  /-- The first line break, unless it was escaped. -/
  first : Option Char
  /-- Further line breaks. -/
  more : List Char

namespace Gap

/-- No gap. -/
def none : Gap := ⟨[], false, .none, []⟩

/-- An escaped line break, which adds nothing. -/
def escaped : Gap := ⟨[], true, .none, []⟩

/-- The gap with one more blank; blanks at the start of a line do not count. -/
def addBlank (g : Gap) (c : Char) : Gap :=
  if g.newLine then g else { g with blanks := c :: g.blanks }

/-- The gap with one more line break. -/
def addBreak (g : Gap) (c : Char) : Gap :=
  if g.newLine then { g with more := c :: g.more } else ⟨[], true, some c, []⟩

/-- What the gap adds to a text kept in reverse: a single newline becomes a blank. -/
def fold (g : Gap) (text : List Char) : List Char :=
  if !g.newLine then g.blanks ++ text
  else
    match g.first with
    | some '\n' => if g.more.isEmpty then ' ' :: text else g.more ++ text
    | first => g.more ++ first.toList ++ text

end Gap

namespace Scan

/-- Reads blanks and line breaks after a gap. On a new line, tabs may stand only from a column
on. -/
def gap (tabsFrom : Nat) (start : Gap) : Scan Gap := loop (go start)
where
  /-- Goes on after a gap. -/
  go (g : Gap) : Nat → Scan Gap
    | 0 => failure
    | n + 1 => do
      need 1
      let c ← here
      if isBlank c then
        if g.newLine && c == '\t' && (← column) < tabsFrom then failure
        next
        go (g.addBlank c) n
      else if isBreak c then go (g.addBreak (← lineBreak)) n
      else return g

/-! ### Plain scalars -/

/-- Whether a plain scalar cannot go on with a character before another one. -/
def endsPlain (inFlow : Bool) (c after : Char) : Bool :=
  endsWord c || (c == ':' && endsWord after) || (inFlow && ",?[]\x7b\x7d".toList.contains c)

/-- Reads a word of a plain scalar after some text, in reverse, and a gap. The gap is left if there
is no word. -/
def plainWord (inFlow : Bool) (text : List Char) (g : Gap) : Scan (List Char × Gap) :=
  loop (go text g)
where
  /-- Goes on after some text and a gap. -/
  go (text : List Char) (g : Gap) : Nat → Scan (List Char × Gap)
    | 0 => failure
    | n + 1 => do
      let c ← here
      if endsPlain inFlow c (← ahead 1) then return (text, g)
      next
      need 2
      go (c :: g.fold text) .none n

/-- Reads a plain scalar. After a gap it may end at a comment, at a mark or for want of indentation.
The flag returned tells whether a line was begun after the text. -/
def plain (inFlow : Bool) (indent : Nat) : Scan (List Char × Bool) := loop (go [] .none)
where
  /-- Goes on after some text, in reverse, and a gap. -/
  go (text : List Char) (g : Gap) : Nat → Scan (List Char × Bool)
    | 0 => failure
    | n + 1 => do
      need 4
      if (← atDocumentMark) || (← here) == '#' then return (text.reverse, g.newLine)
      let (text, g) ← plainWord inFlow text g
      let c ← here
      if !isBlank c && !isBreak c then return (text.reverse, g.newLine)
      let g ← gap indent g
      if !inFlow && (← column) < indent then return (text.reverse, g.newLine)
      go text g n

/-! ### Quoted scalars -/

/-- What a character after a backslash stands for. -/
inductive Escape where
  | char (c : Char)
  /-- A code point in so many hexadecimal digits. -/
  | code (digits : Nat)

/-- The escapes of double-quoted scalars. -/
def escape? (c : Char) : Option Escape :=
  match c with
  | '0' => some (.char (Char.ofNat 0))
  | 'a' => some (.char (Char.ofNat 7))
  | 'b' => some (.char (Char.ofNat 8))
  | 't' | '\t' => some (.char '\t')
  | 'n' => some (.char '\n')
  | 'v' => some (.char (Char.ofNat 11))
  | 'f' => some (.char (Char.ofNat 12))
  | 'r' => some (.char '\r')
  | 'e' => some (.char (Char.ofNat 27))
  | ' ' | '"' | '\'' | '\\' => some (.char c)
  | 'N' => some (.char (Char.ofNat 0x85))
  | '_' => some (.char (Char.ofNat 0xA0))
  | 'L' => some (.char (Char.ofNat 0x2028))
  | 'P' => some (.char (Char.ofNat 0x2029))
  | 'x' => some (.code 2)
  | 'u' => some (.code 4)
  | 'U' => some (.code 8)
  | _ => none

/-- The value of a hexadecimal digit. -/
def hexValue? (c : Char) : Option Nat :=
  if c.isDigit then some (c.toNat - 48)
  else if 'a' ≤ c && c ≤ 'f' then some (c.toNat - 87)
  else if 'A' ≤ c && c ≤ 'F' then some (c.toNat - 55)
  else none

/-- Reads a number of so many hexadecimal digits after a given value. -/
def hexNumber (value : Nat) : Nat → Scan Nat
  | 0 => return value
  | n + 1 => do
    let d ← hexValue? (← here)
    next
    hexNumber (16 * value + d) n

/-- Reads an escape, from its backslash on. -/
def escape : Scan Char := do
  let e ← escape? (← ahead 1)
  skip 2
  match e with
  | .char c => return c
  | .code digits => do
    need digits
    let n ← hexNumber 0 digits
    if n.isValidChar then return Char.ofNat n else failure

/-- Reads a word of a quoted scalar after some text, in reverse. The flag returned tells whether the
word ends with an escaped line break. -/
def quotedWord (single : Bool) (text : List Char) : Scan (List Char × Bool) := loop (go text)
where
  /-- Goes on after some text. -/
  go (text : List Char) : Nat → Scan (List Char × Bool)
    | 0 => failure
    | n + 1 => do
      let c ← here
      let after ← ahead 1
      if endsWord c then return (text, false)
      else if single && c == '\'' && after == '\'' then
        skip 2
        need 2
        go ('\'' :: text) n
      else if c == (if single then '\'' else '"') then return (text, false)
      else if !single && c == '\\' && isBreak after then
        need 3
        next
        let _ ← lineBreak
        return (text, true)
      else if !single && c == '\\' then
        let e ← escape
        need 2
        go (e :: text) n
      else
        next
        need 2
        go (c :: text) n

/-- Reads a quoted scalar, from its opening to its closing mark. -/
def quoted (single : Bool) : Scan (List Char) := do
  next
  loop (go [])
where
  /-- Goes on after some text, in reverse. -/
  go (text : List Char) : Nat → Scan (List Char)
    | 0 => failure
    | n + 1 => do
      need 4
      if (← atDocumentMark) || (← here) == endMark then failure
      let (text, escaped) ← quotedWord single text
      need 1
      if (← here) == (if single then '\'' else '"') then
        next
        return text.reverse
      let g ← gap 0 (if escaped then .escaped else .none)
      go (g.fold text) n

/-! ### Block scalars -/

/-- What becomes of the line breaks at the end of a block. -/
inductive Chomping where
  | strip
  | clip
  | keep
deriving DecidableEq, Repr

/-- Reads the sign that chooses what becomes of the last line breaks. -/
def chomping : Scan Chomping := do
  need 1
  let c ← here
  if c == '+' then
    next
    return .keep
  else if c == '-' then
    next
    return .strip
  else return .clip

/-- Reads the digit that gives the indentation. Zero is not allowed. -/
def increment : Scan (Option Nat) := do
  need 1
  let c ← here
  if c == '0' then failure
  else if c.isDigit then
    next
    return some (c.toNat - 48)
  else return none

/-- Reads what stands on the line of the mark of a block: the sign and the digit, in either
order. -/
def blockHeader : Scan (Chomping × Option Nat) := do
  let first ← chomping
  let digit ← increment
  let last ← if first = .clip && digit.isSome then chomping else pure first
  restOfLine
  return (last, digit)

/-- Reads blanks up to an indentation, if it is known, and empty lines. Returns the line breaks, in
reverse, and the largest column that blanks have reached. A tab may not stand in the indentation. -/
def blockGap (indent : Option Nat) : Scan (List Char × Nat) := loop (go [] 0)
where
  /-- Goes on after some line breaks. -/
  go (breaks : List Char) (widest : Nat) : Nat → Scan (List Char × Nat)
    | 0 => failure
    | n + 1 => do
      need 1
      let c ← here
      let reached ← column
      let inside := indent.all fun m => reached < m
      if inside && c == ' ' then
        next
        go breaks widest n
      else if inside && c == '\t' then failure
      else if isBreak c then go ((← lineBreak) :: breaks) (max widest reached) n
      else return (breaks, max widest reached)

/-- What is carried from line to line of a block, all in reverse. -/
structure BlockState where
  text : List Char
  /-- The line break after the last line. -/
  last : Option Char
  /-- Further line breaks. -/
  more : List Char
  /-- Whether the last line began with a blank. -/
  indented : Bool

/-- The text before a further line that begins with a blank or not: in a folded block a single
newline between two lines that do not becomes a blank. -/
def BlockState.join (s : BlockState) (literal indented : Bool) : List Char :=
  let folds := !literal && !s.indented && !indented && s.last == some '\n'
  let text :=
    if folds then (if s.more.isEmpty then ' ' :: s.text else s.text)
    else s.last.toList ++ s.text
  s.more ++ text

/-- Reads the lines of a block with a known indentation. -/
def blockLines (literal : Bool) (indent : Nat) (start : BlockState) : Scan BlockState :=
  loop (go start)
where
  /-- Goes on after some lines. -/
  go (s : BlockState) : Nat → Scan BlockState
    | 0 => failure
    | n + 1 => do
      let c ← here
      if (← column) != indent || c == endMark then return s
      let line ← readWhile fun c => !isBreak c
      let text := line.reverse ++ s.join literal (isBlank c)
      need 2
      let last ← if isBreak (← here) then some <$> lineBreak else pure none
      let (breaks, _) ← blockGap (some indent)
      go ⟨text, last, breaks, isBlank c⟩ n

/-- Reads a block scalar, from its mark on. The indentation of the parent is `-1` at the top of a
file. -/
def block (literal : Bool) (parent : Int) : Scan (List Char) := do
  next
  let (chomping, digit) ← blockHeader
  let given := digit.map fun n => if 0 ≤ parent then parent.toNat + n else n
  let (breaks, widest) ← blockGap given
  let indent := given.getD (max widest (max (parent + 1).toNat 1))
  let s ← blockLines literal indent ⟨[], none, breaks, false⟩
  let text :=
    match chomping with
    | .strip => s.text
    | .clip => s.last.toList ++ s.text
    | .keep => s.more ++ s.last.toList ++ s.text
  return text.reverse

end Scan

end Yaml

end Reckon
