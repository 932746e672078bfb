import Reckon.Yaml.Input

/-!
# Reading a settings file character by character

A `Source` stands at a place in a file. Characters are taken in by blocks when they are needed: a
step of reading (`Scan`) first says how many characters it is going to look at, which fails if a
fault comes before them, and then looks at them and moves on. What lies behind the characters that
were needed has no influence.
-/

namespace Reckon

namespace Yaml

/-- A place in a file: lines and columns count from zero, the index counts characters. -/
structure Place where
  line : Nat
  column : Nat
  index : Nat
deriving DecidableEq, Repr, Inhabited

/-- A place in a file, with what has been taken in behind it. -/
structure Source where
  /-- The characters taken in and not yet read. -/
  ready : List Char
  /-- How many there are, with a further one for each time that the end was met. -/
  count : Nat
  /-- The blocks still to be taken in. -/
  later : List (List Char)
  /-- Whether the file ends after these blocks; otherwise a fault follows. -/
  sound : Bool
  /-- Whether a byte order mark was the next character when a block was last taken in. -/
  marked : Bool
  /-- How many characters of all blocks are left. -/
  left : Nat
  place : Place

/-- The start of a file. -/
def Source.ofText (t : Text) : Source :=
  let all := blocks t
  let left := (all.blocks.map List.length).foldl (· + ·) 0
  ⟨[], 0, all.blocks, all.sound, false, left, ⟨0, 0, 0⟩⟩

/-- Takes in blocks until a number of characters is ready or the end is met. -/
def Source.fill (n : Nat) : List (List Char) → Source → Option Source
  | [], s => if s.sound then some { s with count := s.count + 1, later := [] } else none
  | block :: later, s =>
    let s := { s with ready := s.ready ++ block, count := s.count + block.length, later }
    if n ≤ s.count then some s else fill n later s

/-- The source after its next character, on the same line. -/
def Source.next (s : Source) : Source :=
  { s with
    ready := s.ready.drop 1
    count := s.count - 1
    left := s.left - 1
    place := ⟨s.place.line, s.place.column + 1, s.place.index + 1⟩ }

/-- The source after so many characters that break a line. -/
def Source.nextLine (s : Source) (n : Nat) : Source :=
  { s with
    ready := s.ready.drop n
    count := s.count - n
    left := s.left - n
    place := ⟨s.place.line + 1, 0, s.place.index + n⟩ }

/-- A step of reading; it fails where the file cannot be read or is malformed. -/
abbrev Scan := StateT Source Option

namespace Scan

/-- Makes sure that a number of characters can be looked at. -/
def need (n : Nat) : Scan Unit := do
  let s ← get
  if s.count < n then
    let filled ← s.fill n s.later
    set { filled with marked := filled.ready.head? == some '\uFEFF' }

/-- The character at a distance. -/
def ahead (n : Nat) : Scan Char := return ((← get).ready[n]?).getD endMark

/-- The next character. -/
def here : Scan Char := ahead 0

/-- The column of the next character. -/
def column : Scan Nat := return (← get).place.column

/-- Moves past the next character. -/
def next : Scan Unit := modify Source.next

/-- Moves past so many characters. -/
def skip : Nat → Scan Unit
  | 0 => return
  | n + 1 => do
    next
    skip n

/-- Moves past a line break, which may be a pair of characters, and returns what it is read as. -/
def lineBreak : Scan Char := do
  need 2
  let c ← here
  let width := if c == '\r' && (← ahead 1) == '\n' then 2 else 1
  modify fun s => s.nextLine width
  return readBreak c

/-- Runs a loop that reads a character or more in each round. The loop gets a bound on the number of
its rounds. -/
def loop {α : Type} (body : Nat → Scan α) : Scan α := do body ((← get).left + 1)

/-- Reads characters as long as they are of a kind. -/
def readWhile (p : Char → Bool) : Scan (List Char) := loop (go [])
where
  /-- Goes on after some characters, the last one first. -/
  go (read : List Char) : Nat → Scan (List Char)
    | 0 => failure
    | n + 1 => do
      need 1
      let c ← here
      if c != endMark && p c then
        next
        go (c :: read) n
      else return read.reverse

/-- Whether the mark `---` or `...` stands at the start of a line here, as a word. Four characters
must be ready. -/
def atDocumentMark : Scan Bool := do
  if (← column) != 0 then return false
  let c ← here
  let repeated := (← ahead 1) == c && (← ahead 2) == c
  return (c == '-' || c == '.') && repeated && endsWord (← ahead 3)

/-- Reads the rest of a line, which may only hold a comment. -/
def restOfLine : Scan Unit := do
  let _ ← readWhile isBlank
  if (← here) == '#' then
    let _ ← readWhile fun c => !isBreak c
  let c ← here
  if isBreak c then
    let _ ← lineBreak
  else if c != endMark then failure

end Scan

end Yaml

end Reckon
