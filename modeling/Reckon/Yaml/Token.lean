import Reckon.Yaml.Tag

/-!
# Tokens of settings files

The structure of a block is given by indentation: the first entry of a block opens it and the first
line further to the left closes it, so opening and closing tokens appear between the visible ones.
Whether a scalar is the key of a mapping shows only at the colon after it; the key token, and the
token that opens the mapping, are then put in front of the scalar. So a token is ready only when it
is settled whether it starts a key.

A `Scanner` reads no further than the tokens asked of it require: `Scanner.peek` gives the next one.
-/

namespace Reckon

namespace Yaml

/-- What a token is. -/
inductive TokenType where
  | streamEnd
  | directive (d : Directive)
  | documentStart
  | documentEnd
  | blockSequenceStart
  | blockMappingStart
  | blockEnd
  | flowSequenceStart
  | flowSequenceEnd
  | flowMappingStart
  | flowMappingEnd
  | blockEntry
  | flowEntry
  | key
  | value
  | alias (name : List Char)
  | anchor (name : List Char)
  | tag (name : TagName)
  | scalar (text : List Char) (plain : Bool)
deriving DecidableEq, Repr

/-- A token and the line where it starts, counted from zero. -/
structure FileToken where
  type : TokenType
  line : Nat
deriving DecidableEq, Repr

/-- A scalar or collection that turns out to be a key if a colon follows. -/
structure PossibleKey where
  /-- A key must follow, because only keys can stand at this column. -/
  required : Bool
  /-- How many tokens come before it. -/
  number : Nat
  place : Place
  /-- Whether its first token is held back until it is settled. -/
  awaited : Bool

/-- What is known of keys inside a flow collection, or outside of all. -/
structure KeyLevel where
  key : Option PossibleKey
  /-- How many tokens come before the possible key noted last, or else before the collection. -/
  number : Nat

/-- A reader of tokens in the middle of a file. -/
structure Scanner where
  source : Source
  /-- The tokens read and not yet taken. -/
  queue : List FileToken
  /-- How many tokens were taken. -/
  taken : Nat
  /-- How many tokens were read. -/
  count : Nat
  /-- The column of the block that is open, `-1` outside of all blocks. -/
  indent : Int
  /-- The columns of the blocks around it. -/
  outer : List Int
  /-- How many blocks are open. -/
  blocks : Nat
  /-- How many flow collections are open. -/
  flows : Nat
  /-- Whether a key without mark may start here. -/
  keyAllowed : Bool
  /-- The possible keys of the open flow collections, innermost first, and of the block. -/
  levels : List KeyLevel

/-- A step of reading tokens. -/
abbrev Scanning := StateT Scanner Option

namespace Scanner

/-- A reader at the start of a file. -/
def ofText (t : Text) : Scanner := ⟨Source.ofText t, [], 0, 0, -1, [], 0, 0, true, [⟨none, 0⟩]⟩

/-- Whether the reader is inside a flow collection. -/
def inFlow (s : Scanner) : Bool := 0 < s.flows

/-- How many blocks, and how many flow collections, may be open at once. -/
def maxDepth : Nat := 10000

/-- Appends a token that starts at the given line. -/
def push (s : Scanner) (type : TokenType) (line : Nat) : Scanner :=
  { s with queue := s.queue ++ [⟨type, line⟩], count := s.count + 1 }

/-- Inserts a token behind the given number of tokens; at the end if more were taken. -/
def insert (s : Scanner) (number : Nat) (type : TokenType) (line : Nat) : Scanner :=
  if number < s.taken then s.push type line
  else
    { s with
      queue := s.queue.take (number - s.taken) ++ ⟨type, line⟩ :: s.queue.drop (number - s.taken)
      count := s.count + 1 }

/-- A key is still possible on its own line and up to 1024 characters later. A required key that is
not possible any more is a failure. -/
def stillPossible? (s : Scanner) (key : PossibleKey) : Option Bool :=
  let here := s.source.place
  if key.place.line < here.line || key.place.index + 1024 < here.index then
    if key.required then none else some false
  else some true

/-- The possible key that holds back the token behind the given number of tokens. Later keys stand
further inside. -/
def awaited? (number : Nat) : List KeyLevel → Option PossibleKey
  | [] => none
  | level :: outer =>
    if level.number < number then none
    else
      match level.key with
      | some key => if key.number == number && key.awaited then some key else awaited? number outer
      | none => awaited? number outer

end Scanner

namespace Scanning

/-- Reads characters. -/
def scan {α : Type} (step : Scan α) : Scanning α := do
  let s ← get
  let (a, source) ← step.run s.source
  set { s with source }
  return a

/-- The place where the reader stands. -/
def place : Scanning Place := return (← get).source.place

/-- Reads a token and appends it. -/
def token (step : Scan TokenType) : Scanning Unit := do
  let line := (← place).line
  let type ← scan step
  modify fun s => s.push type line

/-- Reads a token of so many characters. -/
def mark (type : TokenType) (n : Nat) : Scanning Unit :=
  token do
    Scan.skip n
    return type

/-- Says whether a key without mark may start from here on. -/
def allowKey (allowed : Bool) : Scanning Unit := modify fun s => { s with keyAllowed := allowed }

/-! ### Blocks -/

/-- Opens a block at a column further to the right, by a token that is put in place by `add`. -/
def openBlock (column : Nat) (add : Scanner → Scanner) : Scanning Unit := do
  let s ← get
  if !s.inFlow && s.indent < column then
    if Scanner.maxDepth ≤ s.blocks then failure
    set { add s with indent := column, outer := s.indent :: s.outer, blocks := s.blocks + 1 }

/-- Opens a block at the place where the reader stands. -/
def openHere (type : TokenType) : Scanning Unit := do
  let p ← place
  openBlock p.column fun s => s.push type p.line

/-- Closes all blocks to the right of a column. -/
def closeBlocks (column : Int) : Scanning Unit :=
  modify fun s => if s.inFlow then s else go s.outer s
where
  /-- Closes blocks as long as the innermost one lies to the right. -/
  go : List Int → Scanner → Scanner
    | [], s => s
    | parent :: outer, s =>
      if column < s.indent then
        let closed := s.push .blockEnd s.source.place.line
        go outer { closed with indent := parent, outer, blocks := s.blocks - 1 }
      else s

/-! ### Possible keys -/

/-- Gives up the innermost possible key; fails if a key is required there. -/
def dropKey : Scanning Unit := do
  let s ← get
  match s.levels with
  | ⟨some key, number⟩ :: outer =>
    if key.required then failure
    set { s with levels := ⟨none, number⟩ :: outer }
  | _ => return

/-- Notes that a key may start here. -/
def noteKey : Scanning Unit := do
  if (← get).keyAllowed then
    dropKey
    modify fun s =>
      let required := !s.inFlow && s.indent == s.source.place.column
      let key : PossibleKey := ⟨required, s.count, s.source.place, true⟩
      { s with levels := ⟨some key, s.count⟩ :: s.levels.drop 1 }

/-- Leaves the innermost flow collection. If no key was noted in it, a key that starts with it is
not waited for any more. -/
def leaveFlow : Scanning Unit :=
  modify fun s =>
    match s.levels with
    | level :: ⟨some key, number⟩ :: outer =>
      let awaited := key.awaited && key.number != level.number
      { s with flows := s.flows - 1, levels := ⟨some { key with awaited }, number⟩ :: outer }
    | _ :: outer => { s with flows := s.flows - 1, levels := outer }
    | [] => s

/-! ### Structure -/

/-- Ends all blocks in front of a mark or directive at the start of a line. -/
def endBlocks : Scanning Unit := do
  closeBlocks (-1)
  dropKey
  allowKey false

/-- Reads `---` or `...`. -/
def documentMark (type : TokenType) : Scanning Unit := do
  endBlocks
  mark type 3

/-- Reads a directive. -/
def directive : Scanning Unit := do
  endBlocks
  token (TokenType.directive <$> Scan.directive)

/-- Reads an opening bracket. -/
def openFlow (type : TokenType) : Scanning Unit := do
  noteKey
  if Scanner.maxDepth ≤ (← get).flows then failure
  modify fun s => { s with flows := s.flows + 1, levels := ⟨none, s.count⟩ :: s.levels }
  allowKey true
  mark type 1

/-- Reads a closing bracket. -/
def closeFlow (type : TokenType) : Scanning Unit := do
  dropKey
  if (← get).inFlow then leaveFlow
  allowKey false
  mark type 1

/-- Reads the comma of a flow collection. -/
def flowComma : Scanning Unit := do
  dropKey
  allowKey true
  mark .flowEntry 1

/-- Opens a block for a mark; outside of flow collections the mark must stand where a key may
start. -/
def openForMark (type : TokenType) : Scanning Unit := do
  let s ← get
  if !s.inFlow then
    if !s.keyAllowed then failure
    openHere type

/-- Reads the dash of a block sequence. -/
def dash : Scanning Unit := do
  openForMark .blockSequenceStart
  dropKey
  allowKey true
  mark .blockEntry 1

/-- Reads the question mark of an explicit key. -/
def explicitKey : Scanning Unit := do
  openForMark .blockMappingStart
  dropKey
  allowKey (!(← get).inFlow)
  mark .key 1

/-- Reads a colon without a key in front of it. -/
def bareColon : Scanning Unit := do
  openForMark .blockMappingStart
  allowKey (!(← get).inFlow)
  mark .value 1

/-- Reads a colon. A possible key in front of it becomes a key. -/
def colon : Scanning Unit := do
  let s ← get
  match s.levels with
  | ⟨some key, number⟩ :: outer =>
    if ← s.stillPossible? key then
      set { s.insert key.number .key key.place.line with levels := ⟨none, number⟩ :: outer }
      openBlock key.place.column fun s => s.insert key.number .blockMappingStart key.place.line
      allowKey false
      mark .value 1
    else bareColon
  | _ => bareColon

/-! ### Names, tags and scalars -/

/-- Reads a name, a tag or a scalar that may start a key. -/
def word (step : Scan TokenType) : Scanning Unit := do
  noteKey
  allowKey false
  token step

/-- Reads a plain scalar. A key may follow it on a new line. -/
def plain : Scanning Unit := do
  noteKey
  let s ← get
  let line := s.source.place.line
  let (text, newLine) ← scan (Scan.plain s.inFlow (s.indent + 1).toNat)
  modify fun s => { s.push (.scalar text true) line with keyAllowed := newLine }

/-- Reads a block scalar. -/
def block (literal : Bool) : Scanning Unit := do
  dropKey
  allowKey true
  let indent := (← get).indent
  token ((TokenType.scalar · false) <$> Scan.block literal indent)

/-! ### The next token -/

/-- Skips blanks, comments and line breaks. Tabs may not stand where a key may start; on a new line
one may start. Returns whether one may start now. -/
def toNext (inFlow keyAllowed : Bool) : Scan Bool := Scan.loop (go keyAllowed)
where
  /-- Goes on at any place. -/
  go (keyAllowed : Bool) : Nat → Scan Bool
    | 0 => failure
    | n + 1 => do
      Scan.need 1
      if (← get).marked && (← Scan.column) == 0 then Scan.next
      let _ ← Scan.readWhile fun c => c == ' ' || (c == '\t' && (inFlow || !keyAllowed))
      if (← Scan.here) == '#' then
        let _ ← Scan.readWhile fun c => !isBreak c
      if isBreak (← Scan.here) then
        let _ ← Scan.lineBreak
        go (keyAllowed || !inFlow) n
      else return keyAllowed

/-- Closes everything at the end of the file. -/
def finish : Scanning Unit := do
  modify fun s =>
    let p := s.source.place
    if p.column == 0 then s
    else { s with source := { s.source with place := ⟨p.line + 1, 0, p.index⟩ } }
  endBlocks
  mark .streamEnd 0

/-- Reads the tokens that start with the next character. -/
def fetch : Scanning Unit := do
  let s ← get
  allowKey (← scan (toNext s.inFlow s.keyAllowed))
  let column := (← place).column
  closeBlocks column
  scan (Scan.need 4)
  let inFlow := (← get).inFlow
  let c ← scan Scan.here
  let after ← scan (Scan.ahead 1)
  if c == endMark then finish
  else if column == 0 && c == '%' then directive
  else if ← scan Scan.atDocumentMark then
    documentMark (if c == '-' then .documentStart else .documentEnd)
  else
    match c with
    | '[' => openFlow .flowSequenceStart
    | '\x7b' => openFlow .flowMappingStart
    | ']' => closeFlow .flowSequenceEnd
    | '\x7d' => closeFlow .flowMappingEnd
    | ',' => flowComma
    | '*' => word (TokenType.alias <$> Scan.name)
    | '&' => word (TokenType.anchor <$> Scan.name)
    | '!' => word (TokenType.tag <$> Scan.tag)
    | '\'' => word ((TokenType.scalar · false) <$> Scan.quoted true)
    | '"' => word ((TokenType.scalar · false) <$> Scan.quoted false)
    | '-' => if endsWord after then dash else plain
    | '?' => if inFlow || endsWord after then explicitKey else plain
    | ':' => if inFlow || endsWord after then colon else plain
    | '|' => if inFlow then failure else block true
    | '>' => if inFlow then failure else block false
    | '#' | '%' | '@' | '\x60' | '\t' => failure
    | _ => plain

/-- Reads until the first token is settled. Every round reads a character or the end of the file. -/
def settle : Nat → Scanning Unit
  | 0 => failure
  | n + 1 => do
    let s ← get
    let settled ←
      if s.queue.isEmpty then pure false
      else
        match Scanner.awaited? s.taken s.levels with
        | some key => do
          let possible ← s.stillPossible? key
          pure !possible
        | none => pure true
    if settled then return
    fetch
    settle n

/-- The next token. -/
def peek : Scanning FileToken := do
  settle ((← get).source.left + 2)
  let t ← (← get).queue.head?
  return t

/-- Takes the next token. -/
def take : Scanning Unit :=
  modify fun s => { s with queue := s.queue.drop 1, taken := s.taken + 1 }

end Scanning

end Yaml

end Reckon
