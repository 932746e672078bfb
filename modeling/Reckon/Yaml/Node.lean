import Reckon.Yaml.Token

/-!
# Settings files as trees

The first document of a file is read as a tree of scalars, sequences and mappings. An anchor names
a node and an alias stands for the node named so last, which may be a node that the alias is a part
of. Therefore the anchored nodes are kept beside the tree, and an alias holds the number of its
node.

The reader takes tokens one by one and fails on the first that does not fit. It looks at one token
behind the tree and at nothing further.
-/

namespace Reckon

namespace Yaml

/-- A node of a document, with the line where it starts, counted from zero. -/
inductive Node where
  /-- A scalar. It is implicit if its type is to be told from its text. -/
  | scalar (text tag : Text) (implicit : Bool) (line : Nat)
  | sequence (items : List Node) (line : Nat)
  | mapping (entries : List (Node × Node)) (line : Nat)
  /-- Stands for an anchored node. The aliases of a document are numbered too. -/
  | alias (number anchor : Nat)
deriving Inhabited

/-- The first document of a file. -/
structure Document where
  root : Node
  /-- The anchored nodes in the order in which they start. -/
  anchored : Array Node
  /-- How many aliases there are. -/
  aliases : Nat
  /-- How many nodes there are. -/
  nodes : Nat

/-- An empty scalar, which stands for nothing. -/
def Node.empty (line : Nat) : Node := .scalar [] [] true line

/-- The node that an anchor names. -/
def Document.target (d : Document) (anchor : Nat) : Node := (d.anchored[anchor]?).getD (.empty 0)

/-- A chain of nodes inside each other, on which aliases may be followed but none twice, is not
longer than this. -/
def Document.reach (d : Document) : Nat := (d.aliases + 1) * (d.nodes + 1)

/-- What a reader of nodes works on. -/
structure NodeReader where
  scanner : Scanner
  /-- What the handles of tags stand for. -/
  handles : List (List Char × Text)
  /-- The names of anchors with the numbers of their nodes, latest first. -/
  names : List (List Char × Nat)
  /-- The anchored nodes so far, an empty one for each that is still being read. -/
  anchored : Array Node
  aliases : Nat
  nodes : Nat

/-- A step of reading nodes. -/
abbrev Reading := StateT NodeReader Option

namespace Reading

/-- The next token. -/
def peek : Reading FileToken := do
  let r ← get
  let (t, scanner) ← Scanning.peek.run r.scanner
  set { r with scanner }
  return t

/-- Leaves the next token behind. -/
def skip : Reading Unit := do
  let r ← get
  let (_, scanner) ← Scanning.take.run r.scanner
  set { r with scanner }

/-- The anchor and the tag in front of a node. -/
structure Properties where
  anchor : Option (List Char)
  tag : Option TagName

/-- Reads an anchor and a tag in either order, at most one of each. -/
def properties : Nat → Properties → Reading Properties
  | 0, p => do
    let _ ← peek
    return p
  | n + 1, p => do
    match (← peek).type, p.anchor, p.tag with
    | .anchor name, none, _ => do
      skip
      properties n { p with anchor := some name }
    | .tag name, _, none => do
      skip
      properties n { p with tag := some name }
    | _, _, _ => return p

/-- A tag in full. -/
def fullTag (name : TagName) : Reading Text := do
  if name.handle.isEmpty then return name.suffix
  match (← get).handles.find? fun h => h.1 == name.handle with
  | some (_, start) => return start ++ name.suffix
  | none => failure

/-- Gives a number to a node with an anchor, from where it starts. -/
def note (anchor : Option (List Char)) : Reading (Option Nat) := do
  match anchor with
  | none => return none
  | some name =>
    let number := (← get).anchored.size
    modify fun r =>
      { r with names := (name, number) :: r.names, anchored := r.anchored.push (.empty 0) }
    return some number

/-- Counts a complete node and stores it under its number. -/
def finish (number : Option Nat) (n : Node) : Reading Node := do
  modify fun r =>
    match number with
    | none => { r with nodes := r.nodes + 1 }
    | some k => { r with nodes := r.nodes + 1, anchored := r.anchored.setIfInBounds k n }
  return n

/-- A new alias for the node that has a name. -/
def reference (name : List Char) : Reading Node := do
  let r ← get
  match r.names.find? fun a => a.1 == name with
  | some (_, anchor) =>
    set { r with aliases := r.aliases + 1 }
    finish none (.alias r.aliases anchor)
  | none => failure

mutual

/-- Reads a node. Blocks may start here only if `block`, and a sequence without indentation of its
own only if `indentless`. -/
def node (fuel : Nat) (block indentless : Bool) : Reading Node :=
  match fuel with
  | 0 => failure
  | fuel + 1 => do
    let first ← peek
    if let .alias name := first.type then
      skip
      return ← reference name
    let props ← properties 2 ⟨none, none⟩
    let tag ← match props.tag with
      | some name => fullTag name
      | none => pure []
    let t ← peek
    let number ← note props.anchor
    match t.type with
    | .scalar text plain => do
      skip
      let implicit := (tag.isEmpty && plain) || tag == Text.lit "!"
      finish number (.scalar (Text.ofChars text) tag implicit first.line)
    | .flowSequenceStart => do
      skip
      finish number (.sequence (← flowItems fuel true) first.line)
    | .flowMappingStart => do
      skip
      finish number (.mapping (← flowEntries fuel true) first.line)
    | .blockEntry =>
      if indentless then do
        finish number (.sequence (← indentlessItems fuel) first.line)
      else missing props number tag first.line
    | .blockSequenceStart =>
      if block then do
        skip
        finish number (.sequence (← blockItems fuel) first.line)
      else missing props number tag first.line
    | .blockMappingStart =>
      if block then do
        skip
        finish number (.mapping (← blockEntries fuel) first.line)
      else missing props number tag first.line
    | _ => missing props number tag first.line
termination_by structural fuel
where
  /-- An anchor or a tag alone makes an empty scalar. -/
  missing (props : Properties) (number : Option Nat) (tag : Text) (line : Nat) : Reading Node :=
    if props.anchor.isSome || props.tag.isSome then
      finish number (.scalar [] tag tag.isEmpty line)
    else failure

/-- Reads the items of a block sequence. -/
def blockItems (fuel : Nat) : Reading (List Node) :=
  match fuel with
  | 0 => failure
  | fuel + 1 => do
    let t ← peek
    match t.type with
    | .blockEntry => do
      skip
      let item ← match (← peek).type with
        | .blockEntry | .blockEnd => pure (.empty t.line)
        | _ => node fuel true false
      return item :: (← blockItems fuel)
    | .blockEnd => do
      skip
      return []
    | _ => failure
termination_by structural fuel

/-- Reads the items of a sequence that has the indentation of its parent. -/
def indentlessItems (fuel : Nat) : Reading (List Node) :=
  match fuel with
  | 0 => failure
  | fuel + 1 => do
    let t ← peek
    match t.type with
    | .blockEntry => do
      skip
      let item ← match (← peek).type with
        | .blockEntry | .key | .value | .blockEnd => pure (.empty t.line)
        | _ => node fuel true false
      return item :: (← indentlessItems fuel)
    | _ => return []
termination_by structural fuel

/-- Reads the entries of a block mapping. -/
def blockEntries (fuel : Nat) : Reading (List (Node × Node)) :=
  match fuel with
  | 0 => failure
  | fuel + 1 => do
    let t ← peek
    match t.type with
    | .key => do
      skip
      let key ← blockPart fuel t.line
      let next ← peek
      let value ← match next.type with
        | .value => do
          skip
          blockPart fuel next.line
        | _ => pure (.empty next.line)
      return (key, value) :: (← blockEntries fuel)
    | .blockEnd => do
      skip
      return []
    | _ => failure
termination_by structural fuel

/-- Reads the key or the value of a block mapping, after its mark. -/
def blockPart (fuel : Nat) (line : Nat) : Reading Node :=
  match fuel with
  | 0 => failure
  | fuel + 1 => do
    match (← peek).type with
    | .key | .value | .blockEnd => return .empty line
    | _ => node fuel true true
termination_by structural fuel

/-- Reads the items of a flow sequence. A key among them makes a mapping of one entry. -/
def flowItems (fuel : Nat) (first : Bool) : Reading (List Node) :=
  match fuel with
  | 0 => failure
  | fuel + 1 => do
    let t ← peek
    if t.type = .flowSequenceEnd then
      skip
      return []
    if !first then
      if t.type = .flowEntry then skip else failure
    let t ← peek
    match t.type with
    | .flowSequenceEnd => do
      skip
      return []
    | .key => do
      skip
      let pair ← flowPair fuel t.line
      let item ← finish none (.mapping [pair] t.line)
      return item :: (← flowItems fuel false)
    | _ => do
      let item ← node fuel false false
      return item :: (← flowItems fuel false)
termination_by structural fuel

/-- Reads the single entry of a mapping inside a flow sequence, after its mark. Where the key is
missing, the token in its place is passed over. -/
def flowPair (fuel : Nat) (line : Nat) : Reading (Node × Node) :=
  match fuel with
  | 0 => failure
  | fuel + 1 => do
    let key ← match (← peek).type with
      | .value | .flowEntry | .flowSequenceEnd => do
        skip
        pure (.empty line)
      | _ => node fuel false false
    let next ← peek
    if next.type = .value then
      skip
      match (← peek).type with
      | .flowEntry | .flowSequenceEnd => return (key, .empty next.line)
      | _ => return (key, ← node fuel false false)
    else return (key, .empty next.line)
termination_by structural fuel

/-- Reads the entries of a flow mapping. -/
def flowEntries (fuel : Nat) (first : Bool) : Reading (List (Node × Node)) :=
  match fuel with
  | 0 => failure
  | fuel + 1 => do
    let t ← peek
    if t.type = .flowMappingEnd then
      skip
      return []
    if !first then
      if t.type = .flowEntry then skip else failure
    let t ← peek
    match t.type with
    | .flowMappingEnd => do
      skip
      return []
    | .key => do
      skip
      let key ← match (← peek).type with
        | .value | .flowEntry | .flowMappingEnd => pure (.empty t.line)
        | _ => node fuel false false
      let next ← peek
      let value ←
        if next.type = .value then do
          skip
          match (← peek).type with
          | .flowEntry | .flowMappingEnd => pure (.empty next.line)
          | _ => node fuel false false
        else pure (.empty next.line)
      return (key, value) :: (← flowEntries fuel false)
    | _ => do
      let key ← node fuel false false
      let next ← peek
      return (key, .empty next.line) :: (← flowEntries fuel false)
termination_by structural fuel

end

/-- Reads the directives in front of a document: the version, which must be 1.1, and what handles
stand for, each at most once. -/
def directives : Nat → Bool → List (List Char × Text) → Reading Unit
  | 0, _, _ => failure
  | n + 1, versioned, given => do
    match (← peek).type with
    | .directive (.version major minor) =>
      if versioned || major != 1 || minor != 1 then failure
      else do
        skip
        directives n true given
    | .directive (.tag handle start) =>
      if given.any fun h => h.1 == handle then failure
      else do
        skip
        directives n versioned ((handle, start) :: given)
    | _ => modify fun r => { r with handles := given ++ r.handles }

/-- Reads the first document of a file, if it has one. -/
def document : Reading (Option Node) := do
  -- A character gives rise to less than eight tokens, and a token to two calls at most.
  let fuel := 16 * ((← get).scanner.source.left + 4)
  match (← peek).type with
  | .streamEnd => return none
  | .directive _ | .documentStart => do
    directives fuel false []
    if (← peek).type ≠ .documentStart then failure
    skip
    let t ← peek
    match t.type with
    | .directive _ | .documentStart | .documentEnd | .streamEnd => return some (.empty t.line)
    | _ => content fuel
  | _ => content fuel
where
  /-- Reads the root; what follows it is looked at but not read. -/
  content (fuel : Nat) : Reading (Option Node) := do
    let root ← node fuel true false
    let _ ← peek
    return some root

end Reading

/-- The handles that need no directive. -/
def defaultHandles : List (List Char × Text) :=
  [(['!'], Text.lit "!"), (['!', '!'], Text.lit "tag:yaml.org,2002:")]

/-- The first document of a text; `none` if the text cannot be read, and no document if it is
empty. -/
def parse (t : Text) : Option (Option Document) := do
  let (root, r) ← Reading.document.run ⟨Scanner.ofText t, defaultHandles, [], #[], 0, 0⟩
  some (root.map fun root => ⟨root, r.anchored, r.aliases, r.nodes⟩)

end Yaml

end Reckon
