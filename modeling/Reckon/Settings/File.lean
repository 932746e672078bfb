import Reckon.Settings.Basic
import Reckon.Yaml.Resolve

/-!
# Reading settings from a file

A file is a mapping from the names of settings to their values; it changes the settings that it
names and leaves the others. Unknown names are ignored, an empty value resets a setting, and text
settings take any scalar as it is written. A value of the wrong type changes nothing and is
complained about, after which reading goes on. Aliases are followed only where a value is used; a
mapping that is merged into itself, and a file that lives on aliases, are refused.
-/

namespace Reckon

namespace Settings

/-- A kind of value that a setting has. -/
inductive Kind where
  | bool
  | float
  | int
  | text
  | texts
  | server
  | settings
deriving DecidableEq, Repr

/-- How a kind of value is called in complaints. -/
def Kind.name : Kind → Text
  | bool => Text.lit "bool"
  | float => Text.lit "float64"
  | int => Text.lit "int"
  | text => Text.lit "string"
  | texts => Text.lit "map[string]string"
  | server =>
    Text.lit ("struct \x7b ListenAddress string \"yaml:\\\"address,omitempty\\\"\"; "
      ++ "MaxSessions int \"yaml:\\\"max-sessions,omitempty\\\"\"; "
      ++ "ShutdownTimeout string \"yaml:\\\"shutdown-timeout,omitempty\\\"\" \x7d")
  | settings => Text.lit "config.Config"

/-- What reading a file works on. -/
structure FileState where
  settings : Settings
  /-- The complaints, the last one first. -/
  complaints : List Text
  /-- How many values were looked at. -/
  visits : Nat
  /-- How many of them were looked at by way of an alias. -/
  borrowed : Nat
  /-- The numbers of the aliases that are being followed. -/
  following : List Nat

/-- A step of reading a document; it fails for good on what is no settings file at all, and keeps
what it has read. -/
abbrev FileReader := ReaderT Yaml.Document (ExceptT Unit (StateM FileState))

namespace FileReader

/-- Complains about a value of the wrong type. Only the beginning of a long value is shown. -/
def complain (line : Nat) (tag value : Text) (kind : Kind) : FileReader Unit :=
  let shown := if 10 < value.length then value.take 7 ++ Text.lit "..." else value
  let quoted :=
    if tag == Yaml.standardTag "seq" || tag == Yaml.standardTag "map" then value
    else Text.lit " \x60" ++ shown ++ Text.lit "\x60"
  let complaint := Text.lit "line " ++ Text.ofNat (line + 1) ++ Text.lit ": cannot unmarshal "
    ++ Yaml.shortTag tag ++ quoted ++ Text.lit " into " ++ kind.name
  modify fun s => { s with complaints := complaint :: s.complaints }

/-! ### Aliases -/

/-- Whether too many of the values looked at were borrowed: more than 99 in 100 as long as there are
at most 400000, and from then on evenly less, down to 10 in 100 for 4000000 and more. Small numbers
do not count. -/
def isExcessive (visits borrowed : Nat) : Bool :=
  let range := 3600000
  let grown := min (visits - 400000) range
  100 < borrowed && 1000 < visits &&
    visits * (99 * range - 89 * grown) < borrowed * (100 * range)

/-- Counts a value that is looked at. -/
def visit : FileReader Unit := do
  modify fun s =>
    let borrowed := if s.following.isEmpty then s.borrowed else s.borrowed + 1
    { s with visits := s.visits + 1, borrowed }
  let s ← get
  if isExcessive s.visits s.borrowed then throw ()

/-- Looks at a node; an alias is followed to its target unless it is being followed already. -/
def enter {α : Type} (node : Yaml.Node) (look : Yaml.Node → FileReader α) : FileReader α := do
  visit
  match node with
  | .alias number anchor => do
    if (← get).following.contains number then throw ()
    modify fun s => { s with following := number :: s.following }
    visit
    let a ← look ((← read).target anchor)
    modify fun s => { s with following := s.following.drop 1 }
    return a
  | node => look node

/-! ### Values -/

/-- The value that a scalar gives to a setting of some kind, if it fits. Nothing gives the zero
value. -/
def scalarValue {α : Type} (kind : Kind) (zero : α) (value? : Yaml.Meaning → Text → Option α)
    (text tag : Text) (implicit : Bool) (line : Nat) : FileReader (Option α) :=
  match Yaml.resolve? tag text implicit with
  | none => throw ()
  | some (_, .null) => return some zero
  | some (shown, meaning) =>
    match value? meaning text with
    | some v => return some v
    | none => do
      complain line (if tag.isEmpty then shown else tag) text kind
      return none

/-- The value that a node gives to a setting of a simple kind. -/
def simpleValue {α : Type} (kind : Kind) (zero : α) (value? : Yaml.Meaning → Text → Option α)
    (node : Yaml.Node) : FileReader (Option α) :=
  enter node fun
    | .scalar text tag implicit line => scalarValue kind zero value? text tag implicit line
    | .sequence _ line => do
      complain line (Yaml.standardTag "seq") [] kind
      return none
    | .mapping _ line => do
      complain line (Yaml.standardTag "map") [] kind
      return none
    | .alias .. => throw ()

/-- Truth values come from truth values only. -/
def boolValue : Yaml.Node → FileReader (Option Bool) :=
  simpleValue .bool false fun m _ =>
    match m with
    | .bool b => some b
    | _ => none

/-- Floats come from any number. -/
def floatValue : Yaml.Node → FileReader (Option Float) :=
  simpleValue .float 0 fun m _ =>
    match m with
    | .int n => some (Float.ofInt n)
    | .float x => some x
    | _ => none

/-- The whole part of a float as an integer of 64 bits, and the least one if it does not fit. -/
def wholePart (x : Float) : Int64 :=
  match (Binary64.ofFloat x).truncate? with
  | some n =>
    if -0x8000000000000000 ≤ n && n < 0x8000000000000000 then Int64.ofInt n else Int64.minValue
  | none => Int64.minValue

/-- Integers come from integers of 64 bits and from floats up to `2 ^ 63`, cut to their whole
part. -/
def intValue : Yaml.Node → FileReader (Option Int64) :=
  simpleValue .int 0 fun m _ =>
    match m with
    | .int n => if n < 0x8000000000000000 then some (Int64.ofInt n) else none
    | .float x => if x ≤ Float.ofNat (0x8000000000000000) then some (wholePart x) else none
    | _ => none

/-- Texts come from any scalar: bytes as they are meant, all else as it is written. -/
def textValue : Yaml.Node → FileReader (Option Text) :=
  simpleValue .text [] fun m text =>
    match m with
    | .binary data => some data
    | _ => some text

/-! ### Mappings -/

/-- Whether a key asks for the entries of other mappings. -/
def isMerge : Yaml.Node → Bool
  | .scalar text tag implicit _ =>
    text == Text.lit "<<" && (implicit || tag == Yaml.standardTag "merge")
  | _ => false

/-- The nodes whose entries are asked for, in the order in which they apply. -/
def mergeSources : Yaml.Node → List Yaml.Node
  | .sequence items _ => items.reverse
  | value => [value]

/-- Whether a node is a mapping, perhaps by an alias. -/
def isMapping (d : Yaml.Document) : Yaml.Node → Bool
  | .mapping .. => true
  | .alias _ anchor => (d.target anchor matches .mapping ..)
  | _ => false

/-- Reads the entries of a mapping, merged ones in place. Keys that are no text are complained about
and passed over. The number bounds how deep mappings may be merged. -/
def eachEntry (f : Text → Yaml.Node → FileReader Unit) :
    Nat → List (Yaml.Node × Yaml.Node) → FileReader Unit
  | 0, _ => throw ()
  | depth + 1, entries =>
    entries.forM fun (key, value) => do
      if isMerge key then
        (mergeSources value).forM fun source => do
          if !isMapping (← read) source then throw ()
          enter source fun
            | .mapping entries _ => eachEntry f depth entries
            | _ => throw ()
      else
        match ← textValue key with
        | some name => f name value
        | none => pure ()

/-- Handles a node that should be a mapping: a mapping entry by entry, an empty value as a reset,
and anything else with a complaint. -/
def asMapping (kind : Kind) (f : Text → Yaml.Node → FileReader Unit) (reset : FileReader Unit)
    (node : Yaml.Node) : FileReader Unit :=
  enter node fun
    | .mapping entries _ => do eachEntry f ((← read).reach + 1) entries
    | .sequence _ line => complain line (Yaml.standardTag "seq") [] kind
    | .scalar text tag implicit line => do
      match ← scalarValue kind () (fun _ _ => none) text tag implicit line with
      | some () => reset
      | none => pure ()
    | .alias .. => throw ()

/-- Changes the settings. -/
def change (f : Settings → Settings) : FileReader Unit :=
  modify fun s => { s with settings := f s.settings }

/-- Stores a value, if there is one. -/
def store {α : Type} (value : FileReader (Option α)) (f : α → Settings → Settings) :
    FileReader Unit := do
  match ← value with
  | some v => change (f v)
  | none => pure ()

/-- Reads a setting of the HTTP front end. -/
def serverEntry (name : Text) (value : Yaml.Node) : FileReader Unit :=
  if name == Text.lit "address" then
    store (textValue value) fun v s => { s with server := { s.server with address := v } }
  else if name == Text.lit "max-sessions" then
    store (intValue value) fun v s => { s with server := { s.server with maxSessions := v } }
  else if name == Text.lit "shutdown-timeout" then
    store (textValue value) fun v s => { s with server := { s.server with shutdownTimeout := v } }
  else pure ()

/-- Reads a setting. -/
def entry (name : Text) (value : Yaml.Node) : FileReader Unit :=
  if name == Text.lit "skip-spaces" then
    store (boolValue value) fun v s => { s with skipSpaces := v }
  else if name == Text.lit "equality-tolerance" then
    store (floatValue value) fun v s => { s with tolerance := v }
  else if name == Text.lit "debug-mode" then
    store (boolValue value) fun v s => { s with debug := v }
  else if name == Text.lit "logging" then
    store (textValue value) fun v s => { s with logging := v }
  else if name == Text.lit "logging-options" then
    let option (name : Text) (value : Yaml.Node) : FileReader Unit :=
      store (textValue value) fun v s =>
        { s with loggingOptions := s.loggingOptions.insert name v }
    asMapping .texts option (change fun s => { s with loggingOptions := Dict.empty }) value
  else if name == Text.lit "server" then
    asMapping .server serverEntry (change fun s => { s with server := ServerSettings.zero }) value
  else pure ()

/-- Reads a document, which is looked at as a whole before its root. -/
def document : FileReader Unit := do
  visit
  asMapping .settings entry (change fun _ => Settings.zero) (← read).root

end FileReader

/-- Reads a file on top of the settings. -/
def parse (s : Settings) (file : Text) : Option SettingsError × Settings :=
  match Yaml.parse file with
  | none => (some .malformedFile, s)
  | some none => (none, s)
  | some (some d) =>
    match ((FileReader.document.run d).run ⟨s, [], 0, 0, []⟩) with
    | (.error _, state) => (some .malformedFile, state.settings)
    | (.ok _, state) =>
      if state.complaints.isEmpty then (none, state.settings)
      else (some (.wrongTypes state.complaints.reverse), state.settings)

end Settings

end Reckon
