import Reckon.Batch
import Reckon.Command.Arguments
import Reckon.Settings.File

/-!
# What the program does

The arguments of the program, together with the settings file that they may name, determine a plan:
say or explain something and stop, evaluate equations, or serve them. A flag changes a setting if
its value is not the one that stands for nothing (`Choices.effective`). Settings are checked before
anything is done. What is said where something is explained is not decided here.
-/

namespace Reckon

/-- What was chosen on the command line. -/
structure Choices where
  /-- The settings before flags are taken into account. -/
  settings : Settings
  debug : Bool
  skipSpaces : Bool
  tolerance : Float
  logging : Text
  address : Text
  tree : Bool
  tokens : Bool
  /-- Whether only the words are asked for that could come next. -/
  completion : Bool
  words : List Text

namespace Choices

/-- Nothing chosen. -/
def initial : Choices :=
  ⟨Settings.default, false, false, 0, [], [], false, false, false, []⟩

variable {m : Type → Type} [Monad m]

/-- Stores the value of a flag. A settings file is read at once. -/
def setValue (readFile : Text → m (Except FileFault Text)) (c : Choices) (f : Flag) (t : Text) :
    m (Except ArgumentError Choices) :=
  match f with
  | .config => do
    match ← readFile t with
    | .error fault => return .error (.settings (.unreadableFile t fault))
    | .ok file =>
      match c.settings.parse file with
      | (some e, _) => return .error (.settings e)
      | (none, settings) => return .ok { c with settings }
  | .tolerance =>
    match FloatText.read t with
    | .ok tolerance => pure (.ok { c with tolerance })
    | .error fault => pure (.error (.badNumber t fault))
  | .logging => pure (.ok { c with logging := t })
  | .address => pure (.ok { c with address := t })
  | _ => pure (.ok c)

/-- Turns a switch on or off. -/
def setSwitch (c : Choices) (f : Flag) (on : Bool) : Choices :=
  match f with
  | .debug => { c with debug := on }
  | .skipSpaces => { c with skipSpaces := on }
  | .tree => { c with tree := on }
  | .tokens => { c with tokens := on }
  | .completion => { c with completion := on }
  | _ => c

/-- Makes choices one after another, up to the first error. No flag may come twice; `seen` holds
those that came before. -/
def make (readFile : Text → m (Except FileFault Text)) (seen : List Flag) (c : Choices) :
    List Choice → m (Option ArgumentError × Choices)
  | [] => pure (none, c)
  | .value f t :: rest =>
    if seen.contains f then pure (some (.repeated f), c)
    else do
      match ← c.setValue readFile f t with
      | .error e => return (some e, c)
      | .ok c => make readFile (f :: seen) c rest
  | .switch f on :: rest =>
    if seen.contains f then pure (some (.repeated f), c)
    else make readFile (f :: seen) (c.setSwitch f on) rest
  | .word t :: rest => make readFile seen { c with words := c.words ++ [t] } rest
  | .command _ :: rest => make readFile seen c rest

/-- The settings after flags are taken into account. -/
def effective (c : Choices) : Settings :=
  let s := c.settings
  { s with
    debug := c.debug || s.debug
    skipSpaces := c.skipSpaces || s.skipSpaces
    tolerance := if c.tolerance != 0 then c.tolerance else s.tolerance
    logging := if c.logging.isEmpty then s.logging else c.logging
    server := { s.server with
      address := if c.address.isEmpty then s.server.address else c.address } }

/-- What is written for an equation. -/
def mode (c : Choices) : Mode := if c.tokens then .tokens else if c.tree then .tree else .value

end Choices

/-- What can be explained at length. -/
inductive Topic where
  /-- How the program is used. -/
  | usage
  | longHelp
  | manual
  | bashScript
  | zshScript
  /-- The words that could come next. -/
  | completions
deriving DecidableEq, Repr

/-- What the program is going to do. -/
inductive Plan where
  /-- Write something and stop with an exit code. -/
  | stop (code : Nat) (output : Output)
  /-- Write a complaint to standard error, explain something and stop with an exit code. -/
  | explain (code : Nat) (complaint : Text) (topic : Topic)
  /-- Evaluate the given equations, or those on standard input if there are none. -/
  | evaluate (settings : Settings) (mode : Mode) (equations : List Text)
  | serve (settings : Settings)
  /-- Nothing yet: there are more files of arguments than were allowed to be read. -/
  | unread

namespace Plan

/-- The version of the program. -/
def version : Text := Text.lit "development"

/-- Writes a text to standard error and stops. -/
def say (code : Nat) (t : Text) : Plan := stop code ⟨[], t⟩

/-- What is written to complain. -/
def complaint (t : Text) : Text := Text.lit "eqcalc: error: " ++ t ++ Text.lit "\n"

/-- Complains about arguments. -/
def wrongArguments (e : ArgumentError) : Plan :=
  say 1 (complaint (e.message ++ Text.lit ", try --help"))

/-- Complains about settings and shows how the program is used. -/
def wrongSettings (t : Text) : Plan := explain 1 (complaint (t ++ Text.lit "\n")) .usage

/-- What is done at once for a choice, whatever else is chosen: the version, help and scripts are
shown. It is given why the words after `help` cannot be read to their end. -/
def atOnce? (topics : Option Stop) : Choice → Option Plan
  | .switch .version _ => some (say 0 (version ++ Text.lit "\n"))
  | .switch .longHelp _ => some (explain 0 [] .longHelp)
  | .switch .manual _ => some (explain 0 [] .manual)
  | .switch .bashScript _ => some (explain 0 [] .bashScript)
  | .switch .zshScript _ => some (explain 0 [] .zshScript)
  | .command .help =>
    match topics with
    | some (.error e) => some (say 1 (complaint e.message))
    | some .unread => some unread
    | none => some (explain 0 [] .usage)
  | _ => none

/-- Whether a choice asks for help. -/
def isHelp : Choice → Bool
  | .switch .help _ => true
  | _ => false

/-- What to do for a command with all choices made. -/
def ofChoices (command : Subcommand) (c : Choices) : Plan :=
  let s := c.effective
  match s.validate with
  | some e => wrongSettings e.message
  | none =>
    match (s.setupLogging LogLevels.initial).1 with
    | some e => wrongSettings e.message
    | none =>
      match command with
      | .serve => serve s
      | _ => evaluate s c.mode c.words

/-- The command among some choices. -/
def command (l : List Choice) : Subcommand :=
  (l.findSome? fun
    | .command c => some c
    | _ => none).getD .eval

/-- What is done at once, whatever is wrong with the arguments. -/
def early? (topics : Option Stop) (l : List Choice) (c : Choices) : Option Plan :=
  if c.completion then some (explain 0 [] .completions) else l.findSome? (atOnce? topics)

/-- The plan for arguments that have been read, given what the choices come to and the first one
that could not be made. -/
def ofMade (invocation : Invocation) (topics : Option Stop) (error? : Option ArgumentError)
    (c : Choices) : Plan :=
  let early? := early? topics invocation.choices c
  match invocation.stop? with
  | some .unread => unread
  | some (.error e) => early?.getD (wrongArguments e)
  | none =>
    early?.getD <|
      if invocation.choices.any isHelp then explain 0 [] .usage
      else
        match error? with
        | some e => wrongArguments e
        | none => ofChoices (command invocation.choices) c

variable {m : Type → Type} [Monad m]

/-- The plan for arguments that have been read. Words after `help` may stand for the given number of
files. -/
def ofInvocation (readFile : Text → m (Except FileFault Text)) (files : Nat)
    (invocation : Invocation) : m Plan := do
  let (error?, c) ← Choices.initial.make readFile [] invocation.choices
  let topics ←
    if command invocation.choices = .help then
      pure (Invocation.topicStop? (← Mark.ofArguments readFile files c.words))
    else pure none
  return ofMade invocation topics error? c

/-- The plan for the given arguments, of which at most the given number may stand for files. -/
def ofArguments (readFile : Text → m (Except FileFault Text)) (files : Nat) (args : List Text) :
    m Plan := do
  ofInvocation readFile files (Invocation.read (← Mark.ofArguments readFile files args))

/-- The exit code after a batch: lines that are too long count more than equations that fail. -/
def exitCode (b : Runner.Batch) : Nat := if b.tooLong then 2 else if b.failed = 0 then 0 else 1

/-- Evaluates equations, or those of an input if there are none. -/
def batch (settings : Settings) (mode : Mode) (equations : List Text) (input : Text) :
    Runner.Batch :=
  let runner := Runner.ofOptions settings.sessionOptions mode
  if equations.isEmpty then runner.run input else runner.lines equations

end Plan

end Reckon
