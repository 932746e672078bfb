import Reckon.Text.Quoted

/-!
# Commands and flags

The program has three commands: it evaluates equations, which is what it does unless told otherwise,
serves them over HTTP, or shows help. A flag belongs to all commands or to one of them. Some flags
are switches, which can be negated with `--no-`; the others take a value.
-/

namespace Reckon

/-- What the program can be told to do. -/
inductive Subcommand where
  | eval
  | serve
  | help
deriving DecidableEq, Repr

namespace Subcommand

/-- All commands. -/
def all : List Subcommand := [eval, serve, help]

/-- The name of a command. -/
def name : Subcommand → Text
  | eval => Text.lit "eval"
  | serve => Text.lit "serve"
  | help => Text.lit "help"

/-- The command with a given name. -/
def ofText? (t : Text) : Option Subcommand := all.find? fun c => c.name == t

/-- Whether words may follow a command. -/
def takesWords : Subcommand → Bool
  | eval => true
  | serve => false
  | help => true

end Subcommand

/-- What can be chosen on the command line. -/
inductive Flag where
  | help
  | longHelp
  | manual
  | version
  | config
  | debug
  | skipSpaces
  | tolerance
  | logging
  | tree
  | tokens
  | address
  | completion
  | bashScript
  | zshScript
deriving DecidableEq, Repr

namespace Flag

/-- All flags. -/
def all : List Flag :=
  [help, longHelp, manual, version, config, debug, skipSpaces, tolerance, logging, tree, tokens,
    address, completion, bashScript, zshScript]

/-- The name of a flag, which follows `--`. -/
def name : Flag → Text
  | help => Text.lit "help"
  | longHelp => Text.lit "help-long"
  | manual => Text.lit "help-man"
  | version => Text.lit "version"
  | config => Text.lit "config"
  | debug => Text.lit "debug"
  | skipSpaces => Text.lit "skip-spaces"
  | tolerance => Text.lit "tolerance"
  | logging => Text.lit "logging"
  | tree => Text.lit "tree"
  | tokens => Text.lit "tokens"
  | address => Text.lit "address"
  | completion => Text.lit "completion-bash"
  | bashScript => Text.lit "completion-script-bash"
  | zshScript => Text.lit "completion-script-zsh"

/-- The letter of a flag that has one, which follows `-`. -/
def letter? : Flag → Option Text
  | debug => some (Text.lit "d")
  | skipSpaces => some (Text.lit "s")
  | address => some (Text.lit "l")
  | _ => none

/-- Whether a flag takes a value. -/
def takesValue : Flag → Bool
  | config => true
  | tolerance => true
  | logging => true
  | address => true
  | _ => false

/-- The command that a flag belongs to, if it is not for all commands. -/
def owner? : Flag → Option Subcommand
  | tree => some .eval
  | tokens => some .eval
  | address => some .serve
  | _ => none

/-- Whether a flag can be given, with the command as far as it is known. -/
def isKnown (command : Option Subcommand) (f : Flag) : Bool :=
  match f.owner? with
  | none => true
  | some c => command == some c

/-- The flag with a given letter. -/
def ofLetter? (t : Text) : Option Flag := all.find? fun f => f.letter? == some t

/-- The known flag with a given name. -/
def ofName? (command : Option Subcommand) (t : Text) : Option Flag :=
  all.find? fun f => f.isKnown command && f.name == t

end Flag

end Reckon
