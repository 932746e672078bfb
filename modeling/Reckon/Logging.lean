import Reckon.Dict
import Reckon.Text.Lower
import Reckon.Text.Quoted

/-!
# Log levels

Four parts of the program log, each with a level of its own. Levels and loggers are named without
regard to case. Setting several levels stops at the first one that fails and keeps those before it.
-/

namespace Reckon

/-- How much is logged, from least to most. -/
inductive LogLevel where
  | panic
  | fatal
  | error
  | warning
  | info
  | debug
  | trace
deriving DecidableEq, Repr, Inhabited

namespace LogLevel

/-- The name of a level. -/
def name : LogLevel → Text
  | panic => Text.lit "panic"
  | fatal => Text.lit "fatal"
  | error => Text.lit "error"
  | warning => Text.lit "warning"
  | info => Text.lit "info"
  | debug => Text.lit "debug"
  | trace => Text.lit "trace"

/-- All levels. -/
def all : List LogLevel := [panic, fatal, error, warning, info, debug, trace]

/-- The level with a given name, in any case; `warn` is short for `warning`. -/
def ofText? (t : Text) : Option LogLevel :=
  let small := Text.lower t
  if small == Text.lit "warn" then some warning else all.find? fun l => l.name == small

end LogLevel

/-- The parts of the program that log. -/
inductive Logger where
  | core
  | evaluator
  | parser
  | rest
deriving DecidableEq, Repr, Inhabited

namespace Logger

/-- The name of a logger. -/
def name : Logger → Text
  | core => Text.lit "core"
  | evaluator => Text.lit "evaluator"
  | parser => Text.lit "parser"
  | rest => Text.lit "rest"

/-- All loggers, in the order of their names. -/
def all : List Logger := [core, evaluator, parser, rest]

/-- The logger with a given name, in any case. -/
def ofText? (t : Text) : Option Logger :=
  let small := Text.lower t
  all.find? fun l => l.name == small

end Logger

/-- Why a level could not be set. -/
inductive LoggingError where
  | badLevel (level : Text)
  | unknownLogger (name : Text)
  /-- A failure while setting several levels, at the given entry. -/
  | atEntry (name : Text) (cause : LoggingError)
deriving DecidableEq, Repr

/-- What the user is told. -/
def LoggingError.message : LoggingError → Text
  | badLevel level =>
    Text.lit "failed to parse level: not a valid logrus Level: " ++ Text.quote level
  | unknownLogger name => Text.lit "'" ++ name ++ Text.lit "' is unknown logger name"
  | atEntry name cause => Text.lit "logger " ++ Text.quote name ++ Text.lit ": " ++ cause.message

/-- The level of every logger. -/
structure LogLevels where
  level : Logger → LogLevel

namespace LogLevels

/-- The levels at the start. -/
def initial : LogLevels := ⟨fun _ => .info⟩

/-- Sets the level of one logger. -/
def set (l : LogLevels) (logger : Logger) (level : LogLevel) : LogLevels :=
  ⟨fun other => if other = logger then level else l.level other⟩

/-- Sets the level of one logger, both given by name. The level is looked at first. -/
def setNamed (l : LogLevels) (name level : Text) : Except LoggingError LogLevels :=
  match LogLevel.ofText? level with
  | none => .error (.badLevel level)
  | some level' =>
    match Logger.ofText? name with
    | none => .error (.unknownLogger name)
    | some logger => .ok (l.set logger level')

/-- Sets several levels in order, up to the first failure. -/
def setAll (l : LogLevels) : List (Text × Text) → Option LoggingError × LogLevels
  | [] => (none, l)
  | (name, level) :: rest =>
    match l.setNamed name level with
    | .error e => (some (.atEntry name e), l)
    | .ok l => l.setAll rest

/-- The names of all levels, by logger. -/
def listing (l : LogLevels) : List (Text × Text) :=
  Logger.all.map fun logger => (logger.name, (l.level logger).name)

/-- The entries that give every logger the same level. -/
def uniform (level : Text) : List (Text × Text) :=
  Logger.all.map fun logger => (logger.name, level)

end LogLevels

end Reckon
