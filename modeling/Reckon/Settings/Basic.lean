import Reckon.Files
import Reckon.Logging
import Reckon.Session
import Reckon.Settings.Duration

/-!
# Settings

The settings of the calculator: how equations are read and compared, what is logged, and how the
HTTP front end runs. They are checked as a whole (`Settings.validate`) before they are used.
-/

namespace Reckon

/-- The settings of the HTTP front end. -/
structure ServerSettings where
  address : Text
  /-- How many sessions may exist at once, if positive. -/
  maxSessions : Int64
  /-- How long open requests may take at the end, as a duration. -/
  shutdownTimeout : Text

namespace ServerSettings

/-- Nothing set. -/
def zero : ServerSettings := ⟨[], 0, []⟩

end ServerSettings

/-- The settings of the calculator. -/
structure Settings where
  skipSpaces : Bool
  tolerance : Float
  debug : Bool
  /-- The level of all loggers without one of their own. -/
  logging : Text
  /-- The levels of single loggers. -/
  loggingOptions : Dict Text
  server : ServerSettings

/-- Why settings could not be read or are not valid. -/
inductive SettingsError where
  /-- A file that cannot be read. -/
  | unreadableFile (path : Text) (fault : FileFault)
  /-- A file that is not in the right format at all. -/
  | malformedFile
  /-- Values of the wrong type, each with its own complaint. -/
  | wrongTypes (complaints : List Text)
  | negativeTolerance (x : Float)
  | negativeSessions (n : Int64)
  | badTimeout (e : Duration.Fault)

namespace SettingsError

/-- What the user is told. -/
def message : SettingsError → Text
  | unreadableFile path fault =>
    Text.lit "failed to read configuration: " ++ fault.message path
  | malformedFile => Text.lit "failed to parse configuration: yaml: malformed document"
  | wrongTypes complaints =>
    Text.lit "failed to parse configuration: yaml: unmarshal errors:\n  "
      ++ Text.join (Text.lit "\n  ") complaints
  | negativeTolerance x =>
    Text.lit "equality-tolerance must not be negative, got " ++ FloatLayout.plain.format x
  | negativeSessions n =>
    Text.lit "server.max-sessions must not be negative, got " ++ Text.ofInt n.toInt
  | badTimeout e => Text.lit "failed to parse server.shutdown-timeout: " ++ e.message

end SettingsError

namespace Settings

/-- Nothing set. -/
def zero : Settings := ⟨false, 0, false, [], Dict.empty, ServerSettings.zero⟩

/-- The settings that hold unless a file or a flag changes them. -/
def default : Settings :=
  { zero with
    logging := Text.lit "info"
    server := ⟨Text.lit ":8765", 1024, Text.lit "5s"⟩ }

/-- How long open requests may take at the end, in nanoseconds; nothing set means no time. -/
def shutdownTimeout (s : Settings) : Except SettingsError Int :=
  if s.server.shutdownTimeout.isEmpty then .ok 0
  else
    match Duration.read s.server.shutdownTimeout with
    | .ok n => .ok n
    | .error e => .error (.badTimeout e)

/-- The first thing that is wrong with the settings. -/
def validate (s : Settings) : Option SettingsError :=
  if s.tolerance < 0 then some (.negativeTolerance s.tolerance)
  else if s.server.maxSessions < 0 then some (.negativeSessions s.server.maxSessions)
  else
    match s.shutdownTimeout with
    | .ok _ => none
    | .error e => some e

/-- The options of new sessions. A tolerance that is not positive is none. -/
def sessionOptions (s : Settings) : SessionOptions :=
  ⟨s.skipSpaces, if 0 < s.tolerance then s.tolerance else 0⟩

/-- How many options of new sessions differ from the usual ones. -/
def optionCount (s : Settings) : Nat :=
  (if s.skipSpaces then 1 else 0) + (if 0 < s.tolerance then 1 else 0)

/-- The level of all loggers without one of their own; debugging sets it. -/
def baseLevel (s : Settings) : Text := if s.debug then LogLevel.debug.name else s.logging

/-- Sets the levels of all loggers: first the common one, then those of their own. -/
def setupLogging (s : Settings) (l : LogLevels) : Option LoggingError × LogLevels :=
  match l.setAll (LogLevels.uniform s.baseLevel) with
  | (some e, l) => (some e, l)
  | (none, l) => l.setAll s.loggingOptions.entries

end Settings

end Reckon
