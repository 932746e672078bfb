import Reckon.Service.Refusal
import Reckon.Settings.Basic

/-!
# The calculator as a service

A service keeps any number of sessions under names, each with a table of its own. A client's call
evaluates an equation in a session, which is created when it is first named, lists the variables of
a session, drops a session, or sets and lists log levels. `Service.perform` is the whole of it: a
function from the service and a call to the answer and the service after it.

The number of sessions may be limited. A session is created before its first equation is looked
at, so an equation that fails still leaves the session behind.
-/

namespace Reckon

/-- A session with its table. -/
structure Calculator where
  session : Session
  table : Table

namespace Calculator

/-- A new session with an empty table. -/
def ofOptions (o : SessionOptions) : Calculator := ⟨Session.ofOptions o, Dict.empty⟩

/-- Evaluates an equation. -/
def eval (c : Calculator) (equation : Text) : Except EquationError Value × Calculator :=
  let (result, session, table) := c.session.eval c.table equation
  (result, ⟨session, table⟩)

/-- The variables with their values as they are written. -/
def bindings (c : Calculator) : List (Text × Text) :=
  c.table.entries.map fun (name, value) => (name, value.text)

end Calculator

/-! ### Answers -/

/-- What a client learns about the value of an equation. -/
structure EvalResult where
  session : Text
  equation : Text
  kind : Text
  /-- The value as it is written. -/
  result : Text
  /-- The variable that was assigned, or nothing. -/
  name : Text
  /-- The number or truth value, if documents can hold it. -/
  value : Option Data

namespace EvalResult

/-- The kind of a value. -/
def kindOf : Value → Text
  | .number (.int _) => Text.lit "int"
  | .number (.float _) => Text.lit "float"
  | .bool _ => Text.lit "bool"
  | .assignment _ _ => Text.lit "assignment"

/-- A number or truth value in a document. There is no form for infinities and NaN. -/
def scalar? : Value → Option Data
  | .number (.int n) => some (.int n)
  | .number (.float x) => if (Binary64.ofFloat x).isFinite then some (.float x) else none
  | .bool b => some (.bool b)
  | .assignment _ _ => none

/-- What a client learns about a value; of an assignment it learns the name and the assigned
value. -/
def ofValue (session equation : Text) (v : Value) : EvalResult :=
  let (name, content) :=
    match v with
    | .assignment name value => (name, value)
    | v => ([], v)
  ⟨session, equation, kindOf v, v.text, name, scalar? content⟩

/-- The result as a document. -/
def data (r : EvalResult) : Data :=
  .fields ([(Text.lit "session", .text r.session), (Text.lit "equation", .text r.equation),
      (Text.lit "kind", .text r.kind), (Text.lit "result", .text r.result)]
    ++ Data.optionalText "name" r.name ++ Data.optional "value" r.value)

end EvalResult

/-- What comes of a call that is not refused. -/
inductive Outcome where
  | result (r : EvalResult)
  | bindings (session : Text) (l : List (Text × Text))
  | dropped (session : Text)
  | levels (l : List (Text × Text))

/-- An outcome as a document. -/
def Outcome.data : Outcome → Data
  | result r => r.data
  | bindings session l =>
    .fields [(Text.lit "session", .text session), (Text.lit "vars", Data.ofTexts l)]
  | dropped session =>
    .fields [(Text.lit "dropped", .bool true), (Text.lit "session", .text session)]
  | levels l => Data.ofTexts l

/-! ### Calls -/

/-- What is given to be evaluated. -/
structure Parameters where
  session : Text
  equation : Text
deriving DecidableEq, Repr

/-- What a client asks for. -/
inductive Call where
  /-- Evaluate an equation, unless the parameters cannot be had, for a cause. -/
  | eval (parameters : Except Text Parameters)
  /-- List the variables of a session. -/
  | bindings (session : Text)
  /-- Forget a session. -/
  | drop (session : Text)
  /-- Set log levels, given with the names of their loggers, and list them all. -/
  | levels (changes : List (Text × Text))

/-- Sets a log level, given by name like its logger, or says why the call is refused. -/
abbrev LevelSetter := LogLevels → (logger level : Text) → Except Refusal LogLevels

/-- Sets the level of a logger of this program. -/
def LogLevels.setter : LevelSetter := fun levels logger level =>
  match levels.setNamed logger level with
  | .ok levels => .ok levels
  | .error e => .error (.level e.message)

/-- The calculator as a service. -/
structure Service where
  settings : Settings
  /-- How log levels are set, if clients may do so. -/
  setLevel : Option LevelSetter
  levels : LogLevels
  sessions : Dict Calculator

namespace Service

/-- A service without sessions. -/
def ofSettings (settings : Settings) (setLevel : Option LevelSetter) (levels : LogLevels) :
    Service :=
  ⟨settings, setLevel, levels, Dict.empty⟩

/-- The session of clients who do not name one. -/
def defaultSession : Text := Text.lit "default"

/-- Whether there is no room for another session. -/
def isFull (s : Service) : Bool :=
  let limit := s.settings.server.maxSessions.toInt
  0 < limit && limit ≤ s.sessions.size

/-- The session with a given name, which is new if there is none yet and there is room. -/
def open? (s : Service) (name : Text) : Option Calculator :=
  match s.sessions.find? name with
  | some c => some c
  | none => if s.isFull then none else some (Calculator.ofOptions s.settings.sessionOptions)

/-- Evaluates an equation in a session; an empty name stands for the default session. -/
def evaluate (s : Service) (p : Parameters) : Except Refusal Outcome × Service :=
  let name := if p.session.isEmpty then defaultSession else p.session
  match s.open? name with
  | none => (.error .tooManySessions, s)
  | some c =>
    let (result, c) := c.eval p.equation
    let s := { s with sessions := s.sessions.insert name c }
    match result with
    | .error e => (.error (.equation e), s)
    | .ok v => (.ok (.result (EvalResult.ofValue name p.equation v)), s)

/-- Sets levels one after another, up to the first refusal. -/
def setLevels (set : LevelSetter) (levels : LogLevels) :
    List (Text × Text) → Option Refusal × LogLevels
  | [] => (none, levels)
  | (logger, level) :: rest =>
    match set levels logger level with
    | .error e => (some e, levels)
    | .ok levels => setLevels set levels rest

/-- Does what a client asks for. -/
def perform (s : Service) : Call → Except Refusal Outcome × Service
  | .eval (.error cause) => (.error (.malformedParameters cause), s)
  | .eval (.ok p) => s.evaluate p
  | .bindings name =>
    match s.sessions.find? name with
    | none => (.error (.noSession name), s)
    | some c => (.ok (.bindings name c.bindings), s)
  | .drop name =>
    if s.sessions.contains name then
      (.ok (.dropped name), { s with sessions := s.sessions.erase name })
    else (.error (.noSession name), s)
  | .levels changes =>
    match setLevels (s.setLevel.getD LogLevels.setter) s.levels changes with
    | (some e, levels) => (.error e, { s with levels })
    | (none, levels) => (.ok (.levels levels.listing), { s with levels })

end Service

end Reckon
