import Reckon.Session

/-!
# Several sessions and their tables

A workspace holds any number of sessions. Each has a table at home in the workspace, and sessions
with the same home share it. A step is addressed to one session.
-/

namespace Reckon

/-- Something that is done to a session. -/
inductive SessionStep where
  | eval (equation : Text)
  | parse (equation : Text)
  | tokenize (equation : Text)
  | lookup (name : Text)
  /-- Stores any value, straight into the table. -/
  | assign (name : Text) (value : Value)

/-- What came of a step. -/
inductive StepResult where
  | eval (r : Except EquationError Value)
  | parse (r : Except InputError Expr)
  | tokenize (tokens : List Token) (failure : Option LexError)
  | lookup (found : Option Value)
  | assign

/-- Sessions with the places of their tables, and the tables. -/
structure Workspace where
  sessions : List (Session × Nat)
  tables : Nat → Table

namespace Workspace

/-- A workspace of new sessions with empty tables, each given with the place of its table. -/
def ofOptions (options : List (SessionOptions × Nat)) : Workspace :=
  ⟨options.map fun (o, home) => (Session.ofOptions o, home), fun _ => Dict.empty⟩

/-- The table of a session. -/
def table (w : Workspace) (i : Nat) : Table :=
  match w.sessions[i]? with
  | some (_, home) => w.tables home
  | none => Dict.empty

/-- Puts a session and its table back. -/
def update (w : Workspace) (i : Nat) (session : Session) (home : Nat) (table : Table) : Workspace :=
  ⟨w.sessions.set i (session, home), fun place => if place = home then table else w.tables place⟩

/-- Does one step in the given session; a session that does not exist does nothing. -/
def step (w : Workspace) (i : Nat) (s : SessionStep) : Option StepResult × Workspace :=
  match w.sessions[i]? with
  | none => (none, w)
  | some (session, home) =>
    let table := w.tables home
    match s with
    | .eval equation =>
      let (r, session, table) := session.eval table equation
      (some (.eval r), w.update i session home table)
    | .parse equation =>
      let (r, session) := session.parse equation
      (some (.parse r), w.update i session home table)
    | .tokenize equation =>
      let (tokens, failure) := session.tokenize equation
      (some (.tokenize tokens failure), w)
    | .lookup name => (some (.lookup (table.find? name)), w)
    | .assign name value => (some .assign, w.update i session home (table.insert name value))

end Workspace

end Reckon
