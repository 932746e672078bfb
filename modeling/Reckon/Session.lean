import Reckon.Eval.Basic
import Reckon.Parser.Basic

/-!
# Sessions

A session evaluates one equation after another against a table of variables, so that later
equations see the assignments of earlier ones. An equation that fails anywhere leaves the table as
it was.

The table is handed in and out, so several sessions can work on one table. What a session keeps for
itself is its options and a parser that it points to each new equation.
-/

namespace Reckon

/-- Why an equation could not be read or evaluated. -/
inductive EquationError where
  | input (e : InputError)
  | eval (e : EvalError)

namespace EquationError

/-- What the user is told. -/
def message : EquationError → Text
  | input e => e.message
  | eval e => e.message

/-- The byte offset of the culprit, if the text of the equation is at fault. -/
def pos? : EquationError → Option Nat
  | input e => some e.pos
  | eval _ => none

end EquationError

/-- What can be chosen for a session. -/
structure SessionOptions where
  /-- Whether equations may have blanks and tabs between tokens. -/
  skipBlanks : Bool
  /-- The largest difference under which floats count as equal, if positive. -/
  tolerance : Float

/-- An evaluator of successive equations. -/
structure Session where
  parser : Parser
  tolerance : Float

namespace Session

/-- A new session. -/
def ofOptions (o : SessionOptions) : Session := ⟨Parser.ofText o.skipBlanks [], o.tolerance⟩

/-- Reads an equation without evaluating it. -/
def parse (s : Session) (equation : Text) : Except InputError Expr × Session :=
  let (result, parser) := (s.parser.reset equation).equation
  (result, { s with parser })

/-- Cuts an equation into tokens. -/
def tokenize (s : Session) (equation : Text) : List Token × Option LexError :=
  Lexer.tokenize s.parser.lexer.skipBlanks equation

/-- Reads and evaluates an equation, and stores its assignments if all went well. -/
def eval (s : Session) (table : Table) (equation : Text) :
    Except EquationError Value × Session × Table :=
  match s.parse equation with
  | (.error e, s) => (.error (.input e), s, table)
  | (.ok tree, s) =>
    match tree.eval s.tolerance (Stage.ofTable table) with
    | (.error e, _) => (.error (.eval e), s, table)
    | (.ok value, stage) => (.ok value, s, stage.commit)

end Session

end Reckon
