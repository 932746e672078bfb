import Reckon.Expr.Outline
import Reckon.Session
import Reckon.Text.Blank
import Reckon.Text.Lines

/-!
# Batches of equations

A runner takes equations one after another and writes what each results in, or the reason why it
fails with a caret under the place in question. A failing equation stops nothing.

`Runner.run` takes a whole input, one equation per line. Lines end with a newline, before which up
to two carriage returns are dropped; blank lines are passed over; a line that is too long
ends the run.
-/

namespace Reckon

/-- What is written for an equation. -/
inductive Mode where
  /-- Its value. -/
  | value
  /-- Its tree. -/
  | tree
  /-- Its tokens. -/
  | tokens
deriving DecidableEq, Repr

/-- What was written to the two outputs. -/
structure Output where
  stdout : Text
  stderr : Text
deriving DecidableEq, Repr

namespace Output

/-- Nothing written. -/
def empty : Output := ⟨[], []⟩

/-- One output after another. -/
def append (a b : Output) : Output := ⟨a.stdout ++ b.stdout, a.stderr ++ b.stderr⟩

instance : Append Output := ⟨append⟩

end Output

/-- How a failure is reported: the message, and for a failure with a place the equation with a
caret under the character there. -/
def EquationError.report (e : EquationError) (equation : Text) : Text :=
  let caret :=
    match e.pos? with
    | none => []
    | some pos =>
      if pos ≤ equation.length then
        let before := (Text.runes (equation.take pos)).length
        Text.lit "  " ++ equation ++ Text.lit "\n  " ++ List.replicate before ' '.toUInt8
          ++ Text.lit "^\n"
      else []
  Text.lit "eqcalc: " ++ e.message ++ Text.lit "\n" ++ caret

/-- A session with its table, and what is to be written. -/
structure Runner where
  session : Session
  table : Table
  mode : Mode

namespace Runner

/-- A runner with a new session and an empty table. -/
def ofOptions (o : SessionOptions) (mode : Mode) : Runner :=
  ⟨Session.ofOptions o, Dict.empty, mode⟩

/-- What an equation gives in the runner's mode. -/
def answer (r : Runner) (equation : Text) : Except EquationError Text × Runner :=
  match r.mode with
  | .tokens =>
    match r.session.tokenize equation with
    | (_, some e) => (.error (.input (.lexical e)), r)
    | (tokens, none) => (.ok (tokens.flatMap fun t => t.describe ++ Text.lit "\n"), r)
  | .tree =>
    let (result, session) := r.session.parse equation
    let r := { r with session }
    match result with
    | .error e => (.error (.input e), r)
    | .ok tree => (.ok (tree.dump ++ Text.lit "\n" ++ tree.outline ++ Text.lit "\n"), r)
  | .value =>
    let (result, session, table) := r.session.eval r.table equation
    let r := { r with session, table }
    match result with
    | .error e => (.error e, r)
    | .ok value => (.ok (value.text ++ Text.lit "\n"), r)

/-- Processes one equation; tells whether it succeeded. -/
def line (r : Runner) (equation : Text) : Bool × Output × Runner :=
  match r.answer equation with
  | (.ok text, r) => (true, ⟨text, []⟩, r)
  | (.error e, r) => (false, ⟨[], e.report equation⟩, r)

/-- What came of a batch. -/
structure Batch where
  /-- How many equations failed. -/
  failed : Nat
  output : Output
  /-- Whether a line was too long. -/
  tooLong : Bool
  runner : Runner

/-- A batch with one more equation in front of it. -/
def Batch.after (b : Batch) (succeeded : Bool) (output : Output) : Batch :=
  { b with failed := (if succeeded then 0 else 1) + b.failed, output := output ++ b.output }

/-- Processes equations in order. -/
def lines (r : Runner) : List Text → Batch
  | [] => ⟨0, Output.empty, false, r⟩
  | equation :: rest =>
    match r.line equation with
    | (succeeded, output, r) => (r.lines rest).after succeeded output

/-- Processes every line of an input, up to the first one that is too long. -/
def run (r : Runner) (input : Text) : Batch :=
  match _ : Text.nextLine input with
  | .atEnd => ⟨0, Output.empty, false, r⟩
  | .tooLong => ⟨0, Output.empty, true, r⟩
  | .line t rest =>
    let equation := Text.dropLastByte '\r'.toUInt8 t
    if (Text.trimmed equation).isEmpty then r.run rest
    else
      match r.line equation with
      | (succeeded, output, r) => (r.run rest).after succeeded output
termination_by input.length
decreasing_by all_goals exact Text.length_of_nextLine ‹_›

/-- What is said when a line is too long. -/
def tooLongMessage : Text :=
  Text.lit "failed to read equations: bufio.Scanner: token too long"

end Runner

end Reckon
