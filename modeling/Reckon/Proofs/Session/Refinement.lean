import Reckon.Proofs.Parser.Reset
import Reckon.Proofs.Transcript
import Reckon.Workspace

/-!
# Sessions have no memory but their tables

A session keeps one parser for all its equations, and a workspace lets sessions share tables, so an
equation might be told by what was read before it. `Tables.step` is a machine in which it cannot be:
its state is the tables alone, and a step is a function of the options of its session, the
contents of its table and the text that is given (`SessionOptions.step`), with a lexer and a parser
of its own for every equation.

A session that does a step is seen through its options, which no step changes. Through them a
workspace goes exactly with the machine (`Workspace.act_eq`), and by induction so does every run:

* `Workspace.run_refines_tables`: the results of a run and the tables after each of its steps are
  those of the machine; after any two histories a session does the same on the same table; and
  reading an equation or cutting it into tokens changes no table.
-/

namespace Reckon

/-! ### A step as a function of options and table -/

namespace SessionOptions

/-- The value of an equation that is read by a parser of its own, and the table after it. -/
def eval (o : SessionOptions) (table : Table) (equation : Text) :
    Except EquationError Value × Table :=
  match parse o.skipBlanks equation with
  | .error e => (.error (.input e), table)
  | .ok tree =>
    match tree.eval o.tolerance (Stage.ofTable table) with
    | (.error e, _) => (.error (.eval e), table)
    | (.ok value, stage) => (.ok value, stage.commit)

/-- What comes of a step on a table, and the table after it. -/
def step (o : SessionOptions) (table : Table) : SessionStep → StepResult × Table
  | .eval equation => (.eval (o.eval table equation).1, (o.eval table equation).2)
  | .parse equation => (.parse (parse o.skipBlanks equation), table)
  | .tokenize equation =>
    let (tokens, failure) := Lexer.tokenize o.skipBlanks equation
    (.tokenize tokens failure, table)
  | .lookup name => (.lookup (table.find? name), table)
  | .assign name value => (.assign, table.insert name value)

end SessionOptions

/-- Tables by their places. -/
abbrev Tables := Nat → Table

namespace Tables

/-- The tables with another one in one place. -/
def put (tables : Tables) (home : Nat) (table : Table) : Tables :=
  fun place => if place = home then table else tables place

theorem put_self (tables : Tables) (home : Nat) : tables.put home (tables home) = tables := by
  funext place
  rw [put]
  split
  · rename_i hplace
    rw [hplace]
  · rfl

/-- Does a step, given with the number of its session, when the sessions have the given options and
places of their tables. -/
def step (options : List (SessionOptions × Nat)) (tables : Tables) (s : Nat × SessionStep) :
    Option StepResult × Tables :=
  match options[s.1]? with
  | none => (none, tables)
  | some (o, home) =>
    let (result, table) := o.step (tables home) s.2
    (some result, tables.put home table)

/-- A step that leaves its own table as it is leaves all of them so. -/
theorem step_of_kept {s : SessionStep}
    (hs : ∀ (o : SessionOptions) (table : Table), (o.step table s).2 = table)
    {options : List (SessionOptions × Nat)} {tables : Tables} {i : Nat} :
    (step options tables (i, s)).2 = tables := by
  rw [step]
  split
  · rfl
  · rename_i o home hi
    dsimp only
    rw [hs, put_self]

end Tables

/-! ### Sessions seen through their options -/

namespace Session

/-- The options that a session works with. -/
def options (s : Session) : SessionOptions := ⟨s.parser.lexer.skipBlanks, s.tolerance⟩

theorem options_ofOptions (o : SessionOptions) : (ofOptions o).options = o := rfl

/-- An equation is read as if the session had read none before. -/
theorem parse_fst (s : Session) (equation : Text) :
    (s.parse equation).1 = Reckon.parse s.options.skipBlanks equation :=
  s.parser.equation_reset equation

/-- Reading an equation leaves the options alone, also where it fails. -/
theorem options_parse (s : Session) (equation : Text) :
    (s.parse equation).2.options = s.options := by
  have hskip := Parser.skipBlanks_equation (s.parser.reset equation)
  exact congrArg (SessionOptions.mk · s.tolerance) hskip

/-- An equation has the value that it has for the options, leaves the table that it leaves for
them, and leaves the options alone. -/
theorem eval_eq (s : Session) (table : Table) (equation : Text) :
    (s.eval table equation).1 = (s.options.eval table equation).1 ∧
      (s.eval table equation).2.2 = (s.options.eval table equation).2 ∧
      (s.eval table equation).2.1.options = s.options := by
  have hfst := parse_fst s equation
  have hoptions := options_parse s equation
  rw [eval, SessionOptions.eval]
  rcases hparse : s.parse equation with ⟨e | tree, s'⟩ <;> rw [hparse] at hfst hoptions <;>
    rw [← hfst]
  · exact ⟨rfl, rfl, hoptions⟩
  · have htolerance : s'.tolerance = s.options.tolerance :=
      congrArg SessionOptions.tolerance hoptions
    dsimp only
    rw [htolerance]
    rcases tree.eval s.options.tolerance (Stage.ofTable table) with ⟨e | v, stage⟩
    · exact ⟨rfl, rfl, hoptions⟩
    · exact ⟨rfl, rfl, hoptions⟩

end Session

/-! ### Workspaces -/

namespace Workspace

/-- New sessions on tables that may hold something already. -/
def start (options : List (SessionOptions × Nat)) (tables : Tables) : Workspace :=
  { ofOptions options with tables }

/-- Does a step that is given with the number of its session. -/
def act (w : Workspace) (s : Nat × SessionStep) : Option StepResult × Workspace := w.step s.1 s.2

/-- The options of the sessions, with the places of their tables. -/
def options (w : Workspace) : List (SessionOptions × Nat) :=
  w.sessions.map fun s => (s.1.options, s.2)

theorem options_start (options : List (SessionOptions × Nat)) (tables : Tables) :
    (start options tables).options = options := by
  rw [Workspace.options, start, ofOptions, List.map_map]
  exact List.map_id'' (fun o => Prod.ext (Session.options_ofOptions o.1) rfl) options

/-- A session may be put back with another parser, but with the options it had. -/
theorem options_update {w : Workspace} {i home : Nat} {session session' : Session}
    (hi : w.sessions[i]? = some (session, home)) (h : session'.options = session.options)
    (table : Table) : (w.update i session' home table).options = w.options := by
  obtain ⟨hlt, hget⟩ := List.getElem?_eq_some_iff.mp hi
  let view : Session × Nat → SessionOptions × Nat := fun s => (s.1.options, s.2)
  calc (w.update i session' home table).options
    _ = (w.sessions.map view).set i (session'.options, home) := List.map_set
    _ = (w.sessions.map view).set i (view (session, home)) := by rw [h]
    _ = (w.sessions.set i (session, home)).map view := List.map_set.symm
    _ = w.options := by rw [← hget, List.set_getElem_self]; rfl

/-- **A step goes with the machine** on the options and tables of the workspace, and leaves the
options alone. -/
theorem act_eq (w : Workspace) (s : Nat × SessionStep) :
    (w.act s).1 = (Tables.step w.options w.tables s).1 ∧
      (w.act s).2.tables = (Tables.step w.options w.tables s).2 ∧
      (w.act s).2.options = w.options := by
  obtain ⟨i, s⟩ := s
  have hoptions : w.options[i]? = w.sessions[i]?.map fun s => (s.1.options, s.2) :=
    List.getElem?_map
  rw [act, step, Tables.step]
  dsimp only
  rw [hoptions]
  rcases hi : w.sessions[i]? with _ | ⟨session, home⟩
  · exact ⟨rfl, rfl, rfl⟩
  · -- only equations change the session, and only its parser
    cases s with
    | eval equation =>
      obtain ⟨hresult, htable, hsession⟩ := session.eval_eq (w.tables home) equation
      refine ⟨?_, ?_, options_update hi hsession _⟩
      · exact congrArg (fun r => some (StepResult.eval r)) hresult
      · exact congrArg (Tables.put w.tables home) htable
    | parse equation => exact ⟨rfl, rfl, options_update hi (session.options_parse equation) _⟩
    | tokenize equation => exact ⟨rfl, (Tables.put_self w.tables home).symm, rfl⟩
    | lookup name => exact ⟨rfl, (Tables.put_self w.tables home).symm, rfl⟩
    | assign name value => exact ⟨rfl, rfl, options_update hi rfl _⟩

/-- The table of a session is found through the options. -/
theorem table_eq (w : Workspace) (i : Nat) :
    w.table i = (w.options[i]?.map fun o => w.tables o.2).getD Dict.empty := by
  rw [table, options, List.getElem?_map]
  rcases w.sessions[i]? with _ | ⟨session, home⟩
  · rfl
  · rfl

/-- A session does the same in two workspaces in which it has the same options and table. -/
theorem step_congr {w w' : Workspace} {i : Nat} (hoptions : w.options = w'.options)
    (htable : w.table i = w'.table i) (s : SessionStep) :
    (w.step i s).1 = (w'.step i s).1 ∧ (w.step i s).2.table i = (w'.step i s).2.table i := by
  obtain ⟨hresult, htables, hafter⟩ := w.act_eq (i, s)
  obtain ⟨hresult', htables', hafter'⟩ := w'.act_eq (i, s)
  change (w.act (i, s)).1 = (w'.act (i, s)).1 ∧
    (w.act (i, s)).2.table i = (w'.act (i, s)).2.table i
  rw [table_eq, table_eq, hoptions] at htable
  rw [table_eq, table_eq, hresult, hresult', htables, htables', hafter, hafter', hoptions,
    Tables.step, Tables.step]
  rcases hi : w'.options[i]? with _ | ⟨o, home⟩ <;> rw [hi] at htable
  · exact ⟨rfl, rfl⟩
  · have hhome : w.tables home = w'.tables home := htable
    dsimp only [Option.map_some, Option.getD_some, Tables.put]
    rw [hhome]
    exact ⟨rfl, rfl⟩

/-- Reading an equation changes no table, and neither does cutting it into tokens. -/
theorem tables_step_of_reading (w : Workspace) (i : Nat) (equation : Text) :
    (w.step i (.parse equation)).2.tables = w.tables ∧
      (w.step i (.tokenize equation)).2.tables = w.tables :=
  ⟨(w.act_eq (i, .parse equation)).2.1.trans (Tables.step_of_kept fun _ _ => rfl),
    (w.act_eq (i, .tokenize equation)).2.1.trans (Tables.step_of_kept fun _ _ => rfl)⟩

/-! ### Runs -/

/-- The machine follows a workspace, whose tables are its state. -/
theorem simulation_tables (options : List (SessionOptions × Nat)) :
    Simulation act (Tables.step options) some
      (fun w tables => w.options = options ∧ w.tables = tables)
      (fun e => (e.output, e.after.tables)) (fun e => (e.output, e.after)) where
  taken := by
    rintro w _ s _ ⟨hw, rfl⟩ ⟨⟩
    obtain ⟨hresult, htables, hafter⟩ := w.act_eq s
    rw [hw] at hresult htables hafter
    exact ⟨Prod.ext hresult htables, hafter, htables⟩
  passed := by rintro w tables s - ⟨⟩

/-- Sessions keep the options they were started with. -/
theorem options_stateAfter (options : List (SessionOptions × Nat)) (tables : Tables)
    (history : List (Nat × SessionStep)) :
    (stateAfter act (start options tables) history).options = options := by
  refine stateAfter_induction (P := fun w : Workspace => w.options = options) ?_
    (options_start options tables) history
  intro w s hw
  exact (w.act_eq s).2.2.trans hw

/-- **Sessions have no memory but their tables.** For sessions with any options, on tables that they
may share, and for any steps in them, in any order:

* the result of each step and all tables after it are those of the machine whose state is the
  tables;
* after any two histories, a session whose table holds the same comes to the same result in a step,
  and to the same table;
* reading an equation changes no table, and neither does cutting it into tokens. -/
theorem run_refines_tables (options : List (SessionOptions × Nat)) (tables : Tables)
    (history : List (Nat × SessionStep)) :
    let w := stateAfter act (start options tables) history
    ((transcript act (start options tables) history).map fun e => (e.output, e.after.tables)) =
        ((transcript (Tables.step options) tables history).map fun e => (e.output, e.after)) ∧
      (∀ tables' history' i s,
        let w' := stateAfter act (start options tables') history'
        w.table i = w'.table i →
          (w.step i s).1 = (w'.step i s).1 ∧ (w.step i s).2.table i = (w'.step i s).2.table i) ∧
      ∀ i equation, (w.step i (.parse equation)).2.tables = w.tables ∧
        (w.step i (.tokenize equation)).2.tables = w.tables := by
  intro w
  have hstart : (start options tables).options = options ∧ (start options tables).tables = tables :=
    ⟨options_start options tables, rfl⟩
  refine ⟨(simulation_tables options).map_transcript_eq hstart history, ?_, ?_⟩
  · intro tables' history' i s w' htable
    have hoptions : w.options = w'.options :=
      (options_stateAfter options tables history).trans
        (options_stateAfter options tables' history').symm
    exact step_congr hoptions htable s
  · intro i equation
    exact tables_step_of_reading w i equation

end Workspace

end Reckon
