import Reckon.Proofs.Parser.Trees
import Reckon.Proofs.Transcript
import Reckon.Service.Basic

/-!
# Variables are read back

A session starts with an empty table and evaluates one equation after another, of which some may
fail. Whatever they are, the table holds names that can be written in equations, and numbers
(`Readable`); an equation changes it only by confirming an assignment (`eval_cases`). So after a run
(`Calculator.bindings_read_back`):

* A name that has been bound stays bound.
* It stands for what was last confirmed to be assigned to it.
* Written as an equation, it has that value, and nothing changes by asking.
-/

namespace Reckon

/-- Every bound name can be written in an equation, and stands for a number. -/
def Readable (table : Table) : Prop :=
  ∀ name v, table.find? name = some v → name.IsName ∧ ∃ x, v = .number x

/-- The value that a result confirms to be assigned to a name, if it does. -/
def assignedTo? (name : Text) : Except EquationError Value → Option Value
  | .ok (.assignment target value) => if target = name then some value else none
  | _ => none

theorem readable_empty : Readable Dict.empty := by
  intro name v h
  cases h

namespace Readable

variable {table : Table} {name : Text}

theorem plain (h : Readable table) : Plain table := by
  intro name v hv
  obtain ⟨-, x, rfl⟩ := h name v hv
  rfl

theorem insert (h : Readable table) (hname : name.IsName) (x : Number) :
    Readable (table.insert name (.number x)) := by
  intro other v hv
  rw [Dict.find?_insert] at hv
  split at hv
  · rename_i heq
    cases hv
    exact ⟨heq ▸ hname, x, rfl⟩
  · exact h other v hv

end Readable

/-! ### One equation -/

/-- The name of a confirmed assignment is an operand of the tree. -/
theorem Expr.mem_leaves_of_eval {σ : Type} [Scope σ] {tolerance : Float} {e : Expr} {s s' : σ}
    {name : Text} {value : Value} (hs : Plain s)
    (h : e.eval tolerance s = (.ok (.assignment name value), s')) :
    .identifier name ∈ e.leaves := by
  cases e with
  | int | float | hole => cases h
  | identifier n =>
    -- what a name stands for confirms nothing
    rw [eval] at h
    split at h
    · rename_i v hv
      cases h
      exact absurd (hs n _ hv) (by simp [Value.isAssignment])
    · cases h
  | binary left operator right =>
    by_cases hk : operator.kind = .assign
    · obtain ⟨target, x, after, rfl, -, heq, -⟩ := eval_assign_eq_ok hk h
      cases heq
      exact List.mem_append_left _ (List.mem_singleton_self _)
    · -- nor does the result of any other operator
      obtain ⟨a, b, after, -, -, happly⟩ := eval_binary_eq_ok hk h
      obtain ⟨x, y, -, -, hnumbers⟩ := Value.apply_eq_ok happly
      exact absurd (Number.isAssignment_apply hnumbers) (by simp [Value.isAssignment])

/-- What an equation confirms is an assignment to a name. -/
theorem Session.isName_of_eval {s s' : Session} {table after : Table} {equation name : Text}
    {value : Value} (hplain : Plain table)
    (h : s.eval table equation = (.ok (.assignment name value), s', after)) : name.IsName := by
  have hfst := s.parse_fst equation
  rw [eval] at h
  rcases hparse : s.parse equation with ⟨e | tree, s₁⟩ <;> rw [hparse] at h hfst
  · cases h
  · dsimp only at h
    split at h
    · cases h
    · rename_i heval
      cases h
      have hleaf := Expr.mem_leaves_of_eval (Stage.plain_ofTable hplain) heval
      exact (isEquation_of_parse hfst.symm).operands _ hleaf

namespace Calculator

variable {c : Calculator}

/-- **What an equation does to readable variables**: nothing, unless it confirms the assignment of
a number to a name. -/
theorem eval_cases (h : Readable c.table) (equation : Text) :
    ((c.eval equation).2.table = c.table ∧
        ∀ name, assignedTo? name (c.eval equation).1 = none) ∨
      ∃ name x, name.IsName ∧ (c.eval equation).1 = .ok (.assignment name (.number x)) ∧
        (c.eval equation).2.table = c.table.insert name (.number x) := by
  rw [eval]
  rcases heval : c.session.eval c.table equation with ⟨e | v, s', after⟩
  · exact .inl ⟨Session.table_of_eval_error heval, fun name => rfl⟩
  · have hwrote := Session.wrote_of_eval h.plain heval
    cases v with
    | number | bool => exact .inl ⟨hwrote, fun name => rfl⟩
    | assignment name value =>
      have hname := Session.isName_of_eval h.plain heval
      obtain ⟨⟨x, rfl⟩, rfl⟩ := hwrote
      exact .inr ⟨name, x, hname, rfl, rfl⟩

/-- Variables stay readable. -/
theorem readable_eval (h : Readable c.table) (equation : Text) :
    Readable (c.eval equation).2.table := by
  rcases eval_cases h equation with ⟨htable, -⟩ | ⟨name, x, hname, -, htable⟩ <;> rw [htable]
  · exact h
  · exact h.insert hname x

/-- A name stands for what has just been assigned to it, or for what it stood for before. -/
theorem find?_eval (h : Readable c.table) (equation name : Text) :
    (c.eval equation).2.table.find? name =
      (assignedTo? name (c.eval equation).1).or (c.table.find? name) := by
  rcases eval_cases h equation with ⟨htable, hnone⟩ | ⟨target, x, -, hresult, htable⟩
  · rw [htable, hnone, Option.none_or]
  · rw [htable, hresult, assignedTo?, Dict.find?_insert]
    by_cases heq : name = target
    · rw [if_pos heq, if_pos heq.symm, Option.some_or]
    · rw [if_neg heq, if_neg (Ne.symm heq), Option.none_or]

/-! ### Whole runs -/

theorem readable_stateAfter (h : Readable c.table) (equations : List Text) :
    Readable (stateAfter eval c equations).table :=
  stateAfter_induction (P := fun c : Calculator => Readable c.table)
    (fun _ equation hc => readable_eval hc equation) h equations

/-- The values that are confirmed to be assigned to a name in a run, in their order. -/
def assigned (c : Calculator) (equations : List Text) (name : Text) : List Value :=
  (transcript eval c equations).filterMap fun e => assignedTo? name e.output

theorem assigned_cons (equation : Text) (rest : List Text) (name : Text) :
    c.assigned (equation :: rest) name =
      (assignedTo? name (c.eval equation).1).toList ++ (c.eval equation).2.assigned rest name := by
  rw [assigned, transcript, List.filterMap_cons, exchange]
  dsimp only
  cases assignedTo? name (c.eval equation).1 <;> rfl

/-- **After a run, a name stands for what was last assigned to it**, or for what it stood for
before. -/
theorem find?_stateAfter (h : Readable c.table) (equations : List Text) (name : Text) :
    (stateAfter eval c equations).table.find? name =
      (c.assigned equations name).getLast?.or (c.table.find? name) := by
  induction equations generalizing c with
  | nil => rfl
  | cons equation rest ih =>
    have hlast : (assignedTo? name (c.eval equation).1).toList.getLast? =
        assignedTo? name (c.eval equation).1 := by
      cases assignedTo? name (c.eval equation).1 <;> rfl
    rw [assigned_cons, List.getLast?_append, hlast, Option.or_assoc, ← find?_eval h]
    exact ih (readable_eval h equation)

/-- A name that is bound stays bound. -/
theorem isSome_find?_stateAfter (h : Readable c.table) {name : Text}
    (hbound : (c.table.find? name).isSome = true) (more : List Text) :
    ((stateAfter eval c more).table.find? name).isSome = true := by
  rw [find?_stateAfter h, Option.isSome_or, hbound, Bool.or_true]

/-- A bound name is an equation that has the value of the name and changes nothing. -/
theorem eval_name (h : Readable c.table) {name : Text} {v : Value}
    (hbound : c.table.find? name = some v) :
    (c.eval name).1 = .ok v ∧ (c.eval name).2.table = c.table ∧
      (c.eval name).2.session.options = c.session.options := by
  obtain ⟨hresult, htable, hoptions⟩ := c.session.eval_eq c.table name
  have hread : c.session.options.eval c.table name = (.ok v, c.table) := by
    rw [SessionOptions.eval, parse_name _ (h name v hbound).1]
    have hlookup : Scope.lookup (Stage.ofTable c.table) name = some v := hbound
    simp only [Expr.eval, hlookup]
    rfl
  rw [hread] at hresult htable
  exact ⟨hresult, htable, hoptions⟩

/-- **Variables are read back.** A session with an empty table evaluates equations, of which some may
fail. After that every bound name is a letter followed by letters and digits, and stands for a
number. A bound name stays bound, whatever is evaluated next. What a name stands for is the last
value that was confirmed to be assigned to it. And a bound name, evaluated as an equation, has
exactly this value and changes neither the variables nor the options. -/
theorem bindings_read_back (session : Session) (equations : List Text) :
    let start : Calculator := ⟨session, Dict.empty⟩
    let c := stateAfter eval start equations
    (∀ name v, c.table.find? name = some v → name.IsName ∧ ∃ x, v = .number x) ∧
      (∀ name, (c.table.find? name).isSome = true →
        ∀ more, ((stateAfter eval c more).table.find? name).isSome = true) ∧
      (∀ name, c.table.find? name = (start.assigned equations name).getLast?) ∧
      ∀ name v, c.table.find? name = some v →
        (c.eval name).1 = .ok v ∧ (c.eval name).2.table = c.table ∧
          (c.eval name).2.session.options = c.session.options := by
  intro start c
  have hreadable : Readable c.table := readable_stateAfter readable_empty equations
  refine ⟨hreadable, fun name => isSome_find?_stateAfter hreadable, fun name => ?_,
    fun name v => eval_name hreadable⟩
  exact (find?_stateAfter readable_empty equations name).trans Option.or_none

/-- For example, after `a=1`. -/
theorem bindings_read_back_of_assignment :
    let start : Calculator := ⟨Session.ofOptions ⟨true, 0⟩, Dict.empty⟩
    let c := stateAfter eval start [Text.lit "a=1"]
    c.table.find? (Text.lit "a") = some (.number (.int 1)) ∧
      (c.eval (Text.lit "a")).1 = .ok (.number (.int 1)) ∧
      (c.eval (Text.lit "a")).2.table = c.table := by
  intro start c
  have hlexed : Lexer.tokenize true (Text.lit "a=1") = ([⟨.identifier, Text.lit "a", 0⟩,
      ⟨.assign, Text.lit "=", 1⟩, ⟨.int, Text.lit "1", 2⟩] ++ [⟨.eof, [], 3⟩], none) := by
    rw [Lexer.tokenize, Lexer.drain_eq_tokens (Lexer.agrees_ofText _ _)]
    decide +kernel
  have hleft : Derives (.ofPower 3) [⟨.identifier, Text.lit "a", 0⟩] (.identifier (Text.lit "a")) :=
    .of_isLiteral (t := ⟨.identifier, Text.lit "a", 0⟩) rfl
  have hright : Derives (.ofPower 3) [⟨.int, Text.lit "1", 2⟩] (.int 1) :=
    .of_isLiteral (t := ⟨.int, Text.lit "1", 2⟩) rfl
  have hparse : parse true (Text.lit "a=1") =
      .ok (.binary (.identifier (Text.lit "a")) ⟨.assign, Text.lit "=", 1⟩ (.int 1)) := by
    refine parse_of_derives hlexed rfl (by decide) ?_
    have hright' : Derives .expression _ _ := hright.of_le (b := 1) (by decide)
    exact (hleft.of_le (Nat.zero_le 3)).snoc rfl List.mem_cons_self hright'
  have htable : c.table = Dict.empty.insert (Text.lit "a") (.number (.int 1)) := by
    have hafter := (start.session.eval_eq start.table (Text.lit "a=1")).2.1
    rw [SessionOptions.eval, Session.options_ofOptions, hparse] at hafter
    exact hafter
  have hbound : c.table.find? (Text.lit "a") = some (.number (.int 1)) := by
    rw [htable]
    rfl
  obtain ⟨hresult, hkept, -⟩ :=
    (bindings_read_back (Session.ofOptions ⟨true, 0⟩) [Text.lit "a=1"]).2.2.2 _ _ hbound
  exact ⟨hbound, hresult, hkept⟩

end Calculator

end Reckon
