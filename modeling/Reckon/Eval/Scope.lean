import Reckon.Dict
import Reckon.Eval.Value

/-!
# Variables

A scope is anything that names can be looked up in and assigned to. The calculator has two of
them. A `Table` holds the variables of a session. A `Stage` collects the assignments of one
equation on top of a table, so that they can be dropped if the equation fails and stored with
`Stage.commit` if it does not.
-/

namespace Reckon

/-- Something that holds the values of names. -/
class Scope (σ : Type) where
  lookup : σ → Text → Option Value
  assign : σ → Text → Value → σ

/-- The variables of a session, each with its last value. -/
abbrev Table := Dict Value

instance : Scope Table where
  lookup t name := t.find? name
  assign t name value := t.insert name value

/-- A table under the assignments of one equation. -/
structure Stage where
  base : Table
  /-- The assigned names with their latest values, in the order of their first assignment. -/
  writes : List (Text × Value)

namespace Stage

/-- No assignments yet. -/
def ofTable (t : Table) : Stage := ⟨t, []⟩

/-- The staged value of a name. -/
def written? (writes : List (Text × Value)) (name : Text) : Option Value :=
  (writes.find? fun w => w.1 == name).map Prod.snd

/-- The assignments with one more, in place of an earlier one to the same name. -/
def write : List (Text × Value) → Text → Value → List (Text × Value)
  | [], name, value => [(name, value)]
  | (n, v) :: rest, name, value =>
    if n = name then (n, value) :: rest else (n, v) :: write rest name value

instance : Scope Stage where
  lookup s name := (written? s.writes name).or (s.base.find? name)
  assign s name value := { s with writes := write s.writes name value }

/-- The table with all assignments stored. -/
def commit (s : Stage) : Table := s.writes.foldl (fun t w => t.insert w.1 w.2) s.base

end Stage

end Reckon
