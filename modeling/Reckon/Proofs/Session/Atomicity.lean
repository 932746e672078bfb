import Reckon.Session

/-!
# Sessions change their table all at once or not at all

An assignment may stand anywhere in a tree, so the evaluation of an equation can write to its scope
and fail only then. A session keeps such writes on a `Stage` and drops them with the stage.

What is written if nothing fails is little. Every operator takes numbers only, and the confirmation
of an assignment is none, so an assignment below another operator makes the evaluation fail. The
only one that is left is at the root: `wrote_of_eval` says that an evaluation with a value has
written what the value says, by induction on the tree.

* `Session.wrote_of_eval`: the same of the table of a session.
* `Session.eval_atomic`: a failed equation leaves the table as it was, a confirmed assignment
  changes its own name, and any other value changes nothing.
* `Session.plain_eval`: the table goes on to hold no confirmations, as both rely on.
-/

namespace Reckon

/-! ### Operators take numbers only -/

namespace Value

/-- Whether a value confirms an assignment. -/
def isAssignment : Value → Bool
  | assignment .. => true
  | _ => false

theorem eq_number_of_number? {v : Value} {x : Number} (h : v.number? = some x) : v = .number x := by
  cases v with
  | number n =>
    cases h
    rfl
  | bool b => cases h
  | assignment name value => cases h

end Value

/-- An operator other than assignment confirms nothing. -/
theorem Number.isAssignment_apply {tolerance : Float} {kind : TokenKind} {a b : Number} {v : Value}
    (h : Number.apply tolerance kind a b = .ok v) : v.isAssignment = false := by
  have hmap : ∀ {r : Except EvalError Number}, r.map Value.number = .ok v →
      v.isAssignment = false := by
    rintro (e | x) hr
    · cases hr
    · cases hr
      rfl
  unfold Number.apply at h
  split at h
  · cases h
    rfl
  · exact hmap h
  · exact hmap h

/-- An operator other than assignment has a value only on two numbers. -/
theorem Value.apply_eq_ok {tolerance : Float} {operator : Token} {left right v : Value}
    (h : left.apply tolerance operator right = .ok v) :
    ∃ a b, left = .number a ∧ right = .number b ∧
      Number.apply tolerance operator.kind a b = .ok v := by
  rw [Value.apply_eq] at h
  split at h
  · cases h
  · rename_i a ha
    split at h
    · cases h
    · rename_i b hb
      exact ⟨a, b, Value.eq_number_of_number? ha, Value.eq_number_of_number? hb, h⟩

/-! ### What an evaluation writes -/

namespace Expr

variable {σ : Type} [Scope σ] {tolerance : Float} {left right : Expr} {operator : Token}
  {v : Value} {s s' : σ}

/-- An assignment has a value if its target is a name and its right side is a number. -/
theorem eval_assign_eq_ok (hk : operator.kind = .assign)
    (h : (binary left operator right).eval tolerance s = (.ok v, s')) :
    ∃ name x after, left = .identifier name ∧
      right.eval tolerance s = (.ok (.number x), after) ∧
      v = .assignment name (.number x) ∧ s' = Scope.assign after name (.number x) := by
  unfold eval at h
  rw [if_pos hk] at h
  split at h
  · rename_i name
    split at h
    · cases h
    · rename_i value after hright
      split at h
      · cases h
      · rename_i x hx
        obtain rfl := Value.eq_number_of_number? hx
        cases h
        exact ⟨name, x, after, rfl, hright, rfl, rfl⟩
  · cases h

/-- Any other operator has a value if it has one on the values of its operands, of which the right
one is evaluated in the scope that the left one leaves. -/
theorem eval_binary_eq_ok (hk : operator.kind ≠ .assign)
    (h : (binary left operator right).eval tolerance s = (.ok v, s')) :
    ∃ a b after, left.eval tolerance s = (.ok a, after) ∧
      right.eval tolerance after = (.ok b, s') ∧ a.apply tolerance operator b = .ok v := by
  unfold eval at h
  rw [if_neg hk] at h
  split at h
  · cases h
  · rename_i a after hleft
    split at h
    · cases h
    · rename_i b after' hright
      obtain ⟨happly, rfl⟩ := Prod.mk.inj h
      exact ⟨a, b, after, hleft, hright, happly⟩

end Expr

/-- No name of a scope stands for the confirmation of an assignment. -/
def Plain {σ : Type} [Scope σ] (s : σ) : Prop :=
  ∀ name v, Scope.lookup s name = some v → v.isAssignment = false

/-- A scope has been written to as a value says: a number to the name of a confirmed assignment,
and nothing otherwise. -/
def Wrote {σ : Type} [Scope σ] (s : σ) (v : Value) (s' : σ) : Prop :=
  match v with
  | .assignment name value => (∃ x, value = .number x) ∧ s' = Scope.assign s name value
  | _ => s' = s

section Wrote

variable {σ : Type} [Scope σ] {s s' : σ} {v : Value}

theorem wrote_of_eq (hv : v.isAssignment = false) (h : s' = s) : Wrote s v s' := by
  cases v with
  | number | bool => exact h
  | assignment => cases hv

/-- **An evaluation writes what its value says**, if it has one and the scope is plain. -/
theorem wrote_of_eval {tolerance : Float} {e : Expr} (hs : Plain s)
    (h : e.eval tolerance s = (.ok v, s')) : Wrote s v s' := by
  -- an operand that is a number has written nothing, so each operand is evaluated in the scope `s`
  induction e generalizing v s' with
  | int n =>
    cases h
    rfl
  | float x =>
    cases h
    rfl
  | identifier name =>
    rw [Expr.eval] at h
    split at h
    · rename_i hvalue
      cases h
      exact wrote_of_eq (hs name _ hvalue) rfl
    · cases h
  | binary left operator right ihleft ihright =>
    by_cases hk : operator.kind = .assign
    · obtain ⟨name, x, after, rfl, hright, rfl, rfl⟩ := Expr.eval_assign_eq_ok hk h
      obtain rfl : after = s := ihright hright
      exact ⟨⟨x, rfl⟩, rfl⟩
    · obtain ⟨va, vb, after, hleft, hright, happly⟩ := Expr.eval_binary_eq_ok hk h
      obtain ⟨a, b, rfl, rfl, happly⟩ := Value.apply_eq_ok happly
      obtain rfl : after = s := ihleft hleft
      exact wrote_of_eq (Number.isAssignment_apply happly) (ihright hright)
  | hole => cases h

end Wrote

/-! ### Tables and stages -/

/-- A table without bindings is plain. -/
theorem plain_empty : Plain (Dict.empty : Table) := by
  intro name v hv
  cases hv

/-- A plain table stays so if a number or a truth value is stored in it. -/
theorem plain_insert {table : Table} {v : Value} (h : Plain table) (hv : v.isAssignment = false)
    (name : Text) : Plain (table.insert name v) := by
  intro other w hw
  have hfind := Dict.find?_insert table name other v
  rw [show (table.insert name v).find? other = some w from hw] at hfind
  split at hfind
  · obtain rfl := Option.some.inj hfind
    exact hv
  · exact h other w hfind.symm

namespace Stage

/-- Nothing is staged at first, so the names stand for what they do in the table. -/
theorem plain_ofTable {table : Table} (h : Plain table) : Plain (ofTable table) := by
  intro name v hv
  exact h name v hv

/-- What has been written to a fresh stage is written to the table. -/
theorem wrote_commit {table : Table} {v : Value} {stage : Stage}
    (h : Wrote (ofTable table) v stage) : Wrote table v stage.commit := by
  cases v with
  | number | bool =>
    obtain rfl : stage = ofTable table := h
    rfl
  | assignment name value =>
    obtain ⟨hvalue, rfl⟩ := h
    exact ⟨hvalue, rfl⟩

end Stage

/-! ### Sessions -/

namespace Session

variable {table : Table}

/-- A failed equation leaves the table as it was, whatever is in it. -/
theorem table_of_eval_error {s s' : Session} {after : Table} {equation : Text} {e : EquationError}
    (h : s.eval table equation = (.error e, s', after)) : after = table := by
  rw [eval] at h
  split at h
  · cases h
    rfl
  · split at h
    · cases h
      rfl
    · cases h

/-- **An equation writes to the table what its value says.** -/
theorem wrote_of_eval {s s' : Session} {after : Table} {equation : Text} {v : Value}
    (hplain : Plain table) (h : s.eval table equation = (.ok v, s', after)) :
    Wrote table v after := by
  rw [eval] at h
  split at h
  · cases h
  · split at h
    · cases h
    · rename_i hvalue
      cases h
      exact Stage.wrote_commit (Reckon.wrote_of_eval (Stage.plain_ofTable hplain) hvalue)

/-- A table without confirmations goes on to have none. -/
theorem plain_eval (s : Session) (hplain : Plain table) (equation : Text) :
    Plain (s.eval table equation).2.2 := by
  rcases h : s.eval table equation with ⟨e | v, s', after⟩
  · rw [table_of_eval_error h]
    exact hplain
  · have hwrote := wrote_of_eval hplain h
    cases v with
    | number | bool =>
      obtain rfl : after = table := hwrote
      exact hplain
    | assignment name value =>
      obtain ⟨⟨x, rfl⟩, rfl⟩ := hwrote
      exact plain_insert hplain rfl name

/-- **Equations are atomic.** A failed equation leaves the table as it was. An equation that
confirms an assignment has bound its name to a number and left all other names alone. An equation
with any other value leaves the table as it was. -/
theorem eval_atomic (s : Session) (hplain : Plain table) (equation : Text) :
    match s.eval table equation with
    | (.error _, _, after) => after = table
    | (.ok (.assignment name value), _, after) =>
      (∃ x, value = .number x) ∧ after.find? name = some value ∧
        ∀ other, other ≠ name → after.find? other = table.find? other
    | (.ok _, _, after) => after = table := by
  rcases h : s.eval table equation with ⟨e | v, s', after⟩
  · exact table_of_eval_error h
  · have hwrote := wrote_of_eval hplain h
    cases v with
    | number | bool => exact hwrote
    | assignment name value =>
      obtain ⟨hvalue, rfl⟩ := hwrote
      refine ⟨hvalue, ?_, fun other hother => ?_⟩
      · exact (Dict.find?_insert table name name value).trans (if_pos rfl)
      · exact (Dict.find?_insert table name other value).trans (if_neg hother)

/-- For example, of an assignment that has been made when the operand after it turns out to be
undefined. -/
theorem eval_atomic_of_late_failure :
    Plain (Dict.empty.insert (Text.lit "a") (.number (.int 2)) : Table) ∧
      match (ofOptions ⟨true, 0⟩).eval (Dict.empty.insert (Text.lit "a") (.number (.int 2)))
        (Text.lit "(a = 3) + b") with
      | (.error _, _, after) => after = Dict.empty.insert (Text.lit "a") (.number (.int 2))
      | (.ok (.assignment name value), _, after) =>
        (∃ x, value = .number x) ∧ after.find? name = some value ∧
          ∀ other, other ≠ name → after.find? other =
            (Dict.empty.insert (Text.lit "a") (.number (.int 2))).find? other
      | (.ok _, _, after) => after = Dict.empty.insert (Text.lit "a") (.number (.int 2)) :=
  have hplain := plain_insert plain_empty rfl (Text.lit "a")
  ⟨hplain, eval_atomic (ofOptions ⟨true, 0⟩) hplain (Text.lit "(a = 3) + b")⟩

end Session

end Reckon
