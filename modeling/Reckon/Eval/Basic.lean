import Reckon.Eval.Arith
import Reckon.Eval.Scope
import Reckon.Expr.Basic

/-!
# Evaluating an equation

Operands are evaluated from left to right, and the first failure is the result. An assignment
looks at its left side first, then evaluates its right side, and stores only numbers. It may
stand anywhere in a tree, so assignments made before a failure are visible in the scope after it.
-/

namespace Reckon

namespace Expr

/-- Why a tree cannot be assigned to. -/
def assignFailure (target : Expr) : EvalError :=
  match target.dump? with
  | some text => .notAssignable text
  | none => .malformed .missingTarget

/-- The value of an equation, and the scope after its evaluation. -/
def eval {σ : Type} [Scope σ] (tolerance : Float) : Expr → σ → Except EvalError Value × σ
  | int n, s => (.ok (.number (.int n)), s)
  | float x, s => (.ok (.number (.float x)), s)
  | identifier name, s =>
    match Scope.lookup s name with
    | some value => (.ok value, s)
    | none => (.error (.undefined name), s)
  | hole, s => (.error (.malformed .missingOperand), s)
  | binary left operator right, s =>
    if operator.kind = .assign then
      match left with
      | identifier name =>
        match right.eval tolerance s with
        | (.error e, s) => (.error e, s)
        | (.ok value, s) =>
          match value.number? with
          | none => (.error (.operand operator.text value), s)
          | some _ => (.ok (.assignment name value), Scope.assign s name value)
      | target => (.error (assignFailure target), s)
    else
      match left.eval tolerance s with
      | (.error e, s) => (.error e, s)
      | (.ok a, s) =>
        match right.eval tolerance s with
        | (.error e, s) => (.error e, s)
        | (.ok b, s) => (a.apply tolerance operator b, s)

end Expr

end Reckon
