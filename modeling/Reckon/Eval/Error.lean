import Reckon.Eval.Value
import Reckon.Text.Quoted
import Reckon.Token

/-!
# What can go wrong when an equation is evaluated
-/

namespace Reckon

/-- What no equation leads to: a tree that none is read as, or arithmetic on an operand that was not
checked. -/
inductive Malformed where
  /-- A hole where a value is needed. -/
  | missingOperand
  /-- A hole in the left side of an assignment. -/
  | missingTarget
  /-- Integers joined by a token that is no operator. -/
  | intOperator (kind : TokenKind)
  /-- Numbers, not both integers, joined by a token that is no operator. -/
  | floatOperator (kind : TokenKind)
  /-- Something else than a number, given as it is written, where a number is needed. -/
  | noNumber (text : Text)
deriving DecidableEq, Repr

namespace Malformed

/-- What is said of it, if anything. -/
def message? : Malformed → Option Text
  | missingOperand => some (Text.lit "unsupported expression type <nil>")
  | missingTarget => none
  | intOperator kind => some (Text.lit "unsupported integer operator " ++ kind.name)
  | floatOperator kind => some (Text.lit "unsupported float operator " ++ kind.name)
  | noNumber text => some (Text.lit "evaluator: not a number: " ++ text)

end Malformed

/-- Why an equation has no value. -/
inductive EvalError where
  /-- A name that was never assigned. -/
  | undefined (name : Text)
  /-- An assignment to something else than a name; the left side is given in operator-first form. -/
  | notAssignable (target : Text)
  /-- An operand that is not a number. -/
  | operand (operator : Text) (value : Value)
  | divisionByZero
  /-- An integer result beyond 64 bits. -/
  | integerOverflow
  | malformed (m : Malformed)

namespace EvalError

/-- What the user is told. -/
def message : EvalError → Text
  | undefined name => Text.lit "identifier " ++ Text.quote name ++ Text.lit " is not defined"
  | notAssignable target => Text.lit "expected identifier before '=', got " ++ target
  | operand operator value =>
    Text.lit "unsupported operand for " ++ Text.quote operator ++ Text.lit ": " ++ value.text
  | divisionByZero => Text.lit "division by zero"
  | integerOverflow => Text.lit "integer overflow"
  | malformed m => m.message?.getD []

end EvalError

end Reckon
