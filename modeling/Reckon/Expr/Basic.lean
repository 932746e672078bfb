import Reckon.Decimal.Layout
import Reckon.Token

/-!
# Equations as trees

An equation is a tree of numbers, identifiers and binary operators, assignment and equality
among them. Brackets shape the tree and leave nothing behind in it. Each operator keeps the token
it was read from.

`Expr.dump` writes a tree with every operator before its operands: `+(1, *(2, x))`.
-/

namespace Reckon

/-- An equation or a part of one. -/
inductive Expr where
  | int (value : Int64)
  | float (value : Float)
  | identifier (name : Text)
  | binary (left : Expr) (operator : Token) (right : Expr)
  /-- A place where an operand is missing. No equation is read as such a tree. -/
  | hole
deriving Inhabited

namespace Expr

/-- The operator-first form of a tree, in front of a given text. -/
def dumpOnto : Expr → Text → Text
  | int n, tail => Text.ofInt n.toInt ++ tail
  | float x, tail => FloatLayout.result.format x ++ tail
  | identifier name, tail => name ++ tail
  | binary left operator right, tail =>
    operator.kind.name ++ Text.lit "("
      ++ left.dumpOnto (Text.lit ", " ++ right.dumpOnto (Text.lit ")" ++ tail))
  | hole, tail => tail

/-- The operator-first form of a tree. -/
def dump (e : Expr) : Text := e.dumpOnto []

/-- Whether an operand is missing somewhere. -/
def hasHole : Expr → Bool
  | int _ | float _ | identifier _ => false
  | binary left _ right => left.hasHole || right.hasHole
  | hole => true

/-- The operator-first form of a tree without holes. -/
def dump? (e : Expr) : Option Text := if e.hasHole then none else some e.dump

end Expr

end Reckon
