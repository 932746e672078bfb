import Reckon.Expr.Basic

/-!
# Trees as listings

The listing of a tree shows every part with its label, one line per part, and the operands of an
operator further to the right. The labels of an operator are as wide as the longest of them; only
the label of a left operand that takes several lines stands apart from the other two and is not
widened.
-/

namespace Reckon

namespace Expr

/-- The blanks in front of a line at a given depth. -/
def indentation (depth : Nat) : Text := List.replicate (4 * depth) ' '.toUInt8

/-- An operator's token in a listing. -/
def outlineToken (t : Token) : Text :=
  Text.lit "lexer.Token\x7bType:" ++ Text.ofInt t.kind.code ++ Text.lit ", Value:"
    ++ Text.quote t.text ++ Text.lit ", Pos:" ++ Text.ofNat t.pos ++ Text.lit "\x7d"

/-- The label of a left operand, widened if the operand takes a single line. -/
def leftLabel : Expr → Text
  | binary .. => Text.lit "Left: "
  | _ => Text.lit "Left:     "

/-- The listing of a tree at a given depth, in front of a given text. -/
def outlineOnto : Expr → Nat → Text → Text
  | int n, _, tail =>
    Text.lit "ast.IntExpr\x7b"
      ++ (if n == 0 then [] else Text.lit "Value:" ++ Text.ofInt n.toInt) ++ Text.lit "\x7d" ++ tail
  | float x, _, tail =>
    Text.lit "ast.FloatExpr\x7b"
      ++ (if x == 0 then [] else Text.lit "Value:" ++ FloatLayout.plain.format x)
      ++ Text.lit "\x7d" ++ tail
  | identifier name, _, tail =>
    Text.lit "ast.IdentifierExpr\x7b"
      ++ (if name.isEmpty then [] else Text.lit "Name:" ++ Text.quote name)
      ++ Text.lit "\x7d" ++ tail
  | binary left operator right, depth, tail =>
    let line := indentation (depth + 1)
    Text.lit "ast.BinaryExpr\x7b\n" ++ line ++ left.leftLabel
      ++ left.outlineOnto (depth + 1) (Text.lit ",\n" ++ line ++ Text.lit "Operator: "
        ++ outlineToken operator ++ Text.lit ",\n" ++ line ++ Text.lit "Right:    "
        ++ right.outlineOnto (depth + 1)
          (Text.lit ",\n" ++ indentation depth ++ Text.lit "\x7d" ++ tail))
  | hole, _, tail => Text.lit "nil" ++ tail

/-- The listing of a tree. -/
def outline (e : Expr) : Text := e.outlineOnto 0 []

end Expr

end Reckon
