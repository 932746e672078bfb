import Reckon.Text.Quoted

/-!
# What can go wrong when an equation is cut into tokens
-/

namespace Reckon

/-- Why an equation cannot be cut into tokens, with the byte offset of the culprit. -/
inductive LexError where
  /-- A character outside the alphabet of equations. -/
  | symbol (pos : Nat) (char : Char)
  /-- A second `=` or `==`. -/
  | duplicateEquals (pos : Nat)
  /-- A number that ends in a point. -/
  | trailingDot (pos : Nat)
deriving DecidableEq, Repr

namespace LexError

/-- The byte offset of the culprit. -/
def pos : LexError → Nat
  | symbol p _ | duplicateEquals p | trailingDot p => p

/-- What the user is told. -/
def message : LexError → Text
  | symbol p c =>
    Text.lit "unexpected symbol at " ++ Text.ofNat p ++ Text.lit ": " ++ Text.quoteChar c
  | duplicateEquals p =>
    Text.lit "only one equal-like sign allowed, got another at " ++ Text.ofNat p
  | trailingDot p => Text.lit "unexpected symbol at " ++ Text.ofNat p ++ Text.lit ": '.'"

end LexError

end Reckon
