import Reckon.Lexer.Error
import Reckon.Token

/-!
# What can be wrong with the text of an equation

Every such error is about a certain place. The token in question is kept, so the place and the
wording follow from it.
-/

namespace Reckon

/-- Why a text is no equation. -/
inductive InputError where
  /-- The text cannot be cut into tokens. -/
  | lexical (e : LexError)
  /-- An open bracket that is never closed. -/
  | unclosed (bracket : Token)
  /-- A close bracket that was never opened. -/
  | unopened (bracket : Token)
  /-- A token, or the end, where an operand should start. -/
  | operandExpected (found : Token)
  /-- A token after a complete equation. -/
  | leftover (found : Token)
  /-- A number that is too large, or else malformed. -/
  | number (literal : Token) (outOfRange : Bool)
deriving DecidableEq, Repr

namespace InputError

/-- The byte offset of the culprit. -/
def pos : InputError → Nat
  | lexical e => e.pos
  | unclosed t | unopened t | operandExpected t | leftover t | number t _ => t.pos

/-- What the user is told. -/
def message : InputError → Text
  | lexical e => e.message
  | unclosed t => place t ++ Text.lit "left bracket " ++ t.text ++ Text.lit " is unpaired"
  | unopened t => place t ++ Text.lit "right bracket " ++ t.text ++ Text.lit " is unpaired"
  | operandExpected t =>
    if t.text.isEmpty then place t ++ Text.lit "unexpected end of equation"
    else place t ++ Text.lit "unexpected operator " ++ Text.quote t.text
  | leftover t => place t ++ Text.lit "unexpected " ++ Text.quote t.text ++ Text.lit " after end of equation"
  | number t _ => place t ++ Text.lit "invalid number " ++ Text.quote t.text
where
  /-- The place of a token, in front of a message about it. -/
  place (t : Token) : Text := Text.ofNat t.pos ++ Text.lit ": "

end InputError

end Reckon
