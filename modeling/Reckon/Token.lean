import Reckon.Text.Quoted

/-!
# Tokens

A token is a piece of an equation: its kind, its text and the byte offset where it starts. Every
kind has a number, by which it is listed, and a name; kinds outside the list have only a number.
-/

namespace Reckon

/-- The kinds of tokens. -/
inductive TokenKind where
  /-- Stands where reading failed; its text is the message. -/
  | error
  | eof
  | identifier
  | int
  | float
  | plus
  | minus
  | times
  | divide
  | assign
  | equal
  | leftParen
  | rightParen
  /-- A kind outside the list. -/
  | other (code : Int)
deriving DecidableEq, Repr

namespace TokenKind

/-- The number by which a kind is listed. -/
def code : TokenKind → Int
  | error => 0
  | eof => 1
  | identifier => 2
  | int => 3
  | float => 4
  | plus => 5
  | minus => 6
  | times => 7
  | divide => 8
  | assign => 9
  | equal => 10
  | leftParen => 11
  | rightParen => 12
  | other n => n

/-- The kind with a given number. -/
def ofCode (n : Int) : TokenKind :=
  let listed := [error, eof, identifier, int, float, plus, minus, times, divide, assign, equal,
    leftParen, rightParen]
  (listed.find? fun kind => kind.code == n).getD (other n)

/-- The name of a kind: operators are named by their text, kinds outside the list not at all. -/
def name : TokenKind → Text
  | error => Text.lit "ERROR"
  | eof => Text.lit "EOF"
  | identifier => Text.lit "IDENTIFIER"
  | int => Text.lit "INT"
  | float => Text.lit "FLOAT"
  | plus => Text.lit "+"
  | minus => Text.lit "-"
  | times => Text.lit "*"
  | divide => Text.lit "/"
  | assign => Text.lit "="
  | equal => Text.lit "=="
  | leftParen => Text.lit "PAREN_LEFT"
  | rightParen => Text.lit "PAREN_RIGHT"
  | other _ => []

/-- Whether a kind is one of the six binary operators. -/
def isOperator : TokenKind → Bool
  | plus | minus | times | divide | assign | equal => true
  | _ => false

/-- How a token of this kind at the given place is listed: the end by its name alone, any other
with its place and its quoted text, of which at most sixteen bytes or else sixteen characters
are shown. -/
def describe (kind : TokenKind) (text : Text) (pos : Int) : Text :=
  if kind = eof then Text.lit "EOF"
  else
    let quoted := if 16 < text.length then Text.quoteFirst 16 text else Text.quote text
    kind.name ++ Text.lit "[" ++ Text.ofInt pos ++ Text.lit "]: " ++ quoted

end TokenKind

/-- A piece of an equation. -/
structure Token where
  kind : TokenKind
  text : Text
  /-- The byte offset of the first byte. -/
  pos : Nat
deriving DecidableEq, Repr

/-- How a token is listed. -/
def Token.describe (t : Token) : Text := t.kind.describe t.text t.pos

end Reckon
