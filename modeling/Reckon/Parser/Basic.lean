import Reckon.Lexer.Source
import Reckon.Parser.Literal

/-!
# Reading an equation

    equation    := expression (('=' | '==') expression)*
    expression  := term (('+' | '-') term)*
    term        := factor (('*' | '/') factor)*
    factor      := INT | FLOAT | IDENTIFIER | '(' equation ')'

Every operator has a power, higher for those that bind tighter. An expression is an operand
followed by all operators above a given power, each with a right operand at its own power, so a
run of operators of one level folds to the left.

A parser takes its tokens from any source of them, usually from a lexer, and it can then be pointed
at another equation (`Parser.reset`). It asks for tokens only as it needs them, so the first problem
from the left is the one that is reported. Every reader leaves fewer tokens to come when it has read
something, which is why the reading ends.
-/

namespace Reckon

namespace TokenKind

/-- How tightly an operator binds; zero for everything else. -/
def power : TokenKind → Nat
  | assign | equal => 1
  | plus | minus => 2
  | times | divide => 3
  | _ => 0

/-- The tree that an operator makes of its operands; nothing else joins operands. -/
def join? : TokenKind → Option (Expr → Token → Expr → Expr)
  | assign | equal | plus | minus | times | divide => some .binary
  | _ => none

/-- What has a power joins operands. -/
theorem isSome_join? {kind : TokenKind} (h : 0 < kind.power) : kind.join?.isSome = true := by
  cases kind <;> first | rfl | exact absurd h (Nat.lt_irrefl 0)

end TokenKind

/-- A reader of equations: the tokens to come and the last one taken. -/
structure Parser (σ : Type := Lexer) where
  /-- Where the tokens to come are taken from. -/
  lexer : σ
  current : Token

namespace Parser

/-- The token before any token was taken. -/
def noToken : Token := ⟨.error, [], 0⟩

/-- A parser at the start of an equation. -/
def ofText (skipBlanks : Bool) (equation : Text) : Parser :=
  ⟨Lexer.ofText skipBlanks equation, noToken⟩

/-- Points the parser to another equation. -/
def reset (p : Parser) (equation : Text) : Parser := ofText p.lexer.skipBlanks equation

variable {σ : Type} [TokenSource σ]

/-- How many tokens other than the end are to come. -/
def tokensLeft (p : Parser σ) : Nat := TokenSource.tokensLeft p.lexer

/-- Takes the next token. -/
def advance (p : Parser σ) : Except InputError Token × Parser σ :=
  match TokenSource.next p.lexer with
  | (.error e, l) => (.error (.lexical e), { p with lexer := l })
  | (.ok t, l) => (.ok t, ⟨l, t⟩)

/-- Taking a token makes the tokens to come no more. -/
theorem tokensLeft_advance_le (p : Parser σ) : p.advance.2.tokensLeft ≤ p.tokensLeft := by
  have hle := TokenSource.tokensLeft_next_le p.lexer
  unfold advance
  split <;> rename_i h <;> rw [h] at hle <;> exact hle

/-- Taking a token other than the end makes the tokens to come fewer. -/
theorem tokensLeft_advance_lt {p q : Parser σ} {t : Token} (h : p.advance = (.ok t, q))
    (hk : t.kind ≠ .eof) : q.tokensLeft < p.tokensLeft := by
  unfold advance at h
  split at h
  · cases h
  · rename_i t' l hn
    cases h
    have hlt := TokenSource.tokensLeft_next_lt p.lexer t (congrArg Prod.fst hn) hk
    rwa [hn] at hlt

/-- What came of reading a part of an equation: a tree or the first problem, and where the reading
stopped, with no more tokens to come than before and fewer if there is a tree. -/
def Outcome (p : Parser σ) : Type :=
  { r : Except InputError Expr × Parser σ //
    r.2.tokensLeft ≤ p.tokensLeft ∧ (r.1.isOk = true → r.2.tokensLeft < p.tokensLeft) }

/-- A problem found after reading on from `p`. -/
def Outcome.fail {p : Parser σ} (e : InputError) (q : Parser σ)
    (h : q.tokensLeft ≤ p.tokensLeft) : Outcome p :=
  ⟨(.error e, q), h, by simp [Except.isOk, Except.toBool]⟩

/-- A tree read from `p` on. -/
def Outcome.done {p : Parser σ} (tree : Expr) (q : Parser σ)
    (h : q.tokensLeft < p.tokensLeft) : Outcome p :=
  ⟨(.ok tree, q), Nat.le_of_lt h, fun _ => h⟩

/-- A token that is an operand is not the end. -/
theorem kind_ne_eof_of_operand? {t : Token} {r : Except InputError Expr}
    (h : t.operand? = some r) : t.kind ≠ .eof := by
  intro hk
  simp [Token.operand?, hk] at h

mutual

/-- Reads an operand: a number, an identifier or an equation in brackets. -/
def readOperand (p : Parser σ) : Outcome p :=
  match h : p.advance with
  | (.error e, q) => .fail e q (by have := tokensLeft_advance_le p; rwa [h] at this)
  | (.ok t, q) =>
    have hle : q.tokensLeft ≤ p.tokensLeft := by have := tokensLeft_advance_le p; rwa [h] at this
    match ho : t.operand? with
    | some (.error e) => .fail e q hle
    | some (.ok tree) =>
      have hlt := tokensLeft_advance_lt h (kind_ne_eof_of_operand? ho)
      have hnext := tokensLeft_advance_le q
      match hq : q.advance with
      | (.error e, q') => .fail e q' (by rw [hq] at hnext; exact Nat.le_trans hnext hle)
      | (.ok _, q') => .done tree q' (by rw [hq] at hnext; exact Nat.lt_of_le_of_lt hnext hlt)
    | none =>
      if hk : t.kind = .leftParen then
        have hlt := tokensLeft_advance_lt h (by rw [hk]; decide)
        match readExpr q 0 with
        | ⟨(.error e, q'), hle', _⟩ => .fail e q' (Nat.le_trans hle' hle)
        | ⟨(.ok inner, q'), hle', _⟩ =>
          if q'.current.kind = .rightParen then
            have hnext := tokensLeft_advance_le q'
            match hq : q'.advance with
            | (.error e, q'') =>
              .fail e q'' (by rw [hq] at hnext; exact Nat.le_trans hnext (Nat.le_trans hle' hle))
            | (.ok _, q'') =>
              .done inner q'' (by
                rw [hq] at hnext
                exact Nat.lt_of_le_of_lt hnext (Nat.lt_of_le_of_lt hle' hlt))
          else .fail (.unclosed t) q' (Nat.le_trans hle' hle)
      else .fail (.operandExpected t) q hle
termination_by (p.tokensLeft, 0)

/-- Reads an operand and all operators above the given power after it. -/
def readExpr (p : Parser σ) (power : Nat) : Outcome p :=
  match readOperand p with
  | ⟨(.error e, q), hle, _⟩ => .fail e q hle
  | ⟨(.ok left, q), _, hq⟩ =>
    have hlt : q.tokensLeft < p.tokensLeft := hq rfl
    match readOperators q left power with
    | ⟨r, hle⟩ => ⟨r, Nat.le_trans hle (Nat.le_of_lt hlt), fun _ => Nat.lt_of_le_of_lt hle hlt⟩
termination_by (p.tokensLeft, 1)

/-- Reads all operators above the given power, of which the first has the given left operand. -/
def readOperators (p : Parser σ) (left : Expr) (power : Nat) :
    { r : Except InputError Expr × Parser σ // r.2.tokensLeft ≤ p.tokensLeft } :=
  if h : power < p.current.kind.power then
    let join := p.current.kind.join?.get (TokenKind.isSome_join? (Nat.zero_lt_of_lt h))
    match readExpr p p.current.kind.power with
    | ⟨(.error e, q), hle, _⟩ => ⟨(.error e, q), hle⟩
    | ⟨(.ok right, q), _, hq⟩ =>
      have hlt : q.tokensLeft < p.tokensLeft := hq rfl
      match readOperators q (join left p.current right) power with
      | ⟨r, hle⟩ => ⟨r, Nat.le_trans hle (Nat.le_of_lt hlt)⟩
  else ⟨(.ok left, p), Nat.le_refl _⟩
termination_by (p.tokensLeft, 2)

end

/-- Reads a whole equation, after which nothing may follow. -/
def equation (p : Parser σ) : Except InputError Expr × Parser σ :=
  match (readExpr p 0).val with
  | (.error e, q) => (.error e, q)
  | (.ok tree, q) =>
    match q.current.kind with
    | .eof => (.ok tree, q)
    | .rightParen => (.error (.unopened q.current), q)
    | _ => (.error (.leftover q.current), q)

end Parser

/-- Reads a text as an equation. -/
def parse (skipBlanks : Bool) (equation : Text) : Except InputError Expr :=
  (Parser.ofText skipBlanks equation).equation.1

end Reckon
