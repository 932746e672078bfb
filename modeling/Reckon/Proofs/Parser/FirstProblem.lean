import Reckon.Proofs.Lexer.LongestMatch
import Reckon.Proofs.Parser.Literal
import Reckon.Proofs.Parser.Reading

/-!
# The first problem of an equation

`Checker` checks an equation in one pass over its tokens, with no more memory than what is expected
next and which brackets are open. It builds no tree and looks at no powers of operators: `step`
takes one token, and `run` takes tokens from a lexer until there is a verdict.

The parser reads ahead by one token and finds an unclosed bracket only after all operators inside
have been folded. `parse_verdict_eq_run` says that this shows nowhere: its verdict is that of the
checker, so the problem it reports is always the first one from the left. The brackets of the
checker are the calls of `Parser.readOperand` that have not returned; `follows_of_reads` relates the
two along every reading.
-/

namespace Reckon

/-- What an equation has to go on with. -/
inductive Expected where
  | operand
  | operator
deriving DecidableEq, Repr

/-- A check of an equation in one pass. -/
structure Checker where
  expected : Expected
  /-- The open brackets, the innermost first. -/
  brackets : List Token

namespace Checker

/-- Before the first token. -/
def start : Checker := ⟨.operand, []⟩

/-- Takes a token. The equation is refused, accepted (`none`) or goes on. -/
def step (c : Checker) (t : Token) : Except InputError (Option Checker) :=
  match c.expected with
  | .operand =>
    match t.kind with
    | .int | .float =>
      if t.Converts then .ok (some ⟨.operator, c.brackets⟩) else .error (.number t t.tooLarge)
    | .identifier => .ok (some ⟨.operator, c.brackets⟩)
    | .leftParen => .ok (some ⟨.operand, t :: c.brackets⟩)
    | .eof => .error (.operandExpected { t with text := [] })
    | _ => .error (.operandExpected t)
  | .operator =>
    if t.kind.isOperator then .ok (some ⟨.operand, c.brackets⟩)
    else
      match c.brackets with
      | innermost :: outer =>
        if t.kind = .rightParen then .ok (some ⟨.operator, outer⟩)
        else .error (.unclosed innermost)
      | [] =>
        match t.kind with
        | .eof => .ok none
        | .rightParen => .error (.unopened t)
        | _ => .error (.leftover t)

/-- **How an equation goes on**: with an operand or an open bracket where an operand is expected,
and elsewhere with an operator or the bracket that closes the innermost open one. -/
theorem step_cases {c c' : Checker} {t : Token} (h : c.step t = .ok (some c')) :
    (c.expected = .operand ∧ t.isLiteral = true ∧ c' = ⟨.operator, c.brackets⟩) ∨
      (c.expected = .operand ∧ t.kind = .leftParen ∧ c' = ⟨.operand, t :: c.brackets⟩) ∨
      (c.expected = .operator ∧ t.kind.isOperator = true ∧ c' = ⟨.operand, c.brackets⟩) ∨
      (c.expected = .operator ∧ t.kind = .rightParen ∧
        ∃ innermost outer, c.brackets = innermost :: outer ∧ c' = ⟨.operator, outer⟩) := by
  rw [step] at h
  split at h <;> rename_i hexpected
  · split at h <;> rename_i hk
    · split at h <;> cases h
      exact .inl ⟨hexpected, by simp [Token.isLiteral, hk], rfl⟩
    · split at h <;> cases h
      exact .inl ⟨hexpected, by simp [Token.isLiteral, hk], rfl⟩
    · cases h
      exact .inl ⟨hexpected, by simp [Token.isLiteral, hk], rfl⟩
    · cases h
      exact .inr (.inl ⟨hexpected, hk, rfl⟩)
    · cases h
    · cases h
  · split at h
    · rename_i hop
      cases h
      exact .inr (.inr (.inl ⟨hexpected, hop, rfl⟩))
    · split at h
      · rename_i innermost outer hbrackets
        split at h <;> cases h
        rename_i hk
        exact .inr (.inr (.inr ⟨hexpected, hk, innermost, outer, hbrackets, rfl⟩))
      · split at h <;> cases h

/-- No equation goes on after its end. -/
theorem ne_eof_of_step {c c' : Checker} {t : Token} (h : c.step t = .ok (some c')) :
    t.kind ≠ .eof := by
  intro hk
  rcases step_cases h with ⟨-, ht, -⟩ | ⟨-, ht, -⟩ | ⟨-, ht, -⟩ | ⟨-, ht, -⟩
  · simp [Token.isLiteral, hk] at ht
  · simp [hk] at ht
  · simp [TokenKind.isOperator, hk] at ht
  · simp [hk] at ht

/-- Takes tokens until there is a verdict. -/
def run (c : Checker) (l : Lexer) : Except InputError Unit :=
  match _h : l.next with
  | (.error e, _) => .error (.lexical e)
  | (.ok t, after) =>
    match _hs : c.step t with
    | .error e => .error e
    | .ok none => .ok ()
    | .ok (some c') => c'.run after
termination_by l.remaining
decreasing_by
  have := Lexer.remaining_next_lt (congrArg Prod.fst _h) (ne_eof_of_step _hs)
  rwa [_h] at this

/-- The verdict when the next token has been taken from the lexer already. -/
def resume (c : Checker) (t : Token) (l : Lexer) : Except InputError Unit :=
  match c.step t with
  | .error e => .error e
  | .ok none => .ok ()
  | .ok (some c') => c'.run l

theorem run_of_next_error {l after : Lexer} {e : LexError} (h : l.next = (.error e, after))
    (c : Checker) : c.run l = .error (.lexical e) := by
  rw [run]
  split <;> rename_i hn <;> rw [h] at hn <;> cases hn
  rfl

theorem run_of_next {l after : Lexer} {t : Token} (h : l.next = (.ok t, after)) (c : Checker) :
    c.run l = c.resume t after := by
  rw [run, resume]
  split <;> rename_i hn <;> rw [h] at hn <;> cases hn
  split <;> rename_i hs <;> simp only [hs]

theorem resume_of_step {c c' : Checker} {t : Token} (h : c.step t = .ok (some c')) (l : Lexer) :
    c.resume t l = c'.run l := by
  rw [resume, h]

theorem resume_of_error {c : Checker} {t : Token} {e : InputError} (h : c.step t = .error e)
    (l : Lexer) : c.resume t l = .error e := by
  rw [resume, h]

/-! ### Single steps -/

section Step

variable {t : Token} (brackets : List Token)

theorem isOperator_iff_power_pos (kind : TokenKind) : kind.isOperator = true ↔ 0 < kind.power := by
  cases kind <;> simp [TokenKind.isOperator, TokenKind.power]

/-- A number or an identifier where an operand is expected. -/
theorem step_literal (h : t.isLiteral = true) :
    step ⟨.operand, brackets⟩ t =
      if t.Converts then .ok (some ⟨.operator, brackets⟩) else .error (.number t t.tooLarge) := by
  simp only [Token.isLiteral, Bool.or_eq_true, decide_eq_true_eq] at h
  rcases h with (hk | hk) | hk
  · simp only [step, hk]
  · simp only [step, hk]
  · have hconv : t.Converts := by simp [Token.Converts, hk]
    simp only [step, hk, hconv, if_true]

theorem step_leftParen (h : t.kind = .leftParen) :
    step ⟨.operand, brackets⟩ t = .ok (some ⟨.operand, t :: brackets⟩) := by
  simp only [step, h]

/-- Anything else where an operand is expected, provided that the end has no text. -/
theorem step_unexpected (hliteral : t.isLiteral = false) (hparen : t.kind ≠ .leftParen)
    (heof : t.kind = .eof → t.text = []) :
    step ⟨.operand, brackets⟩ t = .error (.operandExpected t) := by
  simp only [Token.isLiteral, Bool.or_eq_false_iff, decide_eq_false_iff_not] at hliteral
  obtain ⟨⟨hint, hfloat⟩, hident⟩ := hliteral
  rw [step]
  dsimp only
  split
  · contradiction
  · contradiction
  · contradiction
  · contradiction
  · rename_i hk
    rw [← heof hk]
  · rfl

theorem step_operator (h : 0 < t.kind.power) :
    step ⟨.operator, brackets⟩ t = .ok (some ⟨.operand, brackets⟩) := by
  rw [← isOperator_iff_power_pos] at h
  simp only [step, h, if_true]

/-- What no operator is, where one is expected. -/
theorem step_of_power_eq_zero (h : t.kind.power = 0) :
    step ⟨.operator, brackets⟩ t =
      match brackets with
      | innermost :: outer =>
        if t.kind = .rightParen then .ok (some ⟨.operator, outer⟩)
        else .error (.unclosed innermost)
      | [] =>
        match t.kind with
        | .eof => .ok none
        | .rightParen => .error (.unopened t)
        | _ => .error (.leftover t) := by
  have hop : ¬ t.kind.isOperator = true := by
    rw [isOperator_iff_power_pos]
    omega
  rw [step, if_neg hop]

/-- The bracket that closes the innermost open one. -/
theorem step_rightParen (h : t.kind = .rightParen) (innermost : Token) :
    step ⟨.operator, innermost :: brackets⟩ t = .ok (some ⟨.operator, brackets⟩) := by
  rw [step_of_power_eq_zero _ (by rw [h]; rfl)]
  exact if_pos h

end Step

end Checker

namespace Parser

open Checker

/-! ### The checker follows the parser -/

/-- The checker's verdict at the start of a part. The first operator of a run of operators is the
current token already. -/
def Part.verdict (part : Part) (brackets : List Token) (p : Parser) : Except InputError Unit :=
  match part with
  | operand | expr _ => run ⟨.operand, brackets⟩ p.lexer
  | operators .. => resume ⟨.operator, brackets⟩ p.current p.lexer

/-- The greatest power of an operator that can follow a part. -/
def Part.power : Part → Nat
  | operand => 3
  | expr power => power
  | operators _ power => power

/-- The checker at the end of a part that was read: with the same brackets open as at its start, it
goes on with the current token. -/
structure EndsAt (verdict : Except InputError Unit) (brackets : List Token) (power : Nat)
    (q : Parser) : Prop where
  verdict_eq : verdict = resume ⟨.operator, brackets⟩ q.current q.lexer
  start_eq : q.lexer.start = q.lexer.cursor.pos
  power_le : q.current.kind.power ≤ power

/-- What the checker does while a part is read: it fails with the same problem, or comes to the end
of the part. -/
def Ends (verdict : Except InputError Unit) (brackets : List Token) (power : Nat) :
    Except InputError Expr × Parser → Prop
  | (.error e, _) => verdict = .error e
  | (.ok _, q) => EndsAt verdict brackets power q

/-- The checker follows the reading of a part, whichever brackets are open. -/
def Follows (part : Part) (p : Parser) (r : Except InputError Expr × Parser) : Prop :=
  p.lexer.start = p.lexer.cursor.pos →
    ∀ brackets, Ends (part.verdict brackets p) brackets part.power r

/-- Taking a token, as the checker sees it. -/
theorem run_of_advance {p q : Parser} {t : Token} (h : p.advance = (.ok t, q))
    (hp : p.lexer.start = p.lexer.cursor.pos) :
    (∀ c : Checker, c.run p.lexer = c.resume t q.lexer) ∧
      q.lexer.start = q.lexer.cursor.pos ∧ q.current = t ∧ (t.kind = .eof → t.text = []) := by
  obtain ⟨hn, hcurrent⟩ := advance_eq_ok h
  obtain ⟨hstart, heof⟩ := Lexer.start_of_next hp hn
  exact ⟨run_of_next hn, hstart, hcurrent, heof⟩

/-- Failing to take a token, as the checker sees it. -/
theorem run_of_advance_error {p q : Parser} {e : InputError} (h : p.advance = (.error e, q))
    (c : Checker) : c.run p.lexer = .error e := by
  obtain ⟨e', hn, rfl⟩ := advance_eq_error h
  exact run_of_next_error hn c

/-- The checker takes a number or an identifier. -/
theorem run_of_literal {p q : Parser} {t : Token} {tree : Expr} (h : p.advance = (.ok t, q))
    (operand : t.operand? = some (.ok tree)) (hp : p.lexer.start = p.lexer.cursor.pos)
    (brackets : List Token) :
    run ⟨.operand, brackets⟩ p.lexer = run ⟨.operator, brackets⟩ q.lexer ∧
      q.lexer.start = q.lexer.cursor.pos := by
  obtain ⟨hrun, hq, -, -⟩ := run_of_advance h hp
  obtain ⟨hliteral, hconv, -⟩ := Token.operand?_eq_ok operand
  have hstep : step ⟨.operand, brackets⟩ t = .ok (some ⟨.operator, brackets⟩) := by
    rw [step_literal brackets hliteral, if_pos hconv]
  exact ⟨(hrun _).trans (resume_of_step hstep _), hq⟩

/-- The checker takes an open bracket. -/
theorem run_of_leftParen {p q : Parser} {t : Token} (h : p.advance = (.ok t, q))
    (kind : t.kind = .leftParen) (hp : p.lexer.start = p.lexer.cursor.pos)
    (brackets : List Token) :
    run ⟨.operand, brackets⟩ p.lexer = run ⟨.operand, t :: brackets⟩ q.lexer ∧
      q.lexer.start = q.lexer.cursor.pos := by
  obtain ⟨hrun, hq, -, -⟩ := run_of_advance h hp
  exact ⟨(hrun _).trans (resume_of_step (step_leftParen brackets kind) _), hq⟩

/-- The checker takes the bracket that closes the innermost open one. -/
theorem EndsAt.close {verdict : Except InputError Unit} {t : Token} {brackets : List Token}
    {q : Parser} (h : EndsAt verdict (t :: brackets) 0 q) (last : q.current.kind = .rightParen) :
    verdict = run ⟨.operator, brackets⟩ q.lexer :=
  h.verdict_eq.trans (resume_of_step (step_rightParen brackets last t) _)

/-- An operand ends when the token after it has been taken. -/
theorem endsAt_of_advance {verdict : Except InputError Unit} {brackets : List Token}
    {q q' : Parser} {t : Token} (h : verdict = run ⟨.operator, brackets⟩ q.lexer)
    (next : q.advance = (.ok t, q')) (hq : q.lexer.start = q.lexer.cursor.pos) :
    EndsAt verdict brackets 3 q' := by
  obtain ⟨hrun, hq', rfl, -⟩ := run_of_advance next hq
  exact ⟨h.trans (hrun _), hq', TokenKind.power_le_three _⟩

/-- **The checker follows the parser** through every reading of a part. -/
theorem follows_of_reads {part : Part} {p : Parser} {r : Except InputError Expr × Parser}
    (h : Reads part p r) : Follows part p r := by
  induction h with
  | noToken first =>
    intro _ brackets
    exact run_of_advance_error first _
  | @badNumber p q t e first operand =>
    intro hp brackets
    obtain ⟨hliteral, hconv, rfl⟩ := Token.operand?_eq_error operand
    have hstep : step ⟨.operand, brackets⟩ t = .error (.number t t.tooLarge) := by
      rw [step_literal brackets hliteral, if_neg hconv]
    exact ((run_of_advance first hp).1 _).trans (resume_of_error hstep _)
  | @literalThenNoToken p q q' t tree e first operand next =>
    intro hp brackets
    exact (run_of_literal first operand hp brackets).1.trans (run_of_advance_error next _)
  | @literal p q q' t t' tree first operand next =>
    intro hp brackets
    obtain ⟨hrun, hq⟩ := run_of_literal first operand hp brackets
    exact endsAt_of_advance hrun next hq
  | @unexpected p q t first operand kind =>
    intro hp brackets
    obtain ⟨hrun, -, -, heof⟩ := run_of_advance first hp
    have hstep := step_unexpected brackets (Token.operand?_eq_none operand) kind heof
    exact (hrun _).trans (resume_of_error hstep _)
  | @badGroup p q q' t e first kind inner ih =>
    intro hp brackets
    obtain ⟨hrun, hq⟩ := run_of_leftParen first kind hp brackets
    exact hrun.trans (ih hq _)
  | @unclosed p q q' t tree first kind inner last ih =>
    intro hp brackets
    obtain ⟨hrun, hq⟩ := run_of_leftParen first kind hp brackets
    have hend := ih hq (t :: brackets)
    -- all operators inside have been folded, so the token here is none
    have hstep : step ⟨.operator, t :: brackets⟩ q'.current = .error (.unclosed t) := by
      rw [step_of_power_eq_zero _ (Nat.le_zero.mp hend.power_le)]
      exact if_neg last
    exact hrun.trans (hend.verdict_eq.trans (resume_of_error hstep _))
  | @groupThenNoToken p q q' q'' t tree e first kind inner last next ih =>
    intro hp brackets
    obtain ⟨hrun, hq⟩ := run_of_leftParen first kind hp brackets
    have hend := ih hq (t :: brackets)
    exact hrun.trans ((EndsAt.close hend last).trans (run_of_advance_error next _))
  | @group p q q' q'' t t' tree first kind inner last next ih =>
    intro hp brackets
    obtain ⟨hrun, hq⟩ := run_of_leftParen first kind hp brackets
    have hend := ih hq (t :: brackets)
    exact endsAt_of_advance (hrun.trans (EndsAt.close hend last)) next hend.start_eq
  | badOperand operand ih =>
    intro hp brackets
    exact ih hp brackets
  | @expr p q power left r operand rest ih ih' =>
    intro hp brackets
    have hend := ih hp brackets
    have hrest := ih' hend.start_eq brackets
    rwa [Part.verdict, ← hend.verdict_eq] at hrest
  | @done p left power low =>
    intro hp brackets
    exact ⟨rfl, hp, low⟩
  | @badRight p q left power e high right ih =>
    intro hp brackets
    exact (resume_of_step (step_operator brackets (by omega)) _).trans (ih hp brackets)
  | @operator p q left right power r high operand rest ih ih' =>
    intro hp brackets
    -- the checker takes the operator, comes to the end of the right operand, and goes on from there
    have hend := ih hp brackets
    have hrest := ih' hend.start_eq brackets
    rw [Part.verdict, ← hend.verdict_eq] at hrest
    rwa [Part.verdict, resume_of_step (step_operator brackets (by omega))]

/-- A parser between two tokens judges the rest of its text as the checker does. -/
theorem verdict_equation {p : Parser} (hp : p.lexer.start = p.lexer.cursor.pos) :
    p.equation.1.map (fun _ => ()) = Checker.start.run p.lexer := by
  have hfollows := follows_of_reads (reads_readExpr p 0) hp []
  rw [equation]
  rcases hr : (readExpr p 0).val with ⟨e | tree, q⟩ <;> rw [hr] at hfollows
  · exact hfollows.symm
  · -- with no bracket open, the checker judges the token after the equation as the parser does
    have hstep := step_of_power_eq_zero [] (Nat.le_zero.mp hfollows.power_le)
    refine Eq.trans ?_ hfollows.verdict_eq.symm
    rw [resume, hstep]
    dsimp only
    cases q.current.kind <;> rfl

end Parser

/-- What the checker refuses, the parser refuses. -/
theorem parse_of_run_error {skipBlanks : Bool} {equation : Text} {e : InputError}
    (h : Checker.start.run (Lexer.ofText skipBlanks equation) = .error e) :
    parse skipBlanks equation = .error e := by
  have hverdict : (parse skipBlanks equation).map (fun _ => ()) = .error e :=
    (Parser.verdict_equation rfl).trans h
  rcases hparse : parse skipBlanks equation with e' | tree <;> rw [hparse] at hverdict <;>
    cases hverdict
  rfl

/-- **The first problem is reported.** For every text, the verdict of the parser is that of the
checker on the tokens from the left. -/
theorem parse_verdict_eq_run (skipBlanks : Bool) (equation : Text) :
    (parse skipBlanks equation).map (fun _ => ()) =
      Checker.start.run (Lexer.ofText skipBlanks equation) :=
  Parser.verdict_equation rfl

end Reckon
