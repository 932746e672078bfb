import Reckon.Parser.Basic

/-!
# What reading a part of an equation does

The three readers of `Reckon.Parser.Basic` carry proofs that they get on. `readOperand_val`,
`readExpr_val` and `readOperators_val` are their equations without these proofs; they show that each
reader goes on from where another one stopped (`andThen`).

`Reads part p r` is the same as a set of rules, one for each way in which the reading of a part can
go: from the parser `p` it ends with `r`, a tree or a problem and where the reading stopped.
Every reading goes by these rules (`reads_readExpr` and its two companions), so what holds of all
readings is proved by induction on them; and the rules leave no choice (`read_eq_of_reads`).
-/

namespace Reckon

/-- Products and quotients bind tightest. -/
theorem TokenKind.power_le_three (kind : TokenKind) : kind.power ≤ 3 := by
  cases kind <;> simp [power]

/-- The end is no operator. -/
theorem TokenKind.ne_eof_of_lt_power {kind : TokenKind} {power : Nat} (h : power < kind.power) :
    kind ≠ .eof := by
  rintro rfl
  exact Nat.not_lt_zero power h

namespace Parser

variable {σ : Type}

/-! ### One token -/

/-- A token that is taken becomes the current one. -/
theorem current_of_advance [TokenSource σ] {p q : Parser σ} {t : Token}
    (h : p.advance = (.ok t, q)) : q.current = t := by
  rw [advance] at h
  split at h
  · cases h
  · cases h
    rfl

/-- A token that is taken is the lexer's next one and becomes the current one. -/
theorem advance_eq_ok {p q : Parser} {t : Token} (h : p.advance = (.ok t, q)) :
    p.lexer.next = (.ok t, q.lexer) ∧ q.current = t := by
  rw [advance] at h
  split at h
  · cases h
  · rename_i t' l hn
    cases h
    exact ⟨hn, rfl⟩

/-- No token is taken where the lexer fails. -/
theorem advance_eq_error {p q : Parser} {e : InputError} (h : p.advance = (.error e, q)) :
    ∃ e', p.lexer.next = (.error e', q.lexer) ∧ e = .lexical e' := by
  rw [advance] at h
  split at h
  · rename_i e' l hn
    cases h
    exact ⟨e', hn, rfl⟩
  · cases h

/-- The lexer's next token is taken. -/
theorem advance_of_next {p : Parser} {l : Lexer} {t : Token} (h : p.lexer.next = (.ok t, l)) :
    p.advance = (.ok t, ⟨l, t⟩) := by
  have hnext : TokenSource.next p.lexer = (.ok t, l) := h
  rw [advance, hnext]

/-- No token is taken where the lexer fails, and the current one stays. -/
theorem advance_of_next_error {p : Parser} {l : Lexer} {e : LexError}
    (h : p.lexer.next = (.error e, l)) :
    p.advance = (.error (.lexical e), { p with lexer := l }) := by
  have hnext : TokenSource.next p.lexer = (.error e, l) := h
  rw [advance, hnext]

/-! ### The readers without their proofs -/

/-- Goes on from where a reading stopped, unless it failed. -/
def andThen {α : Type} (r : Except InputError α × Parser σ)
    (f : α → Parser σ → Except InputError Expr × Parser σ) : Except InputError Expr × Parser σ :=
  match r with
  | (.error e, q) => (.error e, q)
  | (.ok a, q) => f a q

variable [TokenSource σ]

theorem readOperand_val (p : Parser σ) :
    (readOperand p).val = andThen p.advance fun t q =>
      match t.operand? with
      | some (.error e) => (.error e, q)
      | some (.ok tree) => andThen q.advance fun _ q' => (.ok tree, q')
      | none =>
        if t.kind = .leftParen then
          andThen (readExpr q 0).val fun inner q' =>
            if q'.current.kind = .rightParen then andThen q'.advance fun _ q'' => (.ok inner, q'')
            else (.error (.unclosed t), q')
        else (.error (.operandExpected t), q) := by
  rw [readOperand]
  split
  · rename_i e q h
    simp only [h, andThen, Outcome.fail]
  · rename_i t q h
    simp only [h, andThen]
    split
    · rename_i e ho
      simp only [ho, Outcome.fail]
    · rename_i tree ho
      simp only [ho]
      split
      · rename_i e q' hq
        simp only [hq, Outcome.fail]
      · rename_i t' q' hq
        simp only [hq, Outcome.done]
    · rename_i ho
      simp only [ho]
      split
      · rcases hr : readExpr q 0 with ⟨⟨e | inner, q'⟩, hle', hlt'⟩
        · simp only [Outcome.fail]
        · dsimp only
          split
          · split
            · rename_i hq
              simp only [hq, Outcome.fail]
            · rename_i hq
              simp only [hq, Outcome.done]
          · simp only [Outcome.fail]
      · simp only [Outcome.fail]

theorem readExpr_val (p : Parser σ) (power : Nat) :
    (readExpr p power).val =
      andThen (readOperand p).val fun left q => (readOperators q left power).val := by
  rw [readExpr]
  rcases hr : readOperand p with ⟨⟨e | left, q⟩, hle, hlt⟩
  · rfl
  · rfl

/-- All operators are joined to their operands alike. -/
theorem eq_binary_of_join? {kind : TokenKind} {join : Expr → Token → Expr → Expr}
    (h : kind.join? = some join) : join = .binary := by
  cases kind <;> cases h <;> rfl

theorem readOperators_val (p : Parser σ) (left : Expr) (power : Nat) :
    (readOperators p left power).val =
      if power < p.current.kind.power then
        andThen (readExpr p p.current.kind.power).val fun right q =>
          (readOperators q (.binary left p.current right) power).val
      else (.ok left, p) := by
  rw [readOperators]
  split
  · rename_i hpower
    have hsome := TokenKind.isSome_join? (Nat.zero_lt_of_lt hpower)
    rw [eq_binary_of_join? (Option.some_get hsome).symm]
    rcases hr : readExpr p p.current.kind.power with ⟨⟨e | right, q⟩, hle, hlt⟩
    · rfl
    · rfl
  · rfl

/-- No operator above the given power is next, so the expression ends here. -/
theorem readOperators_of_power_le {p : Parser σ} {power : Nat} (h : p.current.kind.power ≤ power)
    (left : Expr) : (readOperators p left power).val = (.ok left, p) := by
  rw [readOperators_val, if_neg (Nat.not_lt.mpr h)]

/-! ### Readings by rules -/

/-- What is to be read. -/
inductive Part where
  /-- A number, an identifier or an equation in brackets. -/
  | operand
  /-- An operand and all operators above a power. -/
  | expr (power : Nat)
  /-- All operators above a power, of which the first has the given left operand. -/
  | operators (left : Expr) (power : Nat)

/-- Reads a part. -/
def Part.read (part : Part) (p : Parser σ) : Except InputError Expr × Parser σ :=
  match part with
  | operand => (readOperand p).val
  | expr power => (readExpr p power).val
  | operators left power => (readOperators p left power).val

/-- The rules by which parts are read. -/
inductive Reads : Part → Parser σ → Except InputError Expr × Parser σ → Prop
  | noToken {p q : Parser σ} {e : InputError} (first : p.advance = (.error e, q)) :
      Reads .operand p (.error e, q)
  | badNumber {p q : Parser σ} {t : Token} {e : InputError} (first : p.advance = (.ok t, q))
      (operand : t.operand? = some (.error e)) : Reads .operand p (.error e, q)
  | literalThenNoToken {p q q' : Parser σ} {t : Token} {tree : Expr} {e : InputError}
      (first : p.advance = (.ok t, q)) (operand : t.operand? = some (.ok tree))
      (next : q.advance = (.error e, q')) : Reads .operand p (.error e, q')
  | literal {p q q' : Parser σ} {t t' : Token} {tree : Expr} (first : p.advance = (.ok t, q))
      (operand : t.operand? = some (.ok tree)) (next : q.advance = (.ok t', q')) :
      Reads .operand p (.ok tree, q')
  | unexpected {p q : Parser σ} {t : Token} (first : p.advance = (.ok t, q))
      (operand : t.operand? = none) (kind : t.kind ≠ .leftParen) :
      Reads .operand p (.error (.operandExpected t), q)
  | badGroup {p q q' : Parser σ} {t : Token} {e : InputError} (first : p.advance = (.ok t, q))
      (kind : t.kind = .leftParen) (inner : Reads (.expr 0) q (.error e, q')) :
      Reads .operand p (.error e, q')
  | unclosed {p q q' : Parser σ} {t : Token} {tree : Expr} (first : p.advance = (.ok t, q))
      (kind : t.kind = .leftParen) (inner : Reads (.expr 0) q (.ok tree, q'))
      (last : q'.current.kind ≠ .rightParen) : Reads .operand p (.error (.unclosed t), q')
  | groupThenNoToken {p q q' q'' : Parser σ} {t : Token} {tree : Expr} {e : InputError}
      (first : p.advance = (.ok t, q)) (kind : t.kind = .leftParen)
      (inner : Reads (.expr 0) q (.ok tree, q')) (last : q'.current.kind = .rightParen)
      (next : q'.advance = (.error e, q'')) : Reads .operand p (.error e, q'')
  | group {p q q' q'' : Parser σ} {t t' : Token} {tree : Expr} (first : p.advance = (.ok t, q))
      (kind : t.kind = .leftParen) (inner : Reads (.expr 0) q (.ok tree, q'))
      (last : q'.current.kind = .rightParen) (next : q'.advance = (.ok t', q'')) :
      Reads .operand p (.ok tree, q'')
  | badOperand {p q : Parser σ} {power : Nat} {e : InputError}
      (operand : Reads .operand p (.error e, q)) : Reads (.expr power) p (.error e, q)
  | expr {p q : Parser σ} {power : Nat} {left : Expr} {r : Except InputError Expr × Parser σ}
      (operand : Reads .operand p (.ok left, q)) (rest : Reads (.operators left power) q r) :
      Reads (.expr power) p r
  | done {p : Parser σ} {left : Expr} {power : Nat} (low : p.current.kind.power ≤ power) :
      Reads (.operators left power) p (.ok left, p)
  | badRight {p q : Parser σ} {left : Expr} {power : Nat} {e : InputError}
      (high : power < p.current.kind.power)
      (right : Reads (.expr p.current.kind.power) p (.error e, q)) :
      Reads (.operators left power) p (.error e, q)
  | operator {p q : Parser σ} {left right : Expr} {power : Nat}
      {r : Except InputError Expr × Parser σ} (high : power < p.current.kind.power)
      (operand : Reads (.expr p.current.kind.power) p (.ok right, q))
      (rest : Reads (.operators (.binary left p.current right) power) q r) :
      Reads (.operators left power) p r

mutual

/-- Operands are read by the rules. -/
theorem reads_readOperand (p : Parser σ) : Reads .operand p (readOperand p).val := by
  -- by the recursion of the readers themselves: each call is on a later place or a simpler part
  rw [readOperand_val]
  rcases h : p.advance with ⟨e | t, q⟩
  · exact .noToken h
  · dsimp only [andThen]
    rcases ho : t.operand? with _ | (e | tree)
    · dsimp only
      split
      · rename_i hk
        have hlt := tokensLeft_advance_lt h (by rw [hk]; decide)
        have hinner := reads_readExpr q 0
        rcases hr : (readExpr q 0).val with ⟨e | tree, q'⟩ <;> rw [hr] at hinner
        · exact .badGroup h hk hinner
        · dsimp only
          split
          · rename_i hlast
            rcases hq : q'.advance with ⟨e | t', q''⟩
            · exact .groupThenNoToken h hk hinner hlast hq
            · exact .group h hk hinner hlast hq
          · rename_i hlast
            exact .unclosed h hk hinner hlast
      · rename_i hk
        exact .unexpected h ho hk
    · exact .badNumber h ho
    · dsimp only
      rcases hq : q.advance with ⟨e | t', q'⟩
      · exact .literalThenNoToken h ho hq
      · exact .literal h ho hq
termination_by (p.tokensLeft, 0)

/-- Expressions are read by the rules. -/
theorem reads_readExpr (p : Parser σ) (power : Nat) :
    Reads (.expr power) p (readExpr p power).val := by
  rw [readExpr_val]
  have hoperand := reads_readOperand p
  have hlt := (readOperand p).property.2
  rcases hr : (readOperand p).val with ⟨e | left, q⟩ <;> rw [hr] at hoperand hlt
  · exact .badOperand hoperand
  · have hq : q.tokensLeft < p.tokensLeft := hlt rfl
    exact .expr hoperand (reads_readOperators q left power)
termination_by (p.tokensLeft, 1)

/-- Operators are read by the rules. -/
theorem reads_readOperators (p : Parser σ) (left : Expr) (power : Nat) :
    Reads (.operators left power) p (readOperators p left power).val := by
  rw [readOperators_val]
  split
  · rename_i hhigh
    have hright := reads_readExpr p p.current.kind.power
    have hlt := (readExpr p p.current.kind.power).property.2
    rcases hr : (readExpr p p.current.kind.power).val with ⟨e | right, q⟩ <;> rw [hr] at hright hlt
    · exact .badRight hhigh hright
    · have hq : q.tokensLeft < p.tokensLeft := hlt rfl
      exact .operator hhigh hright (reads_readOperators q (.binary left p.current right) power)
  · rename_i hlow
    exact .done (Nat.not_lt.mp hlow)
termination_by (p.tokensLeft, 2)

end

/-- Every part is read by the rules. -/
theorem Part.reads_read (part : Part) (p : Parser σ) : Reads part p (part.read p) := by
  cases part with
  | operand => exact reads_readOperand p
  | expr power => exact reads_readExpr p power
  | operators left power => exact reads_readOperators p left power

/-- **The rules leave no choice**: what is read by them is what the readers read. -/
theorem read_eq_of_reads {part : Part} {p : Parser σ} {r : Except InputError Expr × Parser σ}
    (h : Reads part p r) : part.read p = r := by
  induction h with
  | noToken first => simp only [Part.read, readOperand_val, first, andThen]
  | badNumber first operand => simp only [Part.read, readOperand_val, first, andThen, operand]
  | literalThenNoToken first operand next | literal first operand next =>
    simp only [Part.read, readOperand_val, first, andThen, operand, next]
  | unexpected first operand kind =>
    simp only [Part.read, readOperand_val, first, andThen, operand, if_neg kind]
  | badGroup first kind _ ih =>
    rw [Part.read] at ih
    simp only [Part.read, readOperand_val, first, andThen, Token.operand?_of_leftParen kind,
      if_pos kind, ih]
  | unclosed first kind _ last ih =>
    rw [Part.read] at ih
    simp only [Part.read, readOperand_val, first, andThen, Token.operand?_of_leftParen kind,
      if_pos kind, ih, if_neg last]
  | groupThenNoToken first kind _ last next ih | group first kind _ last next ih =>
    rw [Part.read] at ih
    simp only [Part.read, readOperand_val, first, andThen, Token.operand?_of_leftParen kind,
      if_pos kind, ih, if_pos last, next]
  | badOperand _ ih =>
    rw [Part.read] at ih
    simp only [Part.read, readExpr_val, ih, andThen]
  | expr _ _ ih ih' =>
    simp only [Part.read] at ih ih'
    simp only [Part.read, readExpr_val, ih, andThen, ih']
  | done low => exact readOperators_of_power_le low _
  | badRight high _ ih =>
    rw [Part.read] at ih
    simp only [Part.read, readOperators_val, if_pos high, ih, andThen]
  | operator high _ _ ih ih' =>
    simp only [Part.read] at ih ih' ⊢
    rw [readOperators_val, if_pos high, ih]
    exact ih'

/-- An equation is an expression with the end behind it. -/
theorem equation_eq_andThen (p : Parser σ) :
    p.equation = andThen (Part.read (.expr 0) p) fun tree q =>
      match q.current.kind with
      | .eof => (.ok tree, q)
      | .rightParen => (.error (.unopened q.current), q)
      | _ => (.error (.leftover q.current), q) := by
  rw [equation, Part.read]
  rcases (readExpr p 0).val with ⟨e | tree, q⟩ <;> rfl

end Parser

end Reckon
