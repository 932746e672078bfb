import Reckon.Proofs.Parser.Reading

/-!
# A parser that is pointed at another equation

A parser is pointed at one equation after another. Wherever the last one ended, in a tree or in any
of the problems, the only thing that the parser carries over is whether blanks are skipped: no
reading changes that (`skipBlanks_equation`), and a reset forgets the rest.

All that a reading does to the lexer is to ask it for tokens, one after another. `Lexer.later` is
the lexer after some of them, and `later_of_reads` says so of every reading.
-/

namespace Reckon

namespace Lexer

/-! ### One token -/

theorem skipBlanks_readEquals (l : Lexer) (c : Cursor) :
    (l.readEquals c).2.skipBlanks = l.skipBlanks := by
  rw [readEquals]
  split
  · rfl
  · dsimp only
    split <;> rfl

theorem skipBlanks_readNumber (l : Lexer) (c : Cursor) :
    (l.readNumber c).2.skipBlanks = l.skipBlanks := by
  rw [readNumber]
  split
  · rfl
  · split <;> rfl

theorem skipBlanks_readToken (l : Lexer) : l.readToken.2.skipBlanks = l.skipBlanks := by
  rw [readToken]
  split
  · rfl
  · split
    · exact skipBlanks_readEquals l _
    · split
      · exact skipBlanks_readNumber l _
      · split
        · rfl
        · split <;> rfl

theorem skipBlanks_skip (l : Lexer) : l.skip.skipBlanks = l.skipBlanks := by
  rw [skip]
  split <;> rfl

/-- Handing out a token or failing leaves it at that whether blanks are skipped. -/
theorem skipBlanks_next (l : Lexer) : l.next.2.skipBlanks = l.skipBlanks := by
  rw [next]
  split
  · rfl
  · exact (skipBlanks_readToken l.skip).trans (skipBlanks_skip l)

/-- The lexer after it has been asked for some tokens. -/
def later (l : Lexer) : Nat → Lexer
  | 0 => l
  | k + 1 => (l.later k).next.2

theorem later_later (l : Lexer) (j k : Nat) : (l.later j).later k = l.later (j + k) := by
  induction k with
  | zero => rfl
  | succ k ih => rw [later, ih, ← Nat.add_assoc, later]

theorem skipBlanks_later (l : Lexer) (k : Nat) : (l.later k).skipBlanks = l.skipBlanks := by
  induction k with
  | zero => rfl
  | succ k ih => rw [later, skipBlanks_next, ih]

end Lexer

namespace Parser

/-! ### A whole equation -/

theorem lexer_of_advance {p q : Parser} {r : Except InputError Token} (h : p.advance = (r, q)) :
    q.lexer = p.lexer.later 1 := by
  rcases r with e | t
  · obtain ⟨e', he, -⟩ := advance_eq_error h
    rw [Lexer.later, Lexer.later, he]
  · rw [Lexer.later, Lexer.later, (advance_eq_ok h).1]

/-- How many tokens are asked for at least while a part is read. -/
def Part.least : Part → Nat
  | operand | expr _ => 1
  | operators .. => 0

/-- **However a part is read, the lexer is asked for tokens one after another**, and for one at
least, unless operators may follow. -/
theorem later_of_reads {part : Part} {p : Parser} {r : Except InputError Expr × Parser}
    (h : Reads part p r) : ∃ k, part.least ≤ k ∧ r.2.lexer = p.lexer.later k := by
  induction h with
  | noToken first | badNumber first | unexpected first =>
    exact ⟨1, Nat.le_refl 1, lexer_of_advance first⟩
  | literalThenNoToken first _ next | literal first _ next =>
    refine ⟨1 + 1, Nat.le_add_left 1 1, ?_⟩
    rw [← Lexer.later_later, ← lexer_of_advance first, ← lexer_of_advance next]
  | badGroup first _ _ ih | unclosed first _ _ _ ih =>
    obtain ⟨k, -, hk⟩ := ih
    refine ⟨1 + k, Nat.le_add_right 1 k, ?_⟩
    rw [← Lexer.later_later, ← lexer_of_advance first, hk]
  | groupThenNoToken first _ _ _ next ih | group first _ _ _ next ih =>
    obtain ⟨k, -, hk⟩ := ih
    refine ⟨1 + k + 1, Nat.le_add_left 1 _, ?_⟩
    rw [← Lexer.later_later, ← Lexer.later_later, ← lexer_of_advance first, ← hk,
      ← lexer_of_advance next]
  | badOperand _ ih => exact ih
  | expr _ _ ih ih' =>
    obtain ⟨j, hj, hleft⟩ := ih
    obtain ⟨k, -, hrest⟩ := ih'
    refine ⟨j + k, Nat.le_trans hj (Nat.le_add_right j k), ?_⟩
    rw [← Lexer.later_later, ← hleft, hrest]
  | done => exact ⟨0, Nat.le_refl 0, rfl⟩
  | badRight _ _ ih =>
    obtain ⟨k, -, hk⟩ := ih
    exact ⟨k, Nat.zero_le k, hk⟩
  | operator _ _ _ ih ih' =>
    obtain ⟨j, -, hright⟩ := ih
    obtain ⟨k, -, hrest⟩ := ih'
    refine ⟨j + k, Nat.zero_le _, ?_⟩
    rw [← Lexer.later_later, ← hright, hrest]

/-- Reading an equation asks the lexer for at least one token. -/
theorem exists_later_equation (p : Parser) :
    ∃ k, 1 ≤ k ∧ p.equation.2.lexer = p.lexer.later k := by
  obtain ⟨k, hk, hlexer⟩ := later_of_reads (reads_readExpr p 0)
  refine ⟨k, hk, ?_⟩
  rw [equation]
  rcases hr : (readExpr p 0).val with ⟨e | tree, q⟩ <;> rw [hr] at hlexer
  · exact hlexer
  · dsimp only
    split <;> exact hlexer

/-- **An equation leaves no trace in the parser's options**, read or not. -/
theorem skipBlanks_equation (p : Parser) :
    p.equation.2.lexer.skipBlanks = p.lexer.skipBlanks := by
  obtain ⟨k, -, hlexer⟩ := p.exists_later_equation
  rw [hlexer, Lexer.skipBlanks_later]

/-- After a reset an equation is read as by a new parser. -/
theorem equation_reset (p : Parser) (equation : Text) :
    (p.reset equation).equation.1 = parse p.lexer.skipBlanks equation := rfl

end Parser

end Reckon
