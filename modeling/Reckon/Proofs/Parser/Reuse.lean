import Reckon.Proofs.Parser.Places
import Reckon.Proofs.Parser.Reset
import Reckon.Proofs.Transcript

/-!
# Asking a parser again and again

A parser that is asked for an equation once more, without a reset, goes on in the middle of the
text: the `3` of `5x+3` is read as a tree by the third call, after two that have failed.
`Parser.equations_after_reset` says how far this goes. At most one of the calls gives a tree, the
calls after it find the end, and after as many calls as the text has bytes there is one and the same
problem for ever.

A lexer has a last answer, the end token or a failure (`Lexer.IsLast`), which it gives for ever
(`Lexer.Within.next_later_of_isLast`). Before that every answer takes at least one byte
(`Lexer.Within.isLast_or_remaining_le`), and every call asks for at least one token
(`Parser.exists_later_again`).
-/

namespace Reckon

namespace Lexer

variable {l after : Lexer} {s : Text} {t : Token} {e : LexError}

/-- The last answer of a lexer: the end, or a failure. -/
def IsLast : Except LexError Token → Prop
  | .error _ => True
  | .ok t => t.kind = .eof

/-- The token at the end of a text. -/
def endToken (s : Text) : Token := ⟨.eof, [], s.length⟩

/-! ### Where a lexer is -/

/-- A lexer stands between two tokens of a text, unless it has failed. -/
def Within (s : Text) (l : Lexer) : Prop :=
  l.failure = none → ∃ scan, Agrees l scan ∧ scan.StandsIn s

theorem within_ofText (skipBlanks : Bool) (s : Text) : Within s (ofText skipBlanks s) :=
  fun _ => ⟨_, agrees_ofText skipBlanks s, Scan.standsIn_ofText skipBlanks s⟩

/-- A lexer that hands out a token has not failed before. -/
theorem failure_of_next (h : l.next = (.ok t, after)) : l.failure = none := by
  rw [next] at h
  split at h
  · cases h
  · assumption

namespace Within

theorem next (h : Within s l) : Within s l.next.2 := by
  intro hfailure
  rcases hn : l.next with ⟨e | t, after⟩
  · rw [hn, failure_of_next_error hn] at hfailure
    contradiction
  · obtain ⟨scan, hagrees, hstands⟩ := h (failure_of_next hn)
    obtain ⟨scan', hscan, hafter⟩ := hagrees.next_ok hn
    exact ⟨scan', hafter, (hstands.next hscan).2⟩

theorem later (h : Within s l) (k : Nat) : Within s (l.later k) := by
  induction k with
  | zero => exact h
  | succ k ih => exact ih.next

/-- The end token stands at the end, and behind it there is nothing. -/
theorem eof (h : Within s l) (hn : l.next = (.ok t, after)) (hk : t.kind = .eof) :
    t = endToken s ∧ after.next.1 = .ok (endToken s) := by
  obtain ⟨scan, hagrees, before, rest, hcut, hpos, hrunes⟩ := h (failure_of_next hn)
  obtain ⟨scan', hscan, hafter⟩ := hagrees.next_ok hn
  obtain ⟨gap, last, rfl, hfits, hplace, rfl, ⟨-, htext, rfl⟩ | ⟨-, hk', -⟩⟩ :=
    Scan.next_eq_ok_cases hrunes hscan
  · have hlength : t.pos = s.length := by
      rw [← hcut.append_eq, hplace, hpos, htext, List.append_nil, List.append_nil,
        List.length_append]
    have hend : t = endToken s := by rw [endToken, ← hk, ← htext, ← hlength]
    obtain ⟨last, hnext⟩ := hafter.exists_next_of_nil Text.runes_nil
    rw [hnext, hend]
    exact ⟨rfl, rfl⟩
  · exact absurd hk hk'

/-- **The last answer is given again.** -/
theorem next_of_isLast (h : Within s l) (hlast : IsLast l.next.1) :
    l.next.2.next.1 = l.next.1 := by
  rcases hn : l.next with ⟨e | t, after⟩ <;> rw [hn] at hlast
  · exact congrArg Prod.fst (next_of_next_error hn)
  · obtain ⟨rfl, hnext⟩ := h.eof hn hlast
    exact hnext

/-- **The last answer is given for ever.** -/
theorem next_later_of_isLast (h : Within s l) (hlast : IsLast l.next.1) (k : Nat) :
    (l.later k).next.1 = l.next.1 := by
  induction k with
  | zero => rfl
  | succ k ih =>
    rw [Lexer.later, (h.later k).next_of_isLast (ih ▸ hlast), ih]

/-- Before the last answer, every answer takes at least one byte. -/
theorem isLast_or_remaining_le (h : Within s l) (k : Nat) :
    IsLast (l.later k).next.1 ∨ (l.later (k + 1)).remaining + (k + 1) ≤ l.remaining := by
  have hless : ∀ l : Lexer, IsLast l.next.1 ∨ l.next.2.remaining < l.remaining := by
    intro l
    rcases hn : l.next.1 with e | t
    · exact .inl trivial
    · by_cases hk : t.kind = .eof
      · exact .inl hk
      · exact .inr (remaining_next_lt hn hk)
  induction k with
  | zero => exact hless l
  | succ k ih =>
    rcases ih with hlast | hle
    · refine .inl ?_
      rwa [Lexer.later, (h.later k).next_of_isLast hlast]
    · rcases hless (l.later (k + 1)) with hlast | hlt
      · exact .inl hlast
      · refine .inr ?_
        rw [Lexer.later]
        omega

/-- After as many answers as there are bytes, all are the last one. -/
theorem isLast_of_le (h : Within s l) {k : Nat} (hk : l.remaining ≤ k) :
    IsLast (l.later k).next.1 := by
  rcases h.isLast_or_remaining_le k with hlast | hle
  · exact hlast
  · omega

/-- Whether the tokens are cut short by a failure is not changed by taking one of them. -/
theorem failure_next (h : Within s l) : l.next.2.drain.2 = l.drain.2 := by
  rcases hn : l.next with ⟨e | t, after⟩
  · rw [drain_of_next_error hn, drain_of_next_error (next_of_next_error hn)]
  · rw [drain_of_next hn]
    split
    · rename_i hk
      obtain ⟨-, hnext⟩ := h.eof hn hk
      have hagain : after.next = (.ok (endToken s), after.next.2) := Prod.ext hnext rfl
      rw [drain_of_next hagain]
      rfl
    · rfl

theorem failure_later (h : Within s l) (k : Nat) : (l.later k).drain.2 = l.drain.2 := by
  induction k with
  | zero => rfl
  | succ k ih => rw [Lexer.later, (h.later k).failure_next, ih]

theorem yields (h : Within s l) {tokens : List Token} (hyields : l.Yields tokens after) :
    Within s after := by
  induction hyields with
  | nil => exact h
  | cons first _ ih =>
    have hnext := h.next
    rw [first] at hnext
    exact ih hnext

end Within

end Lexer

namespace Parser

open Lexer

variable {p : Parser} {s : Text}

/-- The parser after it has been asked for some equations. -/
def again (p : Parser) : Nat → Parser
  | 0 => p
  | k + 1 => (p.again k).equation.2

theorem again_again (p : Parser) (j k : Nat) : (p.again j).again k = p.again (j + k) := by
  induction k with
  | zero => rfl
  | succ k ih => rw [again, ih, ← Nat.add_assoc, again]

/-- Every call asks the lexer for at least one token. -/
theorem exists_later_again (p : Parser) (k : Nat) :
    ∃ n, k ≤ n ∧ (p.again k).lexer = p.lexer.later n := by
  induction k with
  | zero => exact ⟨0, Nat.le_refl 0, rfl⟩
  | succ k ih =>
    obtain ⟨n, hn, hlexer⟩ := ih
    obtain ⟨m, hm, hlexer'⟩ := (p.again k).exists_later_equation
    refine ⟨n + m, by omega, ?_⟩
    rw [again, hlexer', hlexer, later_later]

/-- The parser stays within the text. -/
theorem within_again (h : Within s p.lexer) (k : Nat) : Within s (p.again k).lexer := by
  obtain ⟨n, -, hlexer⟩ := p.exists_later_again k
  rw [hlexer]
  exact h.later n

/-- Where the lexer fails, no equation starts. -/
theorem equation_of_next_error {e : LexError} (h : p.lexer.next.1 = .error e) :
    p.equation.1 = .error (.lexical e) := by
  have hnext : p.lexer.next = (.error e, p.lexer.next.2) := Prod.ext h rfl
  rw [equation, readExpr_val, readOperand_val, advance_of_next_error hnext]
  rfl

/-- At the end, no equation starts. -/
theorem equation_of_next_eof {t : Token} (h : p.lexer.next.1 = .ok t) (hk : t.kind = .eof) :
    p.equation.1 = .error (.operandExpected t) := by
  have hnext : p.lexer.next = (.ok t, p.lexer.next.2) := Prod.ext h rfl
  have hoperand : t.operand? = none := by rw [Token.operand?, hk]
  have hparen : ¬ t.kind = .leftParen := by simp [hk]
  rw [equation, readExpr_val, readOperand_val, advance_of_next hnext]
  simp only [andThen, hoperand, if_neg hparen]

/-- The problem that a text ends with, given the failure to cut it into tokens, if there is one:
this, or else that the text has ended where an equation should start. -/
def lastProblem (s : Text) : Option LexError → InputError
  | some e => .lexical e
  | none => .operandExpected (endToken s)

/-- **After the last answer of the lexer there is no equation.** -/
theorem equation_of_isLast (hwithin : Within s p.lexer) (h : IsLast p.lexer.next.1) :
    p.equation.1 = .error (lastProblem s p.lexer.drain.2) := by
  rcases hn : p.lexer.next with ⟨e | t, l⟩ <;> rw [hn] at h
  · rw [equation_of_next_error (congrArg Prod.fst hn), drain_of_next_error hn]
    rfl
  · have hk : t.kind = .eof := h
    rw [equation_of_next_eof (congrArg Prod.fst hn) hk, drain_of_next hn, if_pos hk,
      (hwithin.eof hn hk).1]
    rfl

/-- After a tree there is the end. -/
theorem next_of_equation_eq_ok (hwithin : Within s p.lexer) {tree : Expr}
    (h : p.equation.1 = .ok tree) : p.equation.2.lexer.next.1 = .ok (endToken s) := by
  obtain ⟨q, hread, heof⟩ := (p.equation_eq_ok_iff tree).mp h
  obtain ⟨⟨tokens, hyields, -, -⟩, -⟩ := derived_of_reads (reads_readExpr p 0) hread
  obtain ⟨l, htokens, hlast⟩ := yields_append_iff.mp hyields
  obtain ⟨l', hnext, hnil⟩ := yields_cons_iff.mp hlast
  cases hnil
  have hparser : p.equation.2 = q := by
    rw [equation, hread]
    dsimp only
    rw [heof]
  rw [hparser]
  exact ((hwithin.yields htokens).eof hnext heof).2

/-- After a tree, all calls find the end. -/
theorem equation_again_of_eq_ok (hwithin : Within s p.lexer) {i j : Nat} {tree : Expr}
    (h : (p.again i).equation.1 = .ok tree) (hij : i < j) :
    (p.again j).equation.1 = .error (.operandExpected (endToken s)) := by
  have hnext := next_of_equation_eq_ok (within_again hwithin i) h
  -- the calls go on from the parser that has read the tree
  obtain ⟨k, rfl⟩ : ∃ k, j = i + 1 + k := ⟨j - (i + 1), by omega⟩
  rw [← again_again]
  obtain ⟨n, -, hlexer⟩ := (p.again (i + 1)).exists_later_again k
  refine equation_of_next_eof ?_ rfl
  rw [hlexer, (within_again hwithin (i + 1)).next_later_of_isLast, again, hnext]
  rw [again, hnext]
  rfl

/-- After as many calls as there are bytes, all fail with the problem that the text ends with. -/
theorem equation_again_of_le (hwithin : Within s p.lexer) {j : Nat}
    (hj : p.lexer.remaining ≤ j) :
    (p.again j).equation.1 = .error (lastProblem s p.lexer.drain.2) := by
  obtain ⟨n, hn, hlexer⟩ := p.exists_later_again j
  have hlast : IsLast (p.again j).lexer.next.1 := by
    rw [hlexer]
    exact hwithin.isLast_of_le (Nat.le_trans hj hn)
  rw [equation_of_isLast (within_again hwithin j) hlast, hlexer, hwithin.failure_later]

end Parser

/-- What a parser can be asked to do. -/
inductive ParserCall where
  | equation
  | reset (equation : Text)

/-- Does what is asked: a tree or a problem comes of an equation, and nothing of a reset. -/
def Parser.act (p : Parser) : ParserCall → Option (Except InputError Expr) × Parser
  | .equation => (some p.equation.1, p.equation.2)
  | .reset equation => (none, p.reset equation)

/-- No call changes whether blanks are skipped. -/
theorem Parser.skipBlanks_stateAfter (p : Parser) (history : List ParserCall) :
    (stateAfter Parser.act p history).lexer.skipBlanks = p.lexer.skipBlanks := by
  refine stateAfter_induction (P := fun q : Parser => q.lexer.skipBlanks = p.lexer.skipBlanks)
    (fun q call hq => ?_) rfl history
  cases call with
  | equation => exact q.skipBlanks_equation.trans hq
  | reset equation => exact hq

/-- **A parser that is used again.** Whatever a parser was asked before, after a reset to a text:

* the first equation is what is read from the text by a new parser with the same options;
* at most one of the calls from there on, without a reset, gives a tree;
* after a tree, all calls fail because the text has ended;
* after as many calls as the text has bytes, all fail with one and the same problem: the failure of
  the lexer, or else that the text has ended. -/
theorem Parser.equations_after_reset (p : Parser) (history : List ParserCall) (s : Text) :
    let q := (stateAfter Parser.act p history).reset s
    let result (k : Nat) := (q.again k).equation.1
    result 0 = parse p.lexer.skipBlanks s ∧
      (∀ i j tree tree', result i = .ok tree → result j = .ok tree' → i = j) ∧
      (∀ i j tree, result i = .ok tree → i < j →
        result j = .error (.operandExpected (Lexer.endToken s))) ∧
      ∀ j, s.length ≤ j →
        result j = .error (lastProblem s (Lexer.tokenize p.lexer.skipBlanks s).2) := by
  intro q result
  have hlexer : q.lexer = Lexer.ofText p.lexer.skipBlanks s :=
    congrArg (Lexer.ofText · s) (p.skipBlanks_stateAfter history)
  have hwithin : Lexer.Within s q.lexer := Lexer.within_ofText _ s
  have hafter : ∀ i j tree, result i = .ok tree → i < j →
      result j = .error (.operandExpected (Lexer.endToken s)) := by
    intro i j tree hi hij
    exact equation_again_of_eq_ok hwithin hi hij
  refine ⟨?_, ?_, hafter, ?_⟩
  · exact (equation_reset _ s).trans (congrArg (parse · s) (p.skipBlanks_stateAfter history))
  · intro i j tree tree' hi hj
    rcases Nat.lt_trichotomy i j with hij | rfl | hji
    · rw [hafter i j tree hi hij] at hj
      contradiction
    · rfl
    · rw [hafter j i tree' hj hji] at hi
      contradiction
  · intro j hj
    have hremaining : q.lexer.remaining = s.length := rfl
    rw [Lexer.tokenize, ← hlexer]
    exact equation_again_of_le hwithin (hremaining ▸ hj)

end Reckon
