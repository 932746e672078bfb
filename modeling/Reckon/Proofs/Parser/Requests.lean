import Reckon.Proofs.Parser.Reuse

/-!
# A parser asks for every token once

A parser takes its tokens from any source. A `Recorder` is a lexer that keeps a record of all
answers it gives, and as a source of tokens it does nothing else than the lexer
(`Parser.equation_plain`): what is found in the record are the answers that the parser has asked
for.

`Parser.asks_for_every_token_once` says that no token is asked for after the end or a failure. It
goes by an invariant of the parser and its record (`Parser.InStep`): the record holds the tokens
from the start of the equation, and the current token is the end if and only if the end is among
them. Taking a token keeps it, unless the end has been taken (`Parser.InStep.advance`), and no
reader goes on after the end (`Parser.keeps_of_reads`).
-/

namespace Reckon

/-! ### A lexer with a record -/

/-- A lexer, with all answers that it has given. -/
structure Recorder where
  lexer : Lexer
  answers : List (Except LexError Token)

namespace Recorder

open Lexer

/-- Asks the lexer for a token, and records the answer. -/
def next (r : Recorder) : Except LexError Token × Recorder :=
  (r.lexer.next.1, ⟨r.lexer.next.2, r.answers ++ [r.lexer.next.1]⟩)

instance : TokenSource Recorder where
  next := next
  tokensLeft r := r.lexer.tokensLeft
  tokensLeft_next_le r := r.lexer.tokensLeft_next_le
  tokensLeft_next_lt r := TokenSource.tokensLeft_next_lt r.lexer

/-- The record holds all answers of the lexer `l`, and all of them are tokens other than the
end. -/
def HasWords (l : Lexer) (r : Recorder) : Prop :=
  ∃ words, l.Yields words r.lexer ∧ (∀ t ∈ words, t.kind ≠ .eof) ∧ r.answers = words.map .ok

/-- The record holds all answers of the lexer `l` up to the last one, which is the given one. -/
def HasLast (l : Lexer) (answer : Except LexError Token) (r : Recorder) : Prop :=
  IsLast answer ∧ ∃ before : Recorder, before.HasWords l ∧ before.next = (answer, r)

/-- The record holds answers of the lexer `l`, and none after the last one. -/
def Sound (l : Lexer) (r : Recorder) : Prop :=
  r.HasWords l ∨ ∃ answer, r.HasLast l answer

variable {l : Lexer} {r r' : Recorder} {answer : Except LexError Token} {t : Token}

/-- The answer is the lexer's, and comes last in the record. -/
theorem next_eq (h : r.next = (answer, r')) :
    r.lexer.next = (answer, r'.lexer) ∧ r'.answers = r.answers ++ [answer] := by
  cases h
  exact ⟨rfl, rfl⟩

/-- One more token is recorded. -/
theorem HasWords.next (h : r.HasWords l) (hn : r.next = (.ok t, r')) (hk : t.kind ≠ .eof) :
    r'.HasWords l := by
  obtain ⟨words, hyields, hwords, hanswers⟩ := h
  obtain ⟨hnext, hanswers'⟩ := next_eq hn
  refine ⟨words ++ [t], hyields.snoc hnext, ?_, ?_⟩
  · exact List.forall_mem_append.mpr ⟨hwords, List.forall_mem_singleton.mpr hk⟩
  · rw [hanswers', hanswers, List.map_append, List.map_singleton]

/-- The tokens in the record and those to come are all tokens. -/
theorem HasWords.length_add (h : r.HasWords l) :
    r.answers.length + r.lexer.tokensLeft = l.tokensLeft := by
  obtain ⟨words, hyields, hwords, hanswers⟩ := h
  have hcount : words.countP (fun t => t.kind ≠ .eof) = words.length :=
    List.countP_eq_length.mpr fun t ht => by simpa using hwords t ht
  rw [hanswers, List.length_map, ← hcount, tokensLeft, tokensLeft, hyields.drain_append hwords,
    List.countP_append]

theorem HasWords.not_isLast (h : r.HasWords l) : ∀ a ∈ r.answers, ¬ IsLast a := by
  obtain ⟨words, -, hwords, hanswers⟩ := h
  rw [hanswers]
  exact List.forall_mem_map.mpr hwords

/-- If the last answer is the end, the record holds all tokens. -/
theorem HasLast.answers_eq (h : r.HasLast l (.ok t)) : r.answers = l.drain.1.map .ok := by
  obtain ⟨hk, before, ⟨words, hyields, hwords, hanswers⟩, hn⟩ := h
  obtain ⟨hnext, hanswers'⟩ := next_eq hn
  have heof : t.kind = .eof := hk
  rw [hyields.drain_append hwords, drain_of_next hnext, if_pos heof, hanswers', hanswers,
    List.map_append, List.map_singleton]

/-- The end and a failure come last in the record. -/
theorem Sound.pairwise (h : r.Sound l) :
    r.answers.Pairwise fun earlier _ => ¬ IsLast earlier := by
  have hwords : ∀ before : Recorder, before.HasWords l →
      before.answers.Pairwise fun earlier _ => ¬ IsLast earlier := by
    intro before h
    exact List.pairwise_of_forall_mem_list fun a ha _ _ => h.not_isLast a ha
  rcases h with h | ⟨answer, -, before, h, hn⟩
  · exact hwords r h
  · rw [(next_eq hn).2, List.pairwise_append]
    exact ⟨hwords before h, List.pairwise_singleton _ _, fun a ha _ _ => h.not_isLast a ha⟩

/-- There is at most one answer for every token, and one more. -/
theorem Sound.length_le (h : r.Sound l) : r.answers.length ≤ l.tokensLeft + 1 := by
  rcases h with h | ⟨answer, -, before, h, hn⟩
  · have hlength := h.length_add
    omega
  · have hlength := h.length_add
    rw [(next_eq hn).2, List.length_append, List.length_singleton]
    omega

end Recorder

namespace Parser

/-- The same parser, with a new record. -/
def recorded (p : Parser) : Parser Recorder := ⟨⟨p.lexer, []⟩, p.current⟩

/-- The same parser, without its record. -/
def plain (p : Parser Recorder) : Parser := ⟨p.lexer.lexer, p.current⟩

variable {l : Lexer} {p q : Parser Recorder}

/-! ### The record changes nothing -/

theorem advance_plain {r : Except InputError Token} (h : p.advance = (r, q)) :
    p.plain.advance = (r, q.plain) := by
  have hnext : TokenSource.next p.lexer = p.lexer.next := rfl
  rw [advance, hnext, Recorder.next] at h
  rcases hn : p.lexer.lexer.next with ⟨e | t, l⟩ <;> rw [hn] at h <;> cases h
  · exact advance_of_next_error hn
  · exact advance_of_next hn

/-- A part that is read with a record is read without it. -/
theorem Reads.plain {part : Part} {r : Except InputError Expr × Parser Recorder}
    (h : Reads part p r) : Reads part p.plain (r.1, r.2.plain) := by
  induction h with
  | noToken first => exact .noToken (advance_plain first)
  | badNumber first operand => exact .badNumber (advance_plain first) operand
  | literalThenNoToken first operand next =>
    exact .literalThenNoToken (advance_plain first) operand (advance_plain next)
  | literal first operand next =>
    exact .literal (advance_plain first) operand (advance_plain next)
  | unexpected first operand kind => exact .unexpected (advance_plain first) operand kind
  | badGroup first kind _ ih => exact .badGroup (advance_plain first) kind ih
  | unclosed first kind _ last ih => exact .unclosed (advance_plain first) kind ih last
  | groupThenNoToken first kind _ last next ih =>
    exact .groupThenNoToken (advance_plain first) kind ih last (advance_plain next)
  | group first kind _ last next ih =>
    exact .group (advance_plain first) kind ih last (advance_plain next)
  | badOperand _ ih => exact .badOperand ih
  | expr _ _ ih ih' => exact .expr ih ih'
  | done low => exact .done low
  | badRight high _ ih => exact .badRight high ih
  | operator high _ _ ih ih' => exact .operator high ih ih'

/-- **An equation is read with a record as without it.** -/
theorem equation_plain (p : Parser Recorder) :
    p.plain.equation = (p.equation.1, p.equation.2.plain) := by
  have hread := read_eq_of_reads (Part.reads_read (.expr 0) p).plain
  rw [equation_eq_andThen, equation_eq_andThen, hread]
  rcases Part.read (.expr 0) p with ⟨e | tree, q⟩
  · rfl
  · dsimp only [andThen, Parser.plain]
    split <;> rfl

/-! ### What is in the record -/

/-- The record holds the tokens from the lexer `l` on, and the end only if it is the current
token. -/
def InStep (l : Lexer) (p : Parser Recorder) : Prop :=
  if p.current.kind = .eof then p.lexer.HasLast l (.ok p.current) else p.lexer.HasWords l

/-- After a reading the record holds no answers that come after the last one, and if something was
read, the parser is in step with it. -/
def Keeps (l : Lexer) {α : Type} : Except InputError α × Parser Recorder → Prop
  | (.error _, q) => q.lexer.Sound l
  | (.ok _, q) => q.InStep l

theorem InStep.sound (h : p.InStep l) : p.lexer.Sound l := by
  unfold InStep at h
  split at h
  · exact .inr ⟨_, h⟩
  · exact .inl h

theorem Keeps.sound {α : Type} {r : Except InputError α × Parser Recorder} (h : Keeps l r) :
    r.2.lexer.Sound l := by
  rcases r with ⟨e | a, q⟩
  · exact h
  · exact InStep.sound h

/-- **Taking a token keeps in step**, unless the end has been taken. -/
theorem InStep.advance {r : Except InputError Token} (h : p.InStep l) (hp : p.current.kind ≠ .eof)
    (hr : p.advance = (r, q)) : Keeps l (r, q) := by
  rw [InStep, if_neg hp] at h
  have hnext : TokenSource.next p.lexer = p.lexer.next := rfl
  rw [Parser.advance, hnext] at hr
  rcases hn : p.lexer.next with ⟨e | t, after⟩ <;> rw [hn] at hr <;> cases hr
  · exact .inr ⟨.error e, trivial, p.lexer, h, hn⟩
  · dsimp only [Keeps, InStep]
    split
    · rename_i hk
      exact ⟨hk, p.lexer, h, hn⟩
    · rename_i hk
      exact h.next hn hk

/-- **A reading keeps in step.** Whatever part is read, no token is asked for after the end or a
failure, if the current token is not the end where a token is asked for at once. -/
theorem keeps_of_reads {part : Part} {r : Except InputError Expr × Parser Recorder}
    (h : Reads part p r) (hp : p.InStep l) (hcurrent : 0 < part.least → p.current.kind ≠ .eof) :
    Keeps l r := by
  -- a token that is an operand, a bracket or an operator is not the end, so one may ask for more
  induction h with
  | noToken first => exact hp.advance (hcurrent Nat.one_pos) first
  | badNumber first | unexpected first =>
    exact InStep.sound (hp.advance (hcurrent Nat.one_pos) first)
  | literalThenNoToken first operand next | literal first operand next =>
    have hfirst := hp.advance (hcurrent Nat.one_pos) first
    have hkind := kind_ne_eof_of_operand? operand
    rw [← current_of_advance first] at hkind
    exact InStep.advance hfirst hkind next
  | badGroup first kind _ ih =>
    have hfirst := hp.advance (hcurrent Nat.one_pos) first
    exact ih hfirst fun _ => by simp [current_of_advance first, kind]
  | unclosed first kind _ _ ih =>
    have hfirst := hp.advance (hcurrent Nat.one_pos) first
    exact InStep.sound (ih hfirst fun _ => by simp [current_of_advance first, kind])
  | groupThenNoToken first kind _ last next ih | group first kind _ last next ih =>
    have hfirst := hp.advance (hcurrent Nat.one_pos) first
    have hinner := ih hfirst fun _ => by simp [current_of_advance first, kind]
    exact InStep.advance hinner (by simp [last]) next
  | badOperand _ ih => exact ih hp fun _ => hcurrent Nat.one_pos
  | expr _ _ ih ih' =>
    exact ih' (ih hp fun _ => hcurrent Nat.one_pos) fun h => absurd h (Nat.lt_irrefl 0)
  | done => exact hp
  | badRight high _ ih => exact ih hp fun _ => TokenKind.ne_eof_of_lt_power high
  | operator high _ _ ih ih' =>
    exact ih' (ih hp fun _ => TokenKind.ne_eof_of_lt_power high) fun h =>
      absurd h (Nat.lt_irrefl 0)

/-- **Reading an equation keeps in step.** -/
theorem keeps_equation (hp : p.InStep l) (hcurrent : p.current.kind ≠ .eof) :
    Keeps l p.equation := by
  have hkeeps := keeps_of_reads (Part.reads_read (.expr 0) p) hp fun _ => hcurrent
  rw [equation_eq_andThen]
  rcases hr : Part.read (.expr 0) p with ⟨e | tree, q⟩ <;> rw [hr] at hkeeps
  · exact hkeeps
  · dsimp only [andThen]
    split
    · exact hkeeps
    · exact InStep.sound hkeeps
    · exact InStep.sound hkeeps

/-- Where an equation has been read, the end is the current token. -/
theorem current_of_equation_eq_ok {tree : Expr} (h : p.equation = (.ok tree, q)) :
    q.current.kind = .eof := by
  rw [equation_eq_andThen] at h
  rcases hr : Part.read (.expr 0) p with ⟨e | tree', q'⟩ <;> rw [hr, andThen] at h
  · cases h
  · split at h <;> cases h
    assumption

/-- Where an equation has been read, the record holds all tokens. -/
theorem answers_of_equation_eq_ok {tree : Expr} (h : p.equation = (.ok tree, q))
    (hkeeps : Keeps l p.equation) : q.lexer.answers = l.drain.1.map .ok := by
  rw [h] at hkeeps
  have hlast : q.InStep l := hkeeps
  rw [InStep, if_pos (current_of_equation_eq_ok h)] at hlast
  exact hlast.answers_eq

/-! ### The tokens to come -/

/-- Reading a part leaves no more tokens to come, and fewer if at least one token was asked for and
something was read. -/
theorem tokensLeft_read {σ : Type} [TokenSource σ] (part : Part) (p : Parser σ) :
    (part.read p).2.tokensLeft ≤ p.tokensLeft ∧
      (0 < part.least → (part.read p).1.isOk = true →
        (part.read p).2.tokensLeft < p.tokensLeft) := by
  cases part with
  | operand =>
    have h := (readOperand p).property
    exact ⟨h.1, fun _ => h.2⟩
  | expr power =>
    have h := (readExpr p power).property
    exact ⟨h.1, fun _ => h.2⟩
  | operators left power =>
    exact ⟨(readOperators p left power).property, fun h => absurd h (Nat.lt_irrefl 0)⟩

/-- **A parser asks for every token once, and for none after the end.** After a reset, the parser
reads an equation from the lexer with a record, which gives what it reads without the record. In
the record

* no token was asked for after the end or a failure of the lexer;
* so the lexer was asked at most once for each token other than the end, and once more;
* if the equation is read as a tree, the answers are the tokens of the equation, the end included.

The tokens to come are the measure of the readers: wherever a part is read, there are no more of
them afterwards, and fewer if an operand or an expression was read. -/
theorem asks_for_every_token_once (p : Parser) (equation : Text) :
    let q := p.reset equation
    let r := q.recorded.equation
    let answers := r.2.lexer.answers
    let tokens := (Lexer.tokenize p.lexer.skipBlanks equation).1
    let n := tokens.countP fun t => t.kind ≠ .eof
    q.equation = (r.1, r.2.plain) ∧
      (answers.Pairwise fun earlier _ => ¬ Lexer.IsLast earlier) ∧
      answers.length ≤ n + 1 ∧
      (∀ tree, r.1 = .ok tree → answers = tokens.map .ok) ∧
      n = q.tokensLeft ∧
      ∀ (part : Part) (p' : Parser), (part.read p').2.tokensLeft ≤ p'.tokensLeft ∧
        (0 < part.least → (part.read p').1.isOk = true →
          (part.read p').2.tokensLeft < p'.tokensLeft) := by
  intro q r answers tokens n
  have hkind : q.recorded.current.kind ≠ .eof := by simp [q, recorded, reset, ofText, noToken]
  have hstart : q.recorded.InStep q.lexer := by
    rw [InStep, if_neg hkind]
    exact ⟨[], .nil _, by simp, rfl⟩
  have hkeeps := keeps_equation hstart hkind
  refine ⟨equation_plain q.recorded, hkeeps.sound.pairwise, hkeeps.sound.length_le, ?_, rfl,
    tokensLeft_read⟩
  intro tree htree
  exact answers_of_equation_eq_ok (Prod.ext htree rfl) hkeeps

end Parser

end Reckon
