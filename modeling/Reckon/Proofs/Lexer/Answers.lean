import Reckon.Proofs.Lexer.Boundaries
import Reckon.Proofs.Lexer.Coverage
import Reckon.Proofs.Parser.Reuse

/-!
# Asking a lexer again and again

A lexer answers every call with a token, also where it fails: this token has the message as its
text. `Lexer.answers` lists the answers to the first calls.

`Lexer.answers_are_tokens` says that they are the tokens of the equation, then the error token if
these are cut short by a failure, and then the last of them again and again. There is always a last
one: a call that gives any other token moves on by a byte or more (`pos_lt_of_next`), so after as
many calls as the equation has bytes, the last answer is reached.

All calls before the last answer hand out words (`Yields.answers`), and from there on nothing
changes (`answers_of_isLast`).
-/

namespace Reckon

namespace Lexer

variable {l last after : Lexer} {s : Text} {t : Token} {words : List Token}

/-- What a call gives: a token, with the failure that it stands for, if it is an error token. -/
def answer (l : Lexer) : Token × Option LexError :=
  match l.next with
  | (.ok t, _) => (t, none)
  | (.error e, after) => (after.errorToken e, some e)

/-- What the first calls give. -/
def answers (l : Lexer) (k : Nat) : List (Token × Option LexError) :=
  (List.range k).map fun i => (l.later i).answer

/-- What all calls give up to the last answer, for the tokens of an equation: the tokens, and the
error token at the given place if these are cut short by a failure. -/
def allAnswers (tokens : List Token) (failure : Option LexError) (start : Nat) :
    List (Token × Option LexError) :=
  (tokens.map fun t => (t, none)) ++
    failure.toList.map fun e => (⟨.error, e.message, start⟩, some e)

/-! ### Moving on -/

/-- **A call that hands out a token other than the end moves on** by a byte or more. -/
theorem pos_lt_of_next (h : l.next = (.ok t, after)) (hk : t.kind ≠ .eof) :
    l.cursor.pos < after.cursor.pos := by
  obtain ⟨rs, hpass⟩ := l.exists_passes_next
  rw [h] at hpass
  have hless := remaining_lt_of_next h hk
  have hbefore := l.cursor.pos_add_length_ahead
  have hbehind := after.cursor.pos_add_length_ahead
  rw [hpass.text_eq] at hbehind
  unfold remaining at hless
  omega

/-- Every word takes a byte or more. -/
theorem Yields.remaining_add_length_le (h : l.Yields words last)
    (hwords : ∀ t ∈ words, t.kind ≠ .eof) : last.remaining + words.length ≤ l.remaining := by
  induction h with
  | nil => exact Nat.le_refl _
  | @cons l l' l'' t words first _ ih =>
    obtain ⟨hk, hwords⟩ := List.forall_mem_cons.mp hwords
    have hless := remaining_lt_of_next first hk
    have hrest := ih hwords
    rw [List.length_cons]
    omega

/-! ### The answers to several calls -/

theorem answer_of_next (h : l.next = (.ok t, after)) : l.answer = (t, none) := by
  rw [answer, h]

theorem answers_succ (l : Lexer) (k : Nat) :
    l.answers (k + 1) = l.answer :: l.next.2.answers k := by
  have hlater : ∀ i, l.later (i + 1) = l.next.2.later i := by
    intro i
    rw [Nat.add_comm, ← later_later]
    rfl
  rw [answers, List.range_succ_eq_map, List.map_cons, List.map_map]
  refine congrArg₂ List.cons rfl (List.map_congr_left fun i _ => ?_)
  exact congrArg answer (hlater i)

/-- Fewer calls give the first of the answers to more. -/
theorem take_answers (l : Lexer) (k n : Nat) : (l.answers (k + n)).take k = l.answers k := by
  rw [answers, ← List.map_take, List.take_range, Nat.min_eq_left (Nat.le_add_right k n)]
  rfl

/-- Calls that hand out words give these words. -/
theorem Yields.answers (h : l.Yields words last) (k : Nat) :
    l.answers (words.length + k) = (words.map fun t => (t, none)) ++ last.answers k := by
  induction h with
  | nil => rw [List.length_nil, Nat.zero_add, List.map_nil, List.nil_append]
  | cons first _ ih =>
    rw [List.length_cons, Nat.add_right_comm, answers_succ, answer_of_next first, first, ih,
      List.map_cons, List.cons_append]

namespace Within

/-- **The last answer is given again**, the failure and the place of the token included. -/
theorem answer_of_isLast (h : Within s l) (hlast : IsLast l.next.1) :
    l.next.2.answer = l.answer := by
  rcases hn : l.next with ⟨e | t, after⟩
  · rw [answer, answer, hn, next_of_next_error hn]
  · rw [hn] at hlast
    obtain ⟨rfl, hnext⟩ := h.eof hn hlast
    rw [answer_of_next hn]
    exact answer_of_next (Prod.ext hnext rfl)

/-- From the last answer on, all answers are the same. -/
theorem answers_of_isLast (h : Within s l) (hlast : IsLast l.next.1) (k : Nat) :
    l.answers k = List.replicate k l.answer := by
  induction k generalizing l with
  | zero => rfl
  | succ k ih =>
    have hagain : IsLast l.next.2.next.1 := by rwa [h.next_of_isLast hlast]
    rw [answers_succ, ih h.next hagain, h.answer_of_isLast hlast, List.replicate_succ]

end Within

/-! ### Whole equations -/

/-- A list that goes on with one value again and again, cut anywhere. -/
theorem take_append_replicate {α : Type} (xs : List α) (x : α) (k : Nat) :
    (xs ++ List.replicate k x).take k =
      (xs ++ [x]).take k ++ List.replicate (k - (xs ++ [x]).length) x := by
  rw [List.take_append, List.take_append, List.append_assoc, List.take_replicate,
    List.length_append, List.length_singleton]
  rcases hn : k - xs.length with _ | n
  · have hzero : k - (xs.length + 1) = 0 := by omega
    rw [hzero, Nat.zero_min, List.replicate_zero, List.take_zero]
    rfl
  · have hrest : k - (xs.length + 1) = n := by omega
    rw [hrest, Nat.min_eq_left (by omega), List.replicate_succ, List.take_succ_cons, List.take_nil]
    rfl

/-- **All answers of a new lexer**: words, and then the last answer, which is for the end or for the
failure that cuts the tokens short. -/
theorem exists_allAnswers (skipBlanks : Bool) (s : Text) :
    ∃ start words last, (ofText skipBlanks s).Yields words last ∧ (∀ t ∈ words, t.kind ≠ .eof) ∧
      IsLast last.next.1 ∧ (∀ e, (tokenize skipBlanks s).2 = some e → e.StartsAt s start) ∧
      allAnswers (tokenize skipBlanks s).1 (tokenize skipBlanks s).2 start =
        (words.map fun t => (t, none)) ++ [last.answer] := by
  obtain ⟨start, -, hstops, -⟩ := tokenize_covers skipBlanks s
  refine ⟨start, ?_⟩
  rcases hall : tokenize skipBlanks s with ⟨tokens, _ | e⟩ <;> rw [hall] at hstops
  · obtain ⟨-, words, rfl, hwords⟩ := hstops
    obtain ⟨after, hyields⟩ := yields_of_drain _ hall
    obtain ⟨last, hyields, hlast⟩ := yields_append_iff.mp hyields
    obtain ⟨after, hnext, -⟩ := yields_cons_iff.mp hlast
    refine ⟨words, last, hyields, hwords, ?_, by simp, ?_⟩
    · rw [hnext]
      rfl
    · rw [answer_of_next hnext]
      simp [allAnswers]
  · obtain ⟨-, hwords, hstarts, last, after, hyields, hnext, hplace⟩ := hstops
    refine ⟨tokens, last, hyields, hwords, ?_, ?_, ?_⟩
    · rw [hnext]
      trivial
    · rintro _ ⟨⟩
      exact hstarts
    · have hanswer : last.answer = (⟨.error, e.message, start⟩, some e) := by
        rw [answer, hnext, ← hplace]
        rfl
      rw [hanswer]
      rfl

/-- **A lexer that is asked again and again hands out the tokens, and then the last one for ever.**
For every equation, with blanks skipped or not:

* a call gives the end, or fails, or moves on by a byte or more and gives any other token;
* one of the first calls gives the end or fails, at the latest the one after as many calls as there
  are bytes;
* the answers to any number of calls are the tokens of the equation, followed by an error token with
  the failure if there is one, which starts where the token does that cannot be read; they are cut
  off there, or go on with the last of them again and again;
* there is at most one token more than there are bytes. -/
theorem answers_are_tokens (skipBlanks : Bool) (s : Text) :
    let l := ofText skipBlanks s
    let tokens := (tokenize skipBlanks s).1
    let failure := (tokenize skipBlanks s).2
    (∀ i, IsLast (l.later i).next.1 ∨ ∃ t, (l.later i).next.1 = .ok t ∧ t.kind ≠ .eof ∧
        (l.later i).cursor.pos < (l.later (i + 1)).cursor.pos) ∧
      (∃ i ≤ s.length, IsLast (l.later i).next.1) ∧
      (∃ start last, (∀ e, failure = some e → e.StartsAt s start) ∧
        (allAnswers tokens failure start).getLast? = some last ∧
        ∀ k, l.answers k = (allAnswers tokens failure start).take k ++
          List.replicate (k - (allAnswers tokens failure start).length) last) ∧
      tokens.length ≤ s.length + 1 := by
  intro l tokens failure
  have hwithin : Within s l := within_ofText skipBlanks s
  obtain ⟨start, words, last, hyields, hwords, hlast, hstarts, hall⟩ :=
    exists_allAnswers skipBlanks s
  refine ⟨fun i => ?_, ⟨s.length, Nat.le_refl _, hwithin.isLast_of_le (Nat.le_refl _)⟩,
    ⟨start, last.answer, hstarts, ?_, fun k => ?_⟩, ?_⟩
  · rcases hn : (l.later i).next with ⟨e | t, after⟩
    · exact .inl trivial
    · by_cases hk : t.kind = .eof
      · exact .inl hk
      · refine .inr ⟨t, rfl, hk, ?_⟩
        have hmoves := pos_lt_of_next hn hk
        rwa [later, hn]
  · rw [hall, List.getLast?_concat]
  · -- the words and then the last answer for ever, cut off after `k` answers
    rw [hall, ← take_append_replicate, ← (hwithin.yields hyields).answers_of_isLast hlast,
      ← hyields.answers, Nat.add_comm, take_answers]
  · have hbytes := hyields.remaining_add_length_le hwords
    have hwordsLength : last.remaining + words.length ≤ s.length := hbytes
    have hlength := congrArg List.length hall
    simp only [allAnswers, List.length_append, List.length_map, List.length_singleton] at hlength
    calc tokens.length
        ≤ tokens.length + failure.toList.length := Nat.le_add_right _ _
      _ = words.length + 1 := hlength
      _ ≤ s.length + 1 := by omega

/-- The error token starts with the number, in front of the point that the failure is about. -/
example : (ofText true (Text.lit " 1.")).answers 2 =
    List.replicate 2 (⟨.error, (LexError.trailingDot 2).message, 1⟩, some (.trailingDot 2)) := by
  decide +kernel

end Lexer

end Reckon
