import Reckon.Batch
import Reckon.Proofs.Lexer.Coverage
import Reckon.Proofs.Parser.Places
import Reckon.Proofs.Parser.Trees

/-!
# Reports of failures

A failure is reported with its message, and if it has a place, with the equation and a caret under
the character there (`ShowsCaret`). The caret is left out where the place is not in the equation,
and it is moved by as many columns as there are characters in front of the place, so it is right
only if the place is between two characters.

`parse_error_is_shown` says that this never goes wrong. Whatever the bytes of an equation are that
cannot be read, the place of the problem is between two of its runes, what the problem names stands
there (`InputError.IsTrueOf`), and the caret is in the column of the rune that starts there.

Tokens and failures of the lexer are known to stand in the equation. It remains to see how each
problem names its token, and that a second equality sign has a first one in front of it.
-/

namespace Reckon

open Text

/-! ### Reports and their carets -/

/-- A report shows an equation below its first line, and then a caret under the character at a byte
offset: there are as many blanks before the caret as characters before the offset. -/
def ShowsCaret (report equation : Text) (pos : Nat) : Prop :=
  ∃ before after, equation.Cut before after ∧ before.length = pos ∧
    report = report.firstLine ++ Text.lit "\n  " ++ equation ++ Text.lit "\n  " ++
      List.replicate before.runes.length ' '.toUInt8 ++ Text.lit "^\n"

namespace EquationError

variable {e : EquationError} {equation before after : Text}

/-- A report starts with the message. -/
theorem firstLine_report (hline : OneLine e.message) :
    (e.report equation).firstLine = Text.lit "eqcalc: " ++ e.message := by
  have hstart : OneLine (Text.lit "eqcalc: " ++ e.message) := oneLine_append.mpr ⟨by decide, hline⟩
  rw [report, List.append_assoc]
  exact firstLine_append hstart _

/-- Nothing else is reported of a failure without a place. -/
theorem report_of_no_pos (hline : OneLine e.message) (h : e.pos? = none) :
    e.report equation = (e.report equation).firstLine ++ Text.lit "\n" := by
  rw [firstLine_report hline, report, h]
  exact List.append_nil _

/-- The equation and a caret are reported of a failure with a place. -/
theorem report_of_place (hcut : equation.Cut before after) (h : e.pos? = some before.length) :
    e.report equation = Text.lit "eqcalc: " ++ e.message ++ Text.lit "\n  " ++ equation ++
      Text.lit "\n  " ++ List.replicate before.runes.length ' '.toUInt8 ++ Text.lit "^\n" := by
  have hle : before.length ≤ equation.length := by
    rw [← hcut.append_eq, List.length_append]
    exact Nat.le_add_right _ _
  have hnewline : Text.lit "\n  " = Text.lit "\n" ++ Text.lit "  " := by decide
  rw [report, h]
  dsimp only
  rw [if_pos hle, hcut.take_eq, hnewline]
  simp only [List.append_assoc]

theorem report_of_cut (hline : OneLine e.message) (hcut : equation.Cut before after)
    (h : e.pos? = some before.length) :
    e.report equation = (e.report equation).firstLine ++ Text.lit "\n  " ++ equation ++
      Text.lit "\n  " ++ List.replicate before.runes.length ' '.toUInt8 ++ Text.lit "^\n" := by
  rw [firstLine_report hline]
  exact report_of_place hcut h

/-- **A caret is shown exactly at the place of a failure.** -/
theorem pos?_eq_some_iff_showsCaret (hline : OneLine e.message)
    (hplace : ∀ pos, e.pos? = some pos →
      ∃ before after, equation.Cut before after ∧ before.length = pos) (pos : Nat) :
    e.pos? = some pos ↔ ShowsCaret (e.report equation) equation pos := by
  constructor
  · intro hpos
    obtain ⟨before, after, hcut, rfl⟩ := hplace pos hpos
    exact ⟨before, after, hcut, rfl, report_of_cut hline hcut hpos⟩
  · rintro ⟨before, after, hcut, rfl, hreport⟩
    rcases hpos : e.pos? with _ | pos
    · -- a report of one line has no room for a caret
      have hlength := congrArg List.length (hreport.symm.trans (report_of_no_pos hline hpos))
      simp only [List.length_append] at hlength
      have hmore : (Text.lit "\n").length < (Text.lit "\n  ").length := by decide
      omega
    · -- a caret in the same column is at the same place
      obtain ⟨before', after', hcut', rfl⟩ := hplace pos hpos
      have hlength := congrArg List.length (hreport.symm.trans (report_of_cut hline hcut' hpos))
      simp only [List.length_append, List.length_replicate] at hlength
      rw [hcut'.before_eq hcut (by omega)]

end EquationError

/-! ### What stands at the place of a problem -/

/-- The rune with a given index starts at a byte offset; the index behind the last rune stands for
the end. -/
structure Text.RuneAt (t : Text) (index pos : Nat) : Prop where
  index_le : index ≤ t.runes.length
  length_eq : (Rune.spell (t.runes.take index)).length = pos

namespace Text.Cut

variable {t before after : Text}

/-- What is behind a cut is found again by its place. -/
theorem drop_eq (h : Cut t before after) : t.drop before.length = after := by
  rw [← h.append_eq, List.drop_left]

/-- At a cut starts the rune that has all runes before the cut in front of it. -/
theorem runeAt (h : Cut t before after) : t.RuneAt before.runes.length before.length where
  index_le := by
    rw [← h.runes_eq, List.length_append]
    exact Nat.le_add_right _ _
  length_eq := by rw [← h.runes_eq, List.take_left, spell_runes]

theorem length_le (h : Cut t before after) : before.length ≤ t.length := by
  rw [← h.append_eq, List.length_append]
  exact Nat.le_add_right _ _

end Text.Cut

/-- **What a problem names is what the equation has at its place**: the character outside the
alphabet; an equality sign behind another one; the point; the bracket; the operator or the left-over
token or the number with all its text. Only the missing operand of an equation that has come to its
end has nothing there. -/
def InputError.IsTrueOf (skipBlanks : Bool) (equation : Text) (e : InputError) : Prop :=
  match e with
  | .lexical (.symbol pos char) =>
    ∃ r rest, uncons (equation.drop pos) = some (r, rest) ∧ r.char = char
  | .lexical (.duplicateEquals pos) =>
    (equation.drop pos).head? = some '='.toUInt8 ∧
      ∃ t ∈ (Lexer.tokenize skipBlanks equation).1,
        t.kind.isEqualitySign = true ∧ t.pos + t.text.length ≤ pos
  | .lexical (.trailingDot pos) => (equation.drop pos).head? = some '.'.toUInt8
  | .unclosed t => t.text = Text.lit "(" ∧ t.text <+: equation.drop t.pos
  | .unopened t => t.text = Text.lit ")" ∧ t.text <+: equation.drop t.pos
  | .operandExpected t => t.text <+: equation.drop t.pos ∧ (t.text = [] ↔ t.pos = equation.length)
  | .leftover t | .number t _ => t.text ≠ [] ∧ t.text <+: equation.drop t.pos

namespace Token.StandsIn

variable {equation : Text} {t : Token}

theorem isPrefix (h : t.StandsIn equation) : t.text <+: equation.drop t.pos := by
  obtain ⟨⟨before, after, hcut, hpos⟩, -⟩ := h
  rw [← hpos, hcut.drop_eq]
  exact List.prefix_append _ _

theorem isWord (h : t.StandsIn equation) (hk : t.kind ≠ .eof) : t.IsWord :=
  h.2.resolve_right fun heof => hk heof.1

theorem text_ne_nil (h : t.StandsIn equation) (hk : t.kind ≠ .eof) : t.text ≠ [] :=
  List.length_pos_iff.mp (h.isWord hk).length_pos

/-- Only the token behind all else has no text. -/
theorem text_eq_nil_iff (h : t.StandsIn equation) : t.text = [] ↔ t.pos = equation.length := by
  rcases h with ⟨⟨before, after, hcut, hpos⟩, hword | ⟨-, htext, hend⟩⟩
  · have hlength := congrArg List.length hcut.append_eq
    have htext := hword.length_pos
    rw [List.length_append, List.length_append] at hlength
    refine iff_of_false (List.length_pos_iff.mp htext) ?_
    omega
  · exact iff_of_true htext hend

end Token.StandsIn

/-- A bracket is written as one. -/
theorem Token.IsWord.text_of_bracket {t : Token} (h : t.IsWord) :
    (t.kind = .leftParen → t.text = Text.lit "(") ∧
      (t.kind = .rightParen → t.text = Text.lit ")") := by
  have hspell := Text.eq_map_of_ascii (t := t.text)
  obtain ⟨kind, text, pos⟩ := t
  dsimp only [Token.IsWord] at h hspell ⊢
  generalize text.runes = rs at h hspell
  cases h with
  | assign | equal | name => exact ⟨by simp, by simp⟩
  | number first chars last kind_eq =>
    rw [kind_eq]
    split <;> exact ⟨by simp, by simp⟩
  | single symbol =>
    unfold Lexer.single? at symbol
    split at symbol <;> cases symbol
    all_goals
      rename_i hchar
      rw [hspell (by simp [hchar])]
      simp only [List.map_cons, List.map_nil, hchar]
      decide

/-- A second equality sign is refused only where one has been read. -/
theorem Scan.exists_sign_of_duplicate {s : Scan} {pos : Nat}
    (h : s.tokens.2 = some (.duplicateEquals pos)) :
    s.equalsSeen = true ∨ ∃ t ∈ s.tokens.1, t.kind.isEqualitySign = true := by
  fun_induction tokens s with
  | case1 s e hn =>
    cases h
    rcases lexeme_eq_error (lexeme_of_next_error hn) with ⟨_, _, _, he⟩ |
      ⟨_, _, _, _, hseen, _⟩ | ⟨_, _, _, _, _, _, _, he⟩
    · cases he
    · exact .inl (s.equalsSeen_skip ▸ hseen)
    · cases he
  | case2 s t after hn hk => cases h
  | case3 s t after hn hk ih =>
    obtain ⟨-, -, -, hafter⟩ := next_eq_ok hn
    rcases ih h with hseen | ⟨t', ht', hsign⟩
    · rw [hafter, Bool.or_eq_true] at hseen
      exact hseen.imp_right fun hsign => ⟨t, List.mem_cons_self, hsign⟩
    · exact .inr ⟨t', List.mem_cons_of_mem t ht', hsign⟩

/-- **A second equality sign is behind a first one**, which is a token. -/
theorem Lexer.exists_sign_before {skipBlanks : Bool} {equation : Text} {pos : Nat}
    (h : (tokenize skipBlanks equation).2 = some (.duplicateEquals pos)) :
    ∃ t ∈ (tokenize skipBlanks equation).1,
      t.kind.isEqualitySign = true ∧ t.pos + t.text.length ≤ pos := by
  have hagrees := agrees_ofText skipBlanks equation
  have hsign : ∃ t ∈ (tokenize skipBlanks equation).1, t.kind.isEqualitySign = true := by
    rw [tokenize, drain_eq_tokens hagrees] at h ⊢
    exact (Scan.exists_sign_of_duplicate h).resolve_left (by simp [Scan.ofText])
  -- the tokens end where the token starts that cannot be read
  have hstart : (Scan.ofText skipBlanks equation).pos = ([] : Text).length := rfl
  obtain ⟨stop, hcovering, hstops, -⟩ := covering_drain hagrees rfl hstart
  have hdrain : (ofText skipBlanks equation).drain =
      ((tokenize skipBlanks equation).1, some (.duplicateEquals pos)) := Prod.ext rfl h
  rw [hdrain] at hstops
  obtain ⟨-, -, hstop, -⟩ := hstops
  obtain ⟨t, ht, hkind⟩ := hsign
  exact ⟨t, ht, hkind, (hcovering.within t ht).2.trans (Nat.le_of_eq hstop.symm)⟩

/-! ### Problems are where they are said to be -/

theorem LexError.isTrueOf_of_standsIn {skipBlanks : Bool} {equation : Text} {e : LexError}
    (h : (Lexer.tokenize skipBlanks equation).2 = some e) :
    (InputError.lexical e).IsTrueOf skipBlanks equation := by
  obtain ⟨before, after, hcut, hpos, hfirst⟩ :=
    (Lexer.standsIn_tokenize skipBlanks equation).2 e h
  rw [← hcut.drop_eq, hpos] at hfirst
  cases e with
  | symbol pos char =>
    obtain ⟨r, rs, hrunes, hchar⟩ := hfirst
    obtain ⟨rest, hu, -⟩ := uncons_of_runes_eq_cons hrunes
    exact ⟨r, rest, hu, hchar⟩
  | duplicateEquals pos => exact ⟨hfirst, Lexer.exists_sign_before h⟩
  | trailingDot pos => exact hfirst

theorem InputError.isTrueOf_of_token? {skipBlanks : Bool} {equation : Text} {e : InputError}
    {t : Token} (htoken : e.token? = some t) (ht : t.StandsIn equation) (hsuits : e.Suits) :
    e.IsTrueOf skipBlanks equation := by
  cases e with
  | lexical e => cases htoken
  | unclosed t =>
    cases htoken
    have hword := ht.isWord (by rw [show t.kind = .leftParen from hsuits]; simp)
    exact ⟨hword.text_of_bracket.1 hsuits, ht.isPrefix⟩
  | unopened t =>
    cases htoken
    have hword := ht.isWord (by rw [show t.kind = .rightParen from hsuits]; simp)
    exact ⟨hword.text_of_bracket.2 hsuits, ht.isPrefix⟩
  | operandExpected t =>
    cases htoken
    exact ⟨ht.isPrefix, ht.text_eq_nil_iff⟩
  | leftover t | number t outOfRange =>
    cases htoken
    exact ⟨ht.text_ne_nil hsuits, ht.isPrefix⟩

/-- **A problem is where it is said to be, and the caret is under it.** Of every equation that
cannot be read, whatever its bytes are and whether blanks are skipped or not:

* the place of the problem is in the equation or at its end, and a rune starts there unless it is
  the end;
* what the problem names stands there;
* its report shows a caret, with as many columns in front of it as there are runes in front of that
  place. -/
theorem parse_error_is_shown {skipBlanks : Bool} {equation : Text} {e : InputError}
    (h : parse skipBlanks equation = .error e) :
    e.pos ≤ equation.length ∧ e.IsTrueOf skipBlanks equation ∧
      ∃ index, equation.RuneAt index e.pos ∧
        (EquationError.input e).report equation =
          Text.lit "eqcalc: " ++ e.message ++ Text.lit "\n  " ++ equation ++ Text.lit "\n  " ++
            List.replicate index ' '.toUInt8 ++ Text.lit "^\n" := by
  obtain ⟨⟨before, after, hcut, hpos⟩, -⟩ := parse_error_place h
  have hplace : (EquationError.input e).pos? = some before.length := congrArg some hpos.symm
  refine ⟨hpos ▸ hcut.length_le, ?_, before.runes.length, hpos ▸ hcut.runeAt,
    EquationError.report_of_place hcut hplace⟩
  rcases parse_error_cases h with ⟨e', rfl, he'⟩ | ⟨t, htoken, ht, hsuits⟩
  · exact LexError.isTrueOf_of_standsIn he'
  · exact InputError.isTrueOf_of_token? htoken ht hsuits

/-- For example, of a second equality sign behind letters of two bytes each. -/
theorem parse_error_is_shown_of_second_sign :
    let equation := Text.lit "é=(ß=1"
    let e : InputError := .lexical (.duplicateEquals 6)
    parse false equation = .error e ∧ e.IsTrueOf false equation ∧
      ∃ index, equation.RuneAt index 6 ∧
        (EquationError.input e).report equation =
          Text.lit "eqcalc: only one equal-like sign allowed, got another at 6\n  é=(ß=1\n  " ++
            List.replicate index ' '.toUInt8 ++ Text.lit "^\n" := by
  intro equation e
  have hparse : parse false equation = .error e := parse_of_run_error (by decide +kernel)
  obtain ⟨-, htrue, index, hindex, hreport⟩ := parse_error_is_shown hparse
  refine ⟨hparse, htrue, index, hindex, hreport.trans ?_⟩
  have hlines : Text.lit "eqcalc: " ++ e.message ++ Text.lit "\n  " ++ equation ++
      Text.lit "\n  " =
        Text.lit "eqcalc: only one equal-like sign allowed, got another at 6\n  é=(ß=1\n  " := by
    decide +kernel
  rw [hlines]

end Reckon
