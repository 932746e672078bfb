import Reckon.Proofs.Lexer.Layout
import Reckon.Proofs.Parser.FirstProblem
import Reckon.Proofs.Parser.Grammar
import Reckon.Proofs.Text.OneLine

/-!
# Where tokens and problems are

`Text.Cut t before after` is a cut of a text between two of its runes. Reading goes from cut to cut,
so every token stands at one, and at one there is what every failure to go on is about
(`Lexer.standsIn_tokenize`).

A problem of an equation is such a failure or is about one of the tokens, of a sort that suits it
(`parse_error_cases`). Hence `parse_error_place`: there is a cut at its place, and its message is one
line.
-/

namespace Reckon

/-! ### Cuts between runes -/

namespace Text

/-- A cut of a text between two of its runes. -/
structure Cut (t before after : Text) : Prop where
  append_eq : before ++ after = t
  runes_eq : before.runes ++ after.runes = t.runes

namespace Cut

variable {t before after : Text} {rs ss : List Rune}

theorem start (t : Text) : Cut t [] t := ⟨rfl, by rw [runes_nil, List.nil_append]⟩

/-- A cut can be moved over some of the runes after it. -/
theorem move (h : Cut t before after) (hafter : after.runes = rs ++ ss) :
    ∃ rest, after = Rune.spell rs ++ rest ∧ rest.runes = ss ∧
      Cut t (before ++ Rune.spell rs) rest := by
  obtain ⟨rest, rfl, hrest⟩ := exists_of_runes_eq_append hafter
  refine ⟨rest, rfl, hrest, ?_, ?_⟩
  · rw [List.append_assoc, h.append_eq]
  · have hruns : t.runes = (before.runes ++ rs) ++ ss := by
      rw [← h.runes_eq, hafter, List.append_assoc]
    have hread := runes_spell_of_append hruns
    rw [Rune.spell_append, spell_runes] at hread
    rw [hread, hrest, hruns]

/-- A cut can be moved over a well-formed text. -/
theorem append {u : Text} (h : Cut t before (u ++ after)) (hu : u.isValid = true) :
    Cut t (before ++ u) after := by
  obtain ⟨rest, hrest, -, hcut⟩ := h.move (runes_append hu after)
  rw [spell_runes] at hrest hcut
  rwa [List.append_cancel_left hrest]

/-- What is before a cut is found again by its length. -/
theorem take_eq (h : Cut t before after) : t.take before.length = before := by
  rw [← h.append_eq, List.take_left]

/-- Two cuts after the same number of runes are the same. -/
theorem before_eq {before' after' : Text} (h : Cut t before after) (h' : Cut t before' after')
    (hlength : before.runes.length = before'.runes.length) : before = before' := by
  have hruns : before.runes = before'.runes :=
    List.append_inj_left (h.runes_eq.trans h'.runes_eq.symm) hlength
  rw [← spell_runes before, hruns, spell_runes]

end Cut

end Text

/-- A text that starts with an ASCII character starts with its byte. -/
theorem Text.head?_of_runes {t : Text} {r : Rune} {rs : List Rune} (h : t.runes = r :: rs)
    (hr : r.char.toNat < 0x80) : t.head? = some r.char.toUInt8 := by
  obtain ⟨rest, hu, -⟩ := uncons_of_runes_eq_cons h
  rw [← (append_of_uncons hu).1, spelling_of_uncons hu hr]
  rfl

/-! ### Tokens and failures -/

/-- A token stands in a text, from a cut on: it is a word, or the end behind all else. -/
def Token.StandsIn (t : Text) (token : Token) : Prop :=
  (∃ before after, t.Cut before (token.text ++ after) ∧ before.length = token.pos) ∧
    (token.IsWord ∨ (token.kind = .eof ∧ token.text = [] ∧ token.pos = t.length))

/-- What a failure is about is the first thing in a text: the character outside the alphabet, an
equality sign, or a point. -/
def LexError.IsFirstOf (t : Text) : LexError → Prop
  | symbol _ char => ∃ r rest, t.runes = r :: rest ∧ r.char = char
  | duplicateEquals _ => t.head? = some '='.toUInt8
  | trailingDot _ => t.head? = some '.'.toUInt8

/-- What a failure is about stands in a text, from a cut on. -/
def LexError.StandsIn (t : Text) (e : LexError) : Prop :=
  ∃ before after, t.Cut before after ∧ before.length = e.pos ∧ e.IsFirstOf after

/-- A token that stands in a text is one line. -/
theorem Token.StandsIn.oneLine {t : Text} {token : Token} (h : token.StandsIn t) :
    token.text.OneLine := by
  rcases h.2 with hword | ⟨-, htext, -⟩
  · intro hmem
    have hchar := Reckon.IsWord.isWordChar hword _ (Text.mem_runes_of_mem hmem (by decide))
    exact absurd hchar (by decide +kernel)
  · rw [htext]
    exact Text.oneLine_nil

namespace Scan

variable {s after : Scan} {t : Text} {token : Token} {e : LexError}

/-- The reading has come to a cut of a text. -/
def StandsIn (t : Text) (s : Scan) : Prop :=
  ∃ before rest, t.Cut before rest ∧ s.pos = before.length ∧ s.runes = rest.runes

theorem standsIn_ofText (skipBlanks : Bool) (t : Text) : (ofText skipBlanks t).StandsIn t :=
  ⟨[], t, .start t, rfl, rfl⟩

/-- **A token stands where the reading has come to**, and the reading comes to its end. -/
theorem StandsIn.next (hs : s.StandsIn t) (h : s.next = .ok (token, after)) :
    token.StandsIn t ∧ after.StandsIn t := by
  obtain ⟨before, rest, hcut, hpos, hruns⟩ := hs
  obtain ⟨gap, last, rfl, hfits, htoken, rfl, hword⟩ := next_eq_ok_cases hruns h
  have hvalid : token.text.isValid = true := by
    rcases hword with ⟨-, htext, -⟩ | ⟨hword, -, -⟩
    · rw [htext]
      exact Text.isValid_nil
    · exact hword.isValid
  -- the cut is moved over the gap, and then over the token
  have hcut' := hcut.append hfits.1.isValid
  have hcut'' := hcut'.append hvalid
  refine ⟨⟨⟨before ++ gap, last, hcut', ?_⟩, ?_⟩,
    before ++ gap ++ token.text, last, hcut'', ?_, rfl⟩
  · rw [htoken, hpos, List.length_append]
  · rcases hword with ⟨hkind, htext, rfl⟩ | ⟨hword, -, -⟩
    · refine .inr ⟨hkind, htext, ?_⟩
      rw [← hcut'.append_eq, htext, htoken, hpos, List.append_nil, List.append_nil,
        List.length_append]
    · exact .inl hword
  · dsimp only
    rw [htoken, hpos, List.length_append, List.length_append]

/-- **What a failure is about stands where the reading has come to**, or at the end of the number
there. -/
theorem StandsIn.next_error (hs : s.StandsIn t) (h : s.next = .error e) : e.StandsIn t := by
  obtain ⟨before, rest, hcut, hpos, hruns⟩ := hs
  obtain ⟨gap, rest', rfl, hgap, -, -, hlexeme⟩ := next_eq_error_cases hruns h
  have hcut' := hcut.append hgap.isValid
  have hplace : (s.moved gap.length rest'.runes).pos = (before ++ gap).length := by
    rw [moved, List.length_append, hpos]
  rcases lexeme_eq_error hlexeme with ⟨r, last, hr, rfl⟩ | ⟨r, last, hr, hsign, -, rfl⟩ |
    ⟨run, dot, last, hrest, -, hdot, -, rfl⟩
  · exact ⟨before ++ gap, rest', hcut', hplace.symm, r, last, hr, rfl⟩
  · refine ⟨before ++ gap, rest', hcut', hplace.symm, ?_⟩
    have hhead := Text.head?_of_runes (t := rest') hr (by rw [hsign]; decide)
    rwa [hsign] at hhead
  · -- the point is behind the other runes of the number, and is spelled by one byte
    obtain ⟨rest'', -, hlast, hcut''⟩ := hcut'.move hrest
    have hlow : dot.char.toNat < 0x80 := by
      rw [hdot]
      decide
    have hspelling : dot.spelling = [dot.char.toUInt8] :=
      Text.spelling_of_ascii (hlast ▸ List.mem_cons_self) hlow
    have hhead := Text.head?_of_runes hlast hlow
    rw [hdot] at hhead
    refine ⟨_, rest'', hcut'', ?_, hhead⟩
    rw [LexError.pos, hplace, Rune.spell_append, Rune.spell_cons, hspelling]
    simp only [List.length_append, List.length_cons, List.length_nil, Rune.spell_nil]
    omega

/-- **Every token stands in the text that is read, and so does what a failure is about.** -/
theorem StandsIn.tokens (hs : s.StandsIn t) :
    (∀ token ∈ s.tokens.1, token.StandsIn t) ∧ ∀ e ∈ s.tokens.2, e.StandsIn t := by
  fun_induction Scan.tokens s with
  | case1 s e hn =>
    refine ⟨by simp, fun e' he' => ?_⟩
    cases he'
    exact hs.next_error hn
  | case2 s token after hn hk =>
    obtain ⟨htoken, -⟩ := hs.next hn
    exact ⟨by simpa using htoken, by simp⟩
  | case3 s token after hn hk ih =>
    obtain ⟨htoken, hafter⟩ := hs.next hn
    obtain ⟨htokens, hfailure⟩ := ih hafter
    exact ⟨List.forall_mem_cons.mpr ⟨htoken, htokens⟩, hfailure⟩

end Scan

/-! ### Problems -/

theorem Lexer.mem_drain_of_next {l after : Lexer} {t : Token} (h : l.next = (.ok t, after)) :
    t ∈ l.drain.1 := by
  rw [drain_of_next h]
  split
  · exact List.mem_singleton_self t
  · exact List.mem_cons_self

/-- The token that a problem is about, if the text can be cut into tokens up to it. -/
def InputError.token? : InputError → Option Token
  | lexical _ => none
  | unclosed t | unopened t | operandExpected t | leftover t | number t _ => some t

/-- The token that a problem is about is of the right sort: brackets are unpaired, and nothing but an
operand can be missing at the end. -/
def InputError.Suits : InputError → Prop
  | lexical _ | operandExpected _ => True
  | unclosed t => t.kind = .leftParen
  | unopened t => t.kind = .rightParen
  | leftover t | number t _ => t.kind ≠ .eof

namespace Checker

variable {c c' : Checker} {t : Token} {e : InputError}

/-- A problem is about the token that is refused, or about an open bracket. -/
theorem token?_of_step_error (h : c.step t = .error e) (heof : t.kind = .eof → t.text = [])
    (hbrackets : ∀ b ∈ c.brackets, b.kind = .leftParen) :
    ∃ t', e.token? = some t' ∧ (t' = t ∨ t' ∈ c.brackets) ∧ e.Suits := by
  rw [step] at h
  split at h
  · split at h <;> rename_i hk
    · split at h <;> cases h
      exact ⟨t, rfl, .inl rfl, by simp [InputError.Suits, hk]⟩
    · split at h <;> cases h
      exact ⟨t, rfl, .inl rfl, by simp [InputError.Suits, hk]⟩
    · cases h
    · cases h
    · cases h
      exact ⟨t, by rw [← heof hk]; rfl, .inl rfl, trivial⟩
    · cases h
      exact ⟨t, rfl, .inl rfl, trivial⟩
  · split at h
    · cases h
    · split at h
      · rename_i innermost outer heq
        have hmem : innermost ∈ c.brackets := heq ▸ List.mem_cons_self
        split at h <;> cases h
        exact ⟨innermost, rfl, .inr hmem, hbrackets innermost hmem⟩
      · split at h
        · cases h
        · rename_i hk
          cases h
          exact ⟨t, rfl, .inl rfl, hk⟩
        · rename_i hk _
          cases h
          exact ⟨t, rfl, .inl rfl, hk⟩

/-- Only an open bracket that is taken is added to those that were there. -/
theorem brackets_of_step (h : c.step t = .ok (some c')) :
    ∀ b ∈ c'.brackets, (b = t ∧ t.kind = .leftParen) ∨ b ∈ c.brackets := by
  rcases step_cases h with ⟨-, -, rfl⟩ | ⟨-, hk, rfl⟩ | ⟨-, -, rfl⟩ |
    ⟨-, -, innermost, outer, hbrackets, rfl⟩
  · exact fun b hb => .inr hb
  · exact fun b hb => (List.mem_cons.mp hb).imp_left fun heq => ⟨heq, hk⟩
  · exact fun b hb => .inr hb
  · exact fun b hb => .inr (hbrackets ▸ List.mem_cons_of_mem innermost hb)

/-- **A problem is a failure of the lexer or is about one of the tokens.** -/
theorem error_of_run {l : Lexer} {P : Token → Prop} (h : c.run l = .error e)
    (hbrackets : ∀ t ∈ c.brackets, P t ∧ t.kind = .leftParen)
    (htokens : ∀ t ∈ l.drain.1, P t ∧ (t.kind = .eof → t.text = [])) :
    (∃ e', e = .lexical e' ∧ l.drain.2 = some e') ∨ ∃ t, e.token? = some t ∧ P t ∧ e.Suits := by
  fun_induction run c l with
  | case1 c l e' after hn =>
    cases h
    rw [Lexer.drain_of_next_error hn]
    exact .inl ⟨e', rfl, rfl⟩
  | case2 c l t after hn e' hstep =>
    cases h
    obtain ⟨ht, heof⟩ := htokens t (Lexer.mem_drain_of_next hn)
    obtain ⟨t', htoken, rfl | hmem, hsuits⟩ :=
      token?_of_step_error hstep heof fun b hb => (hbrackets b hb).2
    · exact .inr ⟨t', htoken, ht, hsuits⟩
    · exact .inr ⟨t', htoken, (hbrackets t' hmem).1, hsuits⟩
  | case3 c l t after hn hstep => cases h
  | case4 c l t after hn c' hstep ih =>
    have hdrain := Lexer.drain_of_next hn
    rw [if_neg (ne_eof_of_step hstep)] at hdrain
    rw [hdrain] at htokens ⊢
    obtain ⟨⟨ht, -⟩, hrest⟩ := List.forall_mem_cons.mp htokens
    refine ih h (fun b hb => ?_) hrest
    rcases brackets_of_step hstep b hb with ⟨rfl, hk⟩ | hmem
    · exact ⟨ht, hk⟩
    · exact hbrackets b hmem

end Checker

/-- What is told about a token of one line is one line. -/
theorem InputError.oneLine_message_of_token? {e : InputError} {t : Token} (h : e.token? = some t)
    (ht : t.text.OneLine) : e.message.OneLine := by
  have hplace : Text.OneLine (message.place t) := by
    rw [message.place, Text.oneLine_append]
    exact ⟨Text.oneLine_ofNat _, by decide⟩
  cases e with
  | lexical e => cases h
  | unclosed bracket | unopened bracket =>
    cases h
    simp only [message, Text.oneLine_append]
    exact ⟨⟨⟨hplace, by decide⟩, ht⟩, by decide⟩
  | operandExpected found =>
    cases h
    rw [message]
    split
    · exact Text.oneLine_append.mpr ⟨hplace, by decide⟩
    · simp only [Text.oneLine_append]
      exact ⟨⟨hplace, by decide⟩, Text.oneLine_quote _⟩
  | leftover found =>
    cases h
    simp only [message, Text.oneLine_append]
    exact ⟨⟨⟨hplace, by decide⟩, Text.oneLine_quote _⟩, by decide⟩
  | number literal outOfRange =>
    cases h
    simp only [message, Text.oneLine_append]
    exact ⟨⟨hplace, by decide⟩, Text.oneLine_quote _⟩

theorem LexError.oneLine_message (e : LexError) : e.message.OneLine := by
  cases e with
  | symbol p c =>
    simp only [message, Text.oneLine_append]
    exact ⟨⟨⟨by decide, Text.oneLine_ofNat _⟩, by decide⟩, Text.oneLine_quoteChar c⟩
  | duplicateEquals p => exact Text.oneLine_append.mpr ⟨by decide, Text.oneLine_ofNat _⟩
  | trailingDot p =>
    simp only [message, Text.oneLine_append]
    exact ⟨⟨by decide, Text.oneLine_ofNat _⟩, by decide⟩

theorem InputError.pos_of_token? {e : InputError} {t : Token} (h : e.token? = some t) :
    e.pos = t.pos := by
  cases e <;> cases h <;> rfl

/-- The tokens of an equation stand in it, and so does what a failure is about. -/
theorem Lexer.standsIn_tokenize (skipBlanks : Bool) (equation : Text) :
    (∀ t ∈ (tokenize skipBlanks equation).1, t.StandsIn equation) ∧
      ∀ e ∈ (tokenize skipBlanks equation).2, e.StandsIn equation := by
  rw [tokenize, drain_eq_tokens (agrees_ofText skipBlanks equation)]
  exact (Scan.standsIn_ofText skipBlanks equation).tokens

/-- **What a problem is about**: a failure of the lexer, or a token of the equation that suits it. -/
theorem parse_error_cases {skipBlanks : Bool} {equation : Text} {e : InputError}
    (h : parse skipBlanks equation = .error e) :
    (∃ e', e = .lexical e' ∧ (Lexer.tokenize skipBlanks equation).2 = some e') ∨
      ∃ t, e.token? = some t ∧ t.StandsIn equation ∧ e.Suits := by
  have hverdict : (parse skipBlanks equation).map (fun _ => ()) =
      Checker.start.run (Lexer.ofText skipBlanks equation) := Parser.verdict_equation rfl
  rw [h] at hverdict
  refine Checker.error_of_run hverdict.symm (by simp [Checker.start]) fun t ht => ?_
  have hstands := (Lexer.standsIn_tokenize skipBlanks equation).1 t ht
  refine ⟨hstands, fun hk => ?_⟩
  rcases hstands.2 with hword | ⟨-, htext, -⟩
  · exact absurd hk hword.kind_ne_eof
  · exact htext

/-- **Where a problem is, and how it is told.** It is at a cut between two characters of the
equation, and the message is one line. -/
theorem parse_error_place {skipBlanks : Bool} {equation : Text} {e : InputError}
    (h : parse skipBlanks equation = .error e) :
    (∃ before after, equation.Cut before after ∧ before.length = e.pos) ∧ e.message.OneLine := by
  rcases parse_error_cases h with ⟨e', rfl, he'⟩ | ⟨t, htoken, ht, -⟩
  · obtain ⟨before, after, hcut, hpos, -⟩ :=
      (Lexer.standsIn_tokenize skipBlanks equation).2 e' he'
    exact ⟨⟨before, after, hcut, hpos⟩, e'.oneLine_message⟩
  · have hline := InputError.oneLine_message_of_token? htoken ht.oneLine
    obtain ⟨⟨before, after, hcut, hpos⟩, -⟩ := ht
    exact ⟨⟨before, _, hcut, hpos.trans (InputError.pos_of_token? htoken).symm⟩, hline⟩

end Reckon
