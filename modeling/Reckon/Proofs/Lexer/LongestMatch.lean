import Reckon.Lexer.Source
import Reckon.Proofs.Cursor

/-!
# The tokens of an equation are its longest matches

`Scan` reads a sequence of runes by longest match, without a cursor: `Scan.lexeme` says which
stretch at the front is the next piece, and `Scan.tokens` lists the pieces up to the end or up to
the first failure. Nothing is ever taken back.

The lexer reads ahead and takes back, but what it hands out is the same. `Lexer.Agrees` relates a
lexer between two tokens to a reading of the runes ahead of it, each token keeps the relation
(`next_agrees`), and so `tokenize_eq_longest_matches` holds: on every text, well-formed or not, the
tokens and the failure are those of the longest matches, and at most one token is an equality sign.
-/

namespace Reckon

/-- Whether a kind is one of the two equality signs, `=` and `==`. -/
def TokenKind.isEqualitySign : TokenKind → Bool
  | assign | equal => true
  | _ => false

/-- A piece of an equation that has no place yet: its kind and its runes. -/
structure Lexeme where
  kind : TokenKind
  runes : List Rune

/-- A reading of runes by longest match, between two tokens. -/
structure Scan where
  /-- Whether blanks and tabs between tokens are dropped. -/
  skipBlanks : Bool
  /-- Whether one of the equality signs has been read. -/
  equalsSeen : Bool
  /-- The byte offset of the first rune to come. -/
  pos : Nat
  /-- The runes to come. -/
  runes : List Rune

namespace Scan

/-- A reading from the start of a text. -/
def ofText (skipBlanks : Bool) (equation : Text) : Scan := ⟨skipBlanks, false, 0, equation.runes⟩

/-- The longest stretch of wanted characters at the front. -/
def longest (wanted : Char → Bool) (rs : List Rune) : List Rune :=
  rs.takeWhile fun r => wanted r.char

/-- The reading after a stretch at the front has been passed. -/
def pass (s : Scan) (stretch : List Rune) : Scan :=
  { s with
    pos := s.pos + (Rune.spell stretch).length
    runes := s.runes.drop stretch.length }

/-- The number spelled by a run of digits and points: a float if it has a point. A point at its
end is refused where it stands, at the last byte. -/
def number (s : Scan) (run : List Rune) : Except LexError Lexeme :=
  if run.getLast?.map Rune.char = some '.' then
    .error (.trailingDot (s.pos + (Rune.spell run).length - 1))
  else if run.any fun r => r.char == '.' then .ok ⟨.float, run⟩
  else .ok ⟨.int, run⟩

/-- The longest match at the front, or why there is none. -/
def lexeme (s : Scan) : Except LexError Lexeme :=
  match s.runes with
  | [] => .ok ⟨.eof, []⟩
  | r :: rest =>
    if r.char = '=' then
      if s.equalsSeen then .error (.duplicateEquals s.pos)
      else
        match rest with
        | r' :: _ => if r'.char = '=' then .ok ⟨.equal, [r, r']⟩ else .ok ⟨.assign, [r]⟩
        | [] => .ok ⟨.assign, [r]⟩
    else if r.char.isDigit then s.number (longest Lexer.isNumberChar s.runes)
    else if Text.isLetter r.char then .ok ⟨.identifier, longest Lexer.isNameChar s.runes⟩
    else
      match Lexer.single? r.char with
      | some kind => .ok ⟨kind, [r]⟩
      | none => .error (.symbol s.pos r.char)

/-- Passes the blanks and tabs at the front, if they are to be dropped. -/
def skip (s : Scan) : Scan := if s.skipBlanks then s.pass (longest Lexer.isSkipped s.runes) else s

/-- The token right here, with the reading after it. -/
def token (s : Scan) : Except LexError (Token × Scan) :=
  s.lexeme.map fun l =>
    (⟨l.kind, Rune.spell l.runes, s.pos⟩,
      { s.pass l.runes with equalsSeen := s.equalsSeen || l.kind.isEqualitySign })

/-- The next token, with the reading after it. -/
def next (s : Scan) : Except LexError (Token × Scan) := s.skip.token

/-! ### Reading ends -/

theorem longest_cons {wanted : Char → Bool} {r : Rune} (hw : wanted r.char = true)
    (rest : List Rune) : longest wanted (r :: rest) = r :: longest wanted rest := by
  rw [longest, List.takeWhile_cons, if_pos hw]
  rfl

/-- A number is matched by its whole run. -/
theorem number_eq_ok {s : Scan} {run : List Rune} {x : Lexeme} (h : s.number run = .ok x) :
    x.runes = run ∧ x.kind ≠ .eof ∧ x.kind.isEqualitySign = false := by
  rw [number] at h
  split at h
  · contradiction
  · split at h <;> cases h <;> exact ⟨rfl, by simp, rfl⟩

/-- A single character is matched neither as the end nor as an equality sign. -/
theorem single?_eq_some {char : Char} {kind : TokenKind} (h : Lexer.single? char = some kind) :
    kind ≠ .eof ∧ kind.isEqualitySign = false := by
  refine ⟨Lexer.ne_eof_of_single? h, ?_⟩
  unfold Lexer.single? at h
  split at h <;> cases h <;> rfl

/-- What can be matched: the end where no rune is left, and otherwise some runes, as an equality
sign only if none has been read. -/
theorem lexeme_eq_ok {s : Scan} {x : Lexeme} (h : s.lexeme = .ok x) :
    (s.runes = [] ∧ x = ⟨.eof, []⟩) ∨
      (s.runes ≠ [] ∧ x.runes ≠ [] ∧ x.kind ≠ .eof ∧
        (x.kind.isEqualitySign = true → s.equalsSeen = false)) := by
  rw [lexeme] at h
  split at h
  · rename_i hr
    cases h
    exact .inl ⟨hr, rfl⟩
  · rename_i r rest hr
    rw [hr] at h ⊢
    refine .inr ⟨List.cons_ne_nil r rest, ?_⟩
    split at h
    · -- an equality sign
      split at h
      · contradiction
      · rename_i hseen
        have hseen := Bool.eq_false_iff.mpr hseen
        split at h
        · split at h <;> cases h <;> exact ⟨List.cons_ne_nil _ _, by simp, fun _ => hseen⟩
        · cases h
          exact ⟨List.cons_ne_nil _ _, by simp, fun _ => hseen⟩
    · split at h
      · -- a number
        rename_i hd
        obtain ⟨hrun, heof, hsign⟩ := number_eq_ok h
        rw [longest_cons (by simp [Lexer.isNumberChar, hd])] at hrun
        exact ⟨by rw [hrun]; exact List.cons_ne_nil _ _, heof, by simp [hsign]⟩
      · split at h
        · -- an identifier
          rename_i hl
          cases h
          rw [longest_cons (by simp [Lexer.isNameChar, hl])]
          exact ⟨List.cons_ne_nil _ _, by simp, by simp [TokenKind.isEqualitySign]⟩
        · split at h
          · rename_i kind hs
            cases h
            obtain ⟨heof, hsign⟩ := single?_eq_some hs
            exact ⟨List.cons_ne_nil _ _, heof, by simp [hsign]⟩
          · contradiction

theorem length_runes_skip_le (s : Scan) : s.skip.runes.length ≤ s.runes.length := by
  rw [skip]
  split
  · simp [pass]
  · exact Nat.le_refl _

theorem equalsSeen_skip (s : Scan) : s.skip.equalsSeen = s.equalsSeen := by
  rw [skip]
  split <;> rfl

/-- What a token does to the reading: the end has no text, any other token takes some runes, and an
equality sign comes only where none has been read. -/
theorem next_eq_ok {s after : Scan} {t : Token} (h : s.next = .ok (t, after)) :
    (t.kind = .eof → t.text = []) ∧ (t.kind ≠ .eof → after.runes.length < s.runes.length) ∧
      (t.kind.isEqualitySign = true → s.equalsSeen = false) ∧
      after.equalsSeen = (s.equalsSeen || t.kind.isEqualitySign) := by
  unfold next token at h
  rcases hx : s.skip.lexeme with e | x <;> rw [hx] at h
  · contradiction
  · cases h
    rw [equalsSeen_skip]
    rcases lexeme_eq_ok hx with ⟨-, rfl⟩ | ⟨hs, hstretch, hk, hsign⟩
    · exact ⟨fun _ => rfl, fun hk => absurd rfl hk, by simp [TokenKind.isEqualitySign], rfl⟩
    · refine ⟨fun heof => absurd heof hk, fun _ => ?_, fun hk => ?_, rfl⟩
      · have hpos := List.length_pos_iff.mpr hstretch
        have hpos' := List.length_pos_iff.mpr hs
        have hle := length_runes_skip_le s
        simp only [pass, List.length_drop]
        omega
      · rw [← equalsSeen_skip]
        exact hsign hk

/-- The longest matches from here to the end, the end included, and the failure that cut them
short. -/
def tokens (s : Scan) : List Token × Option LexError :=
  match _h : s.next with
  | .error e => ([], some e)
  | .ok (t, after) =>
    if _hk : t.kind = .eof then ([t], none)
    else (t :: after.tokens.1, after.tokens.2)
termination_by s.runes.length
decreasing_by all_goals exact (next_eq_ok _h).2.1 _hk

section Tokens

variable {s after : Scan} {t : Token} {e : LexError}

theorem tokens_of_error (h : s.next = .error e) : s.tokens = ([], some e) := by
  rw [tokens]
  split <;> rename_i hs <;> rw [h] at hs <;> cases hs
  rfl

theorem tokens_of_eof (h : s.next = .ok (t, after)) (hk : t.kind = .eof) :
    s.tokens = ([t], none) := by
  rw [tokens]
  split <;> rename_i hs <;> rw [h] at hs <;> cases hs
  rw [dif_pos hk]

theorem tokens_of_next (h : s.next = .ok (t, after)) (hk : t.kind ≠ .eof) :
    s.tokens = (t :: after.tokens.1, after.tokens.2) := by
  rw [tokens]
  split <;> rename_i hs <;> rw [h] at hs <;> cases hs
  rw [dif_neg hk]

end Tokens

/-! ### One equality sign -/

/-- A reading produces at most one equality sign, and none after one. -/
theorem countP_tokens (s : Scan) :
    s.tokens.1.countP (fun t => t.kind.isEqualitySign) ≤ if s.equalsSeen then 0 else 1 := by
  fun_induction tokens s with
  | case1 s e hn => exact Nat.zero_le _
  | case2 s t after hn hk =>
    rw [List.countP_singleton, hk]
    exact Nat.zero_le _
  | case3 s t after hn hk ih =>
    obtain ⟨-, -, hfirst, hafter⟩ := next_eq_ok hn
    rw [List.countP_cons]
    by_cases hsign : t.kind.isEqualitySign = true
    · simp only [hafter, hsign, hfirst hsign, Bool.or_true, if_true, Bool.false_eq_true,
        if_false] at ih ⊢
      omega
    · simp only [hafter, hsign, Bool.or_false, Bool.false_eq_true, if_false] at ih ⊢
      omega

theorem countP_tokens_le (s : Scan) :
    s.tokens.1.countP (fun t => t.kind.isEqualitySign) ≤ 1 :=
  Nat.le_trans (countP_tokens s) (by split <;> omega)

end Scan

namespace Lexer

/-! ### Numbers in bytes -/

theorem toNat_lt_of_isNumberChar {c : Char} (h : isNumberChar c = true) : c.toNat < 0x80 := by
  simp only [isNumberChar, Char.isDigit, ge_iff_le, Bool.or_eq_true, Bool.and_eq_true,
    decide_eq_true_eq, beq_iff_eq, UInt32.le_iff_toNat_le] at h
  rcases h with ⟨-, h⟩ | rfl
  · exact Nat.lt_of_le_of_lt h (by decide)
  · decide

/-- ASCII characters with the same byte are the same. -/
theorem eq_of_toUInt8_eq {c d : Char} (hc : c.toNat < 0x80) (hd : d.toNat < 0x80)
    (h : c.toUInt8 = d.toUInt8) : c = d := by
  have hnat : c.toNat % 256 = d.toNat % 256 := UInt8.toNat_inj.mpr h
  rw [Nat.mod_eq_of_lt (by omega), Nat.mod_eq_of_lt (by omega)] at hnat
  rw [← Char.ofNat_toNat c, hnat, Char.ofNat_toNat]

section Number

variable {t : Text} {run : List Rune}

/-- A run of digits and points is spelled by one byte for each of them. -/
theorem spell_run (h : ∀ r ∈ run, r ∈ t.runes ∧ isNumberChar r.char = true) :
    Rune.spell run = run.map fun r => r.char.toUInt8 := by
  induction run with
  | nil => rfl
  | cons r rest ih =>
    obtain ⟨hmem, hr⟩ := h r List.mem_cons_self
    rw [Rune.spell_cons, Text.spelling_of_ascii hmem (toNat_lt_of_isNumberChar hr),
      ih fun r' hr' => h r' (List.mem_cons_of_mem _ hr')]
    rfl

/-- The last byte of a number is a point if its last character is one. -/
theorem getLast?_spell_run (h : ∀ r ∈ run, r ∈ t.runes ∧ isNumberChar r.char = true) :
    (Rune.spell run).getLast? = some '.'.toUInt8 ↔ run.getLast?.map Rune.char = some '.' := by
  rw [spell_run h, List.getLast?_map]
  rcases hl : run.getLast? with _ | r
  · simp
  · have hr := toNat_lt_of_isNumberChar (h r (List.mem_of_getLast? hl)).2
    simp only [Option.map_some, Option.some.injEq]
    exact ⟨eq_of_toUInt8_eq hr (by decide), fun h => by rw [h]⟩

/-- A number has a byte for the point if it has a point. -/
theorem mem_spell_run (h : ∀ r ∈ run, r ∈ t.runes ∧ isNumberChar r.char = true) :
    '.'.toUInt8 ∈ Rune.spell run ↔ ∃ r ∈ run, r.char = '.' := by
  rw [spell_run h, List.mem_map]
  refine exists_congr fun r => and_congr_right fun hmem => ?_
  have hr := toNat_lt_of_isNumberChar (h r hmem).2
  exact ⟨eq_of_toUInt8_eq hr (by decide), fun h => by rw [h]⟩

end Number

/-! ### The lexer reads the longest matches -/

/-- The lexer stands between two tokens, and the reading has the same to come. -/
structure Agrees (l : Lexer) (s : Scan) : Prop where
  skipBlanks_eq : s.skipBlanks = l.skipBlanks
  equalsSeen_eq : s.equalsSeen = decide (0 < l.equals)
  pos_eq : s.pos = l.cursor.pos
  runes_eq : s.runes = l.cursor.ahead.runes
  start_eq : l.start = l.cursor.pos
  failure_eq : l.failure = none

/-- The answer of a lexer is that of a reading: the same failure, or the same token and agreement
afterwards. -/
def Answers (answer : Except LexError Token × Lexer) : Except LexError (Token × Scan) → Prop
  | .error e => answer.1 = .error e
  | .ok (t, s) => answer.1 = .ok t ∧ Agrees answer.2 s

variable {l : Lexer} {s : Scan} {c : Cursor} {rs : List Rune}

theorem agrees_ofText (skipBlanks : Bool) (equation : Text) :
    Agrees (ofText skipBlanks equation) (Scan.ofText skipBlanks equation) :=
  ⟨rfl, rfl, rfl, rfl, rfl, rfl⟩

/-- Moving over some runes keeps the agreement, if the token starts afterwards. -/
theorem Agrees.pass (h : Agrees l s) (hc : l.cursor.Passes rs c) :
    Agrees { l with cursor := c, start := c.pos } (s.pass rs) where
  skipBlanks_eq := h.skipBlanks_eq
  equalsSeen_eq := h.equalsSeen_eq
  pos_eq := by simp only [Scan.pass, h.pos_eq, hc.pos_eq]
  runes_eq := by simp only [Scan.pass, h.runes_eq, hc.drop_eq]
  start_eq := rfl
  failure_eq := h.failure_eq

/-- A token handed out after the runes of the longest match is the token of that match. -/
theorem answers_emit (h : Agrees l s) {x : Lexeme} (hx : s.lexeme = .ok x)
    (hc : l.cursor.Passes x.runes c) (hk : x.kind.isEqualitySign = false) :
    Answers (l.emit x.kind c) s.token := by
  have hbytes : c.since l.start = Rune.spell x.runes := by rw [h.start_eq, hc.since_eq]
  have hp := h.pass hc
  simp only [Scan.token, hx, Except.map, emit, hbytes, hk, Bool.or_false]
  exact ⟨by rw [h.start_eq, h.pos_eq], hp⟩

/-- The same for the first equality sign, which is counted. -/
theorem answers_emit_equals (h : Agrees l s) {x : Lexeme} (hx : s.lexeme = .ok x)
    (hc : l.cursor.Passes x.runes c) (hk : x.kind.isEqualitySign = true) :
    Answers (emit { l with equals := l.equals + 1 } x.kind c) s.token := by
  have hbytes : c.since l.start = Rune.spell x.runes := by rw [h.start_eq, hc.since_eq]
  have hp := h.pass hc
  simp only [Scan.token, hx, Except.map, emit, hbytes, hk, Bool.or_true]
  refine ⟨by rw [h.start_eq, h.pos_eq], ?_⟩
  exact { hp with equalsSeen_eq := by simp }

/-- A failure of the longest match is the answer. -/
theorem answers_fail {e : LexError} (he : s.lexeme = .error e) : Answers (l.fail c e) s.token := by
  simp only [Scan.token, he, Except.map]
  rfl

/-- Reading an equality sign. -/
theorem answers_readEquals (h : Agrees l s) (hc : l.cursor.Passes [] c) {r : Rune}
    {rest : List Rune} (hr : s.runes = r :: rest) (heq : r.char = '=') :
    Answers (l.readEquals c) s.token := by
  have hpos : c.pos = s.pos := by rw [hc.pos_eq, h.pos_eq]; rfl
  have hruns : c.ahead.runes = r :: rest := by rw [← hr, h.runes_eq, hc.runes_eq]; rfl
  have hfirst := hc.trans (Cursor.passes_next hruns).2
  have hrest : c.next.2.ahead.runes = rest := by
    rw [← (Cursor.passes_next hruns).2.drop_eq, hruns]
    rfl
  rw [readEquals]
  split
  · rename_i hseen
    rw [hpos]
    refine answers_fail ?_
    simp only [Scan.lexeme, hr, heq, if_true, h.equalsSeen_eq, hseen, decide_true]
  · rename_i hseen
    have hnot : s.equalsSeen = false := by
      rw [h.equalsSeen_eq]
      exact decide_eq_false hseen
    -- the second sign decides between the two
    by_cases hsecond : ∃ r' rest', rest = r' :: rest' ∧ r'.char = '='
    · obtain ⟨r', rest', rfl, heq'⟩ := hsecond
      obtain ⟨htrue, hpass⟩ :=
        Cursor.passes_accept (· == '=') hrest (by rw [heq']; rfl)
      rcases ha : c.next.2.accept (· == '=') with ⟨b, after⟩
      rw [ha] at htrue hpass
      cases htrue
      refine answers_emit_equals (x := ⟨.equal, [r, r']⟩) h ?_ (hfirst.trans hpass) rfl
      simp only [Scan.lexeme, hr, heq, heq', hnot, if_true, Bool.false_eq_true, if_false]
    · obtain ⟨hfalse, hpass⟩ :=
        Cursor.passes_accept_none (· == '=') (c := c.next.2) (by
          rw [hrest]
          intro r' hr'
          rw [beq_eq_false_iff_ne]
          intro heq'
          obtain ⟨rest', rfl⟩ := List.head?_eq_some_iff.mp hr'
          exact hsecond ⟨r', rest', rfl, heq'⟩)
      rcases ha : c.next.2.accept (· == '=') with ⟨b, after⟩
      rw [ha] at hfalse hpass
      cases hfalse
      refine answers_emit_equals (x := ⟨.assign, [r]⟩) h ?_ (hfirst.trans hpass) rfl
      simp only [Scan.lexeme, hr, heq, hnot, if_true, Bool.false_eq_true, if_false]
      split
      · rename_i r' rest'
        rw [if_neg fun heq' => hsecond ⟨r', rest', rfl, heq'⟩]
      · rfl

/-- Reading a number. -/
theorem answers_readNumber (h : Agrees l s) (hc : l.cursor.Passes [] c)
    (hx : s.lexeme = s.number (Scan.longest isNumberChar s.runes)) :
    Answers (l.readNumber c) s.token := by
  have hruns : c.ahead.runes = s.runes := by rw [h.runes_eq, hc.runes_eq]; rfl
  have hpass := hc.trans (Cursor.passes_acceptRun isNumberChar c)
  rw [hruns] at hpass
  change l.cursor.Passes (Scan.longest isNumberChar s.runes) (c.acceptRun isNumberChar) at hpass
  have hrun : ∀ r ∈ Scan.longest isNumberChar s.runes,
      r ∈ l.cursor.ahead.runes ∧ isNumberChar r.char = true := by
    intro r hr
    rw [h.runes_eq] at hr
    exact ⟨List.takeWhile_subset _ hr, List.all_eq_true.mp List.all_takeWhile r hr⟩
  have hbytes : (c.acceptRun isNumberChar).since l.start
      = Rune.spell (Scan.longest isNumberChar s.runes) := by rw [h.start_eq, hpass.since_eq]
  have hpos : (c.acceptRun isNumberChar).pos
      = s.pos + (Rune.spell (Scan.longest isNumberChar s.runes)).length := by
    rw [hpass.pos_eq, h.pos_eq]
  unfold readNumber Scan.number at *
  simp only [hbytes, hpos, beq_iff_eq, getLast?_spell_run hrun, List.contains_iff_mem,
    mem_spell_run hrun]
  simp only [List.any_eq_true, beq_iff_eq] at hx
  split
  · rename_i hdot
    rw [if_pos hdot] at hx
    exact answers_fail hx
  · rename_i hdot
    rw [if_neg hdot] at hx
    split
    · rename_i hpoint
      rw [if_pos hpoint] at hx
      exact answers_emit h hx hpass rfl
    · rename_i hpoint
      rw [if_neg hpoint] at hx
      exact answers_emit h hx hpass rfl

/-- Reading a token that starts right here. -/
theorem answers_readToken (h : Agrees l s) : Answers l.readToken s.token := by
  obtain ⟨hchar, hc⟩ := Cursor.passes_peek l.cursor
  rw [← h.runes_eq] at hchar
  rw [readToken]
  rcases hp : l.cursor.peek with ⟨char?, c⟩
  rw [hp] at hchar hc
  rcases hr : s.runes with _ | ⟨r, rest⟩
  · rw [hr] at hchar
    cases hchar
    exact answers_emit (x := ⟨.eof, []⟩) h (by simp only [Scan.lexeme, hr]) hc rfl
  · rw [hr] at hchar
    cases hchar
    have hruns : c.ahead.runes = r :: rest := by rw [← hr, h.runes_eq, hc.runes_eq]; rfl
    dsimp only
    split
    · rename_i heq
      exact answers_readEquals h hc hr (beq_iff_eq.mp heq)
    · rename_i heq
      rw [beq_iff_eq] at heq
      split
      · rename_i hd
        refine answers_readNumber h hc ?_
        rw [Scan.lexeme]
        simp only [hr, heq, if_false, hd, if_true]
      · rename_i hd
        split
        · rename_i hl
          have hpass := hc.trans (Cursor.passes_acceptRun isNameChar c)
          rw [hruns, ← hr] at hpass
          refine answers_emit (x := ⟨.identifier, Scan.longest isNameChar s.runes⟩) h ?_ hpass rfl
          rw [Scan.lexeme]
          simp only [hr, heq, if_false, hd, hl, if_true, Bool.false_eq_true]
        · rename_i hl
          have hx : s.lexeme = match single? r.char with
              | some kind => .ok ⟨kind, [r]⟩
              | none => .error (.symbol s.pos r.char) := by
            rw [Scan.lexeme]
            simp only [hr, heq, if_false, hd, hl, Bool.false_eq_true]
          split
          · rename_i kind hs
            rw [hs] at hx
            exact answers_emit (x := ⟨kind, [r]⟩) h hx (hc.trans (Cursor.passes_next hruns).2)
              (Scan.single?_eq_some hs).2
          · rename_i hs
            rw [hs] at hx
            have hpos : c.pos = s.pos := by rw [hc.pos_eq, h.pos_eq]; rfl
            rw [hpos]
            exact answers_fail hx

/-- Moving over blanks. -/
theorem Agrees.skip (h : Agrees l s) : Agrees l.skip s.skip := by
  unfold Lexer.skip Scan.skip
  rw [h.skipBlanks_eq]
  split
  · have hpass := Cursor.passes_acceptRun isSkipped l.cursor
    rw [← h.runes_eq] at hpass
    exact h.pass hpass
  · exact h

/-- **Each token is the longest match.** A lexer that agrees with a reading of the runes answers
like it, and agrees with it again afterwards. -/
theorem next_agrees (h : Agrees l s) : Answers l.next s.next := by
  rw [Lexer.next, h.failure_eq]
  exact answers_readToken h.skip

/-- Where the lexer hands out a token, the reading has the same one. -/
theorem Agrees.next_ok {t : Token} {after : Lexer} (h : Agrees l s)
    (hn : l.next = (.ok t, after)) : ∃ s', s.next = .ok (t, s') ∧ Agrees after s' := by
  have hanswers := next_agrees h
  rw [hn] at hanswers
  rcases hs : s.next with e | ⟨t', s'⟩ <;> rw [hs] at hanswers
  · cases hanswers
  · obtain ⟨ht, hafter⟩ := hanswers
    cases ht
    exact ⟨s', rfl, hafter⟩

/-- Where the reading has a token, the lexer hands out the same one. -/
theorem Agrees.exists_next {t : Token} {s' : Scan} (h : Agrees l s)
    (hs : s.next = .ok (t, s')) : ∃ after, l.next = (.ok t, after) ∧ Agrees after s' := by
  have hanswers := next_agrees h
  rw [hs] at hanswers
  exact ⟨l.next.2, Prod.ext hanswers.1 rfl, hanswers.2⟩

/-- Where the reading fails, the lexer fails in the same way. -/
theorem Agrees.exists_next_error {e : LexError} (h : Agrees l s) (hs : s.next = .error e) :
    ∃ after, l.next = (.error e, after) := by
  have hanswers := next_agrees h
  rw [hs] at hanswers
  exact ⟨l.next.2, Prod.ext hanswers rfl⟩

/-- Where the lexer fails, the reading fails in the same way. -/
theorem Agrees.next_error {e : LexError} {after : Lexer} (h : Agrees l s)
    (hn : l.next = (.error e, after)) : s.next = .error e := by
  have hanswers := next_agrees h
  rw [hn] at hanswers
  rcases hs : s.next with e' | ⟨t', s'⟩ <;> rw [hs] at hanswers
  · cases hanswers
    rfl
  · cases hanswers.1

/-- A lexer that has just handed out a token stands between two tokens again, and the end token has
no text. -/
theorem start_of_next {t : Token} {after : Lexer} (h : l.start = l.cursor.pos)
    (hn : l.next = (.ok t, after)) :
    after.start = after.cursor.pos ∧ (t.kind = .eof → t.text = []) := by
  have hfailure : l.failure = none := by
    rcases hf : l.failure with _ | e
    · rfl
    · rw [Lexer.next, hf] at hn
      cases hn
  have hagrees : Agrees l ⟨l.skipBlanks, decide (0 < l.equals), l.cursor.pos,
      l.cursor.ahead.runes⟩ := ⟨rfl, rfl, rfl, rfl, h, hfailure⟩
  obtain ⟨s', hs, hafter⟩ := hagrees.next_ok hn
  exact ⟨hafter.start_eq, (Scan.next_eq_ok hs).1⟩

/-- All tokens from an agreement on are the longest matches. -/
theorem drain_eq_tokens (h : Agrees l s) : l.drain = s.tokens := by
  fun_induction drain l generalizing s with
  | case1 l e after hn => rw [Scan.tokens_of_error (h.next_error hn)]
  | case2 l t after hn hk =>
    obtain ⟨s', hs, -⟩ := h.next_ok hn
    rw [Scan.tokens_of_eof hs hk]
  | case3 l t after hn hk tokens failure hrest ih =>
    obtain ⟨s', hs, hafter⟩ := h.next_ok hn
    rw [Scan.tokens_of_next hs hk, ← ih hafter, hrest]

/-- **The tokens of an equation are its longest matches.** On every text, with blanks skipped or
not, the tokens and the failure are those of the reading by longest match, and at most one of the
tokens is an equality sign. -/
theorem tokenize_eq_longest_matches (skipBlanks : Bool) (equation : Text) :
    tokenize skipBlanks equation = (Scan.ofText skipBlanks equation).tokens ∧
      (tokenize skipBlanks equation).1.countP (fun t => t.kind.isEqualitySign) ≤ 1 := by
  have heq : tokenize skipBlanks equation = (Scan.ofText skipBlanks equation).tokens :=
    drain_eq_tokens (agrees_ofText skipBlanks equation)
  refine ⟨heq, ?_⟩
  rw [heq]
  exact Scan.countP_tokens_le (Scan.ofText skipBlanks equation)

example : (Scan.ofText true (Text.lit "x == 1.5=")).tokens =
    ([⟨.identifier, Text.lit "x", 0⟩, ⟨.equal, Text.lit "==", 2⟩, ⟨.float, Text.lit "1.5", 5⟩],
      some (.duplicateEquals 8)) := by decide +kernel

end Lexer

end Reckon
