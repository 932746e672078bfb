import Mathlib.Data.List.Chain
import Reckon.Proofs.Lexer.LongestMatch
import Reckon.Proofs.Parser.Literal
import Reckon.Proofs.Text.Decoding

/-!
# Equations as words with blanks between them

An equation that can be cut into tokens is a sequence of words, each with the blanks before it, and
the end is the last of them: a word without letters. `Spaced` is a token with its gap, `Spaced.text`
is the text of a sequence of them, and `Spaced.place` gives their tokens the places they have in
this text.

* Every reading without a failure is such a sequence (`Scan.exists_layout`).
* Every such sequence is read as it was put together (`Scan.tokens_of_layout`), whatever the gaps
  are, if no two neighbours are numbers or identifiers: only these could run together. Two equality
  signs could too, but there is at most one.

Both are proved for one token first (`Scan.next_eq_ok_cases`, `Scan.next_of_word`,
`Scan.next_of_end`), and then for all tokens by following the reading.
-/

namespace Reckon

/-! ### Words -/

/-- Which runes make a token, and of which kind. -/
inductive IsWord : TokenKind → List Rune → Prop
  | assign {r : Rune} (sign : r.char = '=') : IsWord .assign [r]
  | equal {r r' : Rune} (first : r.char = '=') (second : r'.char = '=') : IsWord .equal [r, r']
  | number {kind : TokenKind} {r : Rune} {rest : List Rune} (first : r.char.isDigit = true)
      (chars : ∀ x ∈ r :: rest, Lexer.isNumberChar x.char = true)
      (last : (r :: rest).getLast?.map Rune.char ≠ some '.')
      (kind_eq : kind = if (r :: rest).any (fun x => x.char == '.') then .float else .int) :
      IsWord kind (r :: rest)
  | name {r : Rune} {rest : List Rune} (first : Text.isLetter r.char = true)
      (chars : ∀ x ∈ r :: rest, Lexer.isNameChar x.char = true) : IsWord .identifier (r :: rest)
  | single {kind : TokenKind} {r : Rune} (symbol : Lexer.single? r.char = some kind) :
      IsWord kind [r]

namespace Lexer

/-- The characters that words are made of. -/
def isWordChar (c : Char) : Bool :=
  isNumberChar c || isNameChar c || c == '=' || (single? c).isSome

/-- An ASCII digit is neither a letter nor an equality sign. -/
theorem digit_cases {c : Char} (h : c.isDigit = true) : c ≠ '=' ∧ Text.isLetter c = false := by
  simp only [Char.isDigit, ge_iff_le, Bool.and_eq_true, decide_eq_true_eq,
    UInt32.le_iff_toNat_le, Char.reduceVal, UInt32.reduceToNat] at h
  refine ⟨?_, ?_⟩
  · rintro rfl
    exact absurd h (by decide)
  · have hlow : c.val < 0x80 := UInt32.lt_iff_toNat_lt.mpr (Nat.lt_of_le_of_lt h.2 (by decide))
    rw [Text.isLetter, if_pos hlow]
    have hdigits : ∀ n < 58, 48 ≤ n → (Char.ofNat n).isAlpha = false := by decide
    rw [← Char.ofNat_toNat c]
    exact hdigits c.toNat (Nat.lt_succ_of_le h.2) h.1

/-- The six symbols are no parts of numbers or identifiers, and no equality signs. -/
theorem symbol_cases {c : Char} {kind : TokenKind} (h : single? c = some kind) :
    c ≠ '=' ∧ isNumberChar c = false ∧ isNameChar c = false := by
  unfold single? at h
  split at h
  all_goals first | contradiction | decide +kernel

end Lexer

namespace IsWord

variable {kind : TokenKind} {rs : List Rune}

theorem isWordChar (h : IsWord kind rs) : ∀ r ∈ rs, Lexer.isWordChar r.char = true := by
  cases h with
  | assign sign => simp [Lexer.isWordChar, sign]
  | equal first second => simp [Lexer.isWordChar, first, second]
  | number first chars =>
    intro x hx
    simp [Lexer.isWordChar, chars x hx]
  | name first chars =>
    intro x hx
    simp [Lexer.isWordChar, chars x hx]
  | single symbol => simp [Lexer.isWordChar, symbol]

theorem ne_nil (h : IsWord kind rs) : rs ≠ [] := by
  cases h <;> exact List.cons_ne_nil _ _

theorem kind_ne_eof (h : IsWord kind rs) : kind ≠ .eof := by
  cases h with
  | assign | equal | name => simp
  | number first chars last kind_eq =>
    rw [kind_eq]
    split <;> simp
  | single symbol => exact (Scan.single?_eq_some symbol).1

end IsWord

namespace Token

/-- The text of a token is a word of its kind. -/
def IsWord (t : Token) : Prop := Reckon.IsWord t.kind t.text.runes

/-- Two tokens could not run together as numbers or identifiers. -/
def Apart (a b : Token) : Prop := a.isLiteral = true → b.isLiteral = false

/-- Two tokens could not run together, also not as equality signs. -/
def Separate (a b : Token) : Prop :=
  a.Apart b ∧ (a.kind.isEqualitySign = true → b.kind.isEqualitySign = false)

/-- A word ends before the given runes: the first of them does not go on with it. -/
def EndsBefore (t : Token) (rest : List Rune) : Prop :=
  ∀ r ∈ rest.head?,
    (t.isLiteral = true → Lexer.isNumberChar r.char = false ∧ Lexer.isNameChar r.char = false) ∧
      (t.kind = .assign → r.char ≠ '=')

variable {t : Token} {rest : List Rune}

theorem IsWord.ne_nil (h : t.IsWord) : t.text.runes ≠ [] := Reckon.IsWord.ne_nil h

theorem IsWord.length_pos (h : t.IsWord) : 0 < t.text.length := by
  refine List.length_pos_iff.mpr fun hnil => h.ne_nil ?_
  rw [hnil, Text.runes_nil]

theorem IsWord.kind_ne_eof (h : t.IsWord) : t.kind ≠ .eof := Reckon.IsWord.kind_ne_eof h

/-- A word is well formed. -/
theorem IsWord.isValid (h : t.IsWord) : t.text.isValid = true := by
  refine Text.isValid_of_char_ne fun r hr heq => ?_
  have hchar := Reckon.IsWord.isWordChar h r hr
  rw [heq] at hchar
  exact absurd hchar (by decide +kernel)

/-- There are no blanks in a word. -/
theorem IsWord.not_isSkipped (h : t.IsWord) :
    ∀ r ∈ t.text.runes, Lexer.isSkipped r.char = false := by
  intro r hr
  have hchar := Reckon.IsWord.isWordChar h r hr
  rw [Lexer.isSkipped, Bool.or_eq_false_iff, beq_eq_false_iff_ne, beq_eq_false_iff_ne]
  constructor <;> intro heq <;> rw [heq] at hchar <;> exact absurd hchar (by decide +kernel)

/-- How a word starts: one that is no number or identifier does not go on with any, and one that is
no equality sign does not go on with one. -/
theorem IsWord.head_cases (h : t.IsWord) {r : Rune} (hr : r ∈ t.text.runes.head?) :
    (t.isLiteral = false →
        Lexer.isNumberChar r.char = false ∧ Lexer.isNameChar r.char = false) ∧
      (t.kind.isEqualitySign = false → r.char ≠ '=') := by
  obtain ⟨kind, text, pos⟩ := t
  dsimp only [Token.IsWord] at h hr ⊢
  generalize text.runes = rs at h hr
  cases h with
  | assign sign =>
    cases hr
    exact ⟨fun _ => by rw [sign]; decide, fun hkind => by contradiction⟩
  | equal first second =>
    cases hr
    exact ⟨fun _ => by rw [first]; decide, fun hkind => by contradiction⟩
  | number first chars last kind_eq =>
    cases hr
    refine ⟨fun hkind => ?_, fun _ => (Lexer.digit_cases first).1⟩
    rw [Token.isLiteral, kind_eq] at hkind
    split at hkind <;> contradiction
  | name first chars =>
    cases hr
    refine ⟨fun hkind => by contradiction, fun _ heq => ?_⟩
    rw [heq] at first
    exact absurd first (by decide)
  | single symbol =>
    cases hr
    obtain ⟨hne, hother⟩ := Lexer.symbol_cases symbol
    exact ⟨fun _ => hother, fun _ => hne⟩

/-- An equality sign starts with one. -/
theorem IsWord.exists_of_isEqualitySign (h : t.IsWord) (hsign : t.kind.isEqualitySign = true) :
    ∃ r rest, t.text.runes = r :: rest ∧ r.char = '=' := by
  obtain ⟨kind, text, pos⟩ := t
  dsimp only [Token.IsWord] at h hsign ⊢
  generalize text.runes = rs at h
  cases h with
  | assign sign => exact ⟨_, [], rfl, sign⟩
  | equal first second => exact ⟨_, _, rfl, first⟩
  | number first chars last kind_eq =>
    rw [kind_eq] at hsign
    split at hsign <;> contradiction
  | name first chars => contradiction
  | single symbol =>
    rw [(Scan.single?_eq_some symbol).2] at hsign
    contradiction

end Token

namespace Scan

variable {s : Scan}

theorem longest_append {wanted : Char → Bool} {rs ss : List Rune}
    (h : ∀ r ∈ rs, wanted r.char = true) (h' : ∀ r ∈ ss.head?, wanted r.char = false) :
    longest wanted (rs ++ ss) = rs := by
  rw [longest, List.takeWhile_append_of_pos h]
  rcases ss with _ | ⟨r, ss⟩
  · simp
  · rw [List.takeWhile_cons, h' r rfl]
    simp

/-- A run is cut off at the front. -/
theorem exists_longest (wanted : Char → Bool) (rs : List Rune) :
    ∃ run after, longest wanted rs = run ∧ rs = run ++ after ∧ ∀ r ∈ run, wanted r.char = true :=
  ⟨_, rs.dropWhile fun r => wanted r.char, rfl, List.takeWhile_append_dropWhile.symm,
    List.all_eq_true.mp List.all_takeWhile⟩

/-- **What is matched is a word** at the front, or the end. -/
theorem isWord_of_lexeme {x : Lexeme} (h : s.lexeme = .ok x) (hk : x.kind ≠ .eof) :
    IsWord x.kind x.runes ∧ ∃ rest, s.runes = x.runes ++ rest := by
  rw [lexeme] at h
  split at h
  · cases h
    exact absurd rfl hk
  · rename_i r rest hr
    rw [hr] at h ⊢
    split at h
    · rename_i heq
      split at h
      · contradiction
      · split at h
        · rename_i r' rest'
          split at h <;> cases h
          · rename_i heq'
            exact ⟨.equal heq heq', rest', rfl⟩
          · exact ⟨.assign heq, r' :: rest', rfl⟩
        · cases h
          exact ⟨.assign heq, [], rfl⟩
    · split at h
      · rename_i hd
        have hfirst : Lexer.isNumberChar r.char = true := by simp [Lexer.isNumberChar, hd]
        obtain ⟨run, after, hrun, hcut, hchars⟩ := exists_longest Lexer.isNumberChar (r :: rest)
        obtain ⟨hx, -, -⟩ := number_eq_ok h
        rw [hrun] at hx h
        rw [longest_cons hfirst] at hrun
        subst hrun
        rw [number] at h
        split at h
        · contradiction
        · rename_i hlast
          rw [hx]
          refine ⟨.number hd hchars hlast ?_, after, hcut⟩
          split at h <;> cases h
          · rename_i hpoint
            rw [if_pos hpoint]
          · rename_i hpoint
            rw [if_neg hpoint]
      · split at h
        · rename_i hl
          have hfirst : Lexer.isNameChar r.char = true := by simp [Lexer.isNameChar, hl]
          obtain ⟨run, after, hrun, hcut, hchars⟩ := exists_longest Lexer.isNameChar (r :: rest)
          rw [hrun] at h
          cases h
          rw [longest_cons hfirst] at hrun
          subst hrun
          exact ⟨.name hl hchars, after, hcut⟩
        · split at h
          · rename_i kind hs
            cases h
            exact ⟨.single hs, rest, rfl⟩
          · contradiction

/-- **Why no word can be matched**: a character outside the alphabet or a second equality sign,
which is right here, or a point at the end of a number that starts here. -/
theorem lexeme_eq_error {e : LexError} (h : s.lexeme = .error e) :
    (∃ r rest, s.runes = r :: rest ∧ e = .symbol s.pos r.char) ∨
      (∃ r rest, s.runes = r :: rest ∧ r.char = '=' ∧ s.equalsSeen = true ∧
        e = .duplicateEquals s.pos) ∨
      ∃ run dot rest, s.runes = run ++ dot :: rest ∧ run ≠ [] ∧ dot.char = '.' ∧
        (∀ r ∈ run ++ [dot], Lexer.isNumberChar r.char = true) ∧
        e = .trailingDot (s.pos + (Rune.spell (run ++ [dot])).length - 1) := by
  rw [lexeme] at h
  split at h
  · contradiction
  · rename_i r rest hr
    split at h
    · rename_i hsign
      split at h
      · rename_i hseen
        cases h
        exact .inr (.inl ⟨r, rest, hr, hsign, hseen, rfl⟩)
      · split at h
        · split at h <;> contradiction
        · contradiction
    · split at h
      · rename_i hd
        obtain ⟨run, after, hrun, hcut, hchars⟩ := exists_longest Lexer.isNumberChar s.runes
        rw [hrun, number] at h
        split at h
        · rename_i hdot
          cases h
          obtain ⟨dot, hlast, hchar⟩ := Option.map_eq_some_iff.mp hdot
          obtain ⟨init, rfl⟩ := List.getLast?_eq_some_iff.mp hlast
          refine .inr (.inr ⟨init, dot, after, ?_, ?_, hchar, hchars, rfl⟩)
          · rw [hcut, List.append_assoc, List.singleton_append]
          · -- a number starts with a digit, which the point is not
            rintro rfl
            rw [hr] at hcut
            cases hcut
            rw [hchar] at hd
            exact absurd hd (by decide)
        · split at h <;> contradiction
      · split at h
        · contradiction
        · split at h
          · contradiction
          · cases h
            exact .inl ⟨r, rest, hr, rfl⟩

/-- **A word is matched** where it ends, an equality sign only if none has been read. -/
theorem lexeme_of_isWord {t : Token} (ht : t.IsWord) {rest : List Rune}
    (hsign : t.kind.isEqualitySign = true → s.equalsSeen = false) (hends : t.EndsBefore rest)
    (hs : s.runes = t.text.runes ++ rest) : s.lexeme = .ok ⟨t.kind, t.text.runes⟩ := by
  obtain ⟨kind, text, pos⟩ := t
  dsimp only [Token.IsWord] at ht
  dsimp only at hs hsign ⊢
  rw [lexeme]
  generalize text.runes = rs at ht hs ⊢
  cases ht with
  | @assign r sign =>
    rw [hs]
    simp only [List.singleton_append, sign, if_true, hsign rfl, Bool.false_eq_true, if_false]
    rcases rest with _ | ⟨r', rest⟩
    · rfl
    · have hne := (hends r' rfl).2 rfl
      simp only [hne, if_false]
  | @equal r r' first second =>
    rw [hs]
    simp only [List.cons_append, first, second, if_true, hsign rfl, Bool.false_eq_true, if_false]
  | @number kind r run first chars last kind_eq =>
    obtain ⟨hne, -⟩ := Lexer.digit_cases first
    have hrun : longest Lexer.isNumberChar (r :: run ++ rest) = r :: run := by
      refine longest_append chars fun r' hr' => ((hends r' hr').1 ?_).1
      rw [Token.isLiteral, kind_eq]
      split <;> rfl
    rw [hs, hrun, kind_eq]
    simp only [List.cons_append, hne, if_false, first, if_true]
    rw [number, if_neg last]
    split <;> rfl
  | @name r run first chars =>
    have hne : r.char ≠ '=' := by
      intro heq
      rw [heq] at first
      exact absurd first (by decide)
    have hd : ¬ r.char.isDigit = true := by
      intro hd
      rw [(Lexer.digit_cases hd).2] at first
      contradiction
    have hrun : longest Lexer.isNameChar (r :: run ++ rest) = r :: run :=
      longest_append chars fun r' hr' => ((hends r' hr').1 rfl).2
    rw [hs, hrun]
    simp only [List.cons_append, hne, if_false, hd, first, if_true, Bool.false_eq_true]
  | @single kind r symbol =>
    obtain ⟨hne, hnumber, hname⟩ := Lexer.symbol_cases symbol
    simp only [Lexer.isNumberChar, Bool.or_eq_false_iff] at hnumber
    simp only [Lexer.isNameChar, Bool.or_eq_false_iff] at hname
    rw [hs]
    simp only [List.singleton_append, hne, if_false, hnumber.1, hname.1, Bool.false_eq_true, symbol]

end Scan

/-! ### Gaps -/

namespace Lexer

/-- A blank between tokens, as a byte. -/
def isSkippedByte (b : UInt8) : Bool := b == ' '.toUInt8 || b == '\t'.toUInt8

/-- A run of blanks, as it may stand before a token. -/
def IsGap (gap : Text) : Prop := ∀ b ∈ gap, isSkippedByte b = true

theorem isGap_nil : IsGap [] := by
  intro b hb
  contradiction

/-- A blank is an ASCII byte. -/
theorem skippedByte_cases {b : UInt8} (h : isSkippedByte b = true) :
    b < 0x80 ∧ isSkipped (Char.ofNat b.toNat) = true := by
  rw [isSkippedByte, Bool.or_eq_true, beq_iff_eq, beq_iff_eq] at h
  rcases h with rfl | rfl <;> decide

/-- A gap is made of blanks, whether it is read byte by byte or rune by rune. -/
theorem IsGap.isSkipped_of_mem {gap : Text} (h : IsGap gap) :
    ∀ r ∈ gap.runes, isSkipped r.char = true := by
  rw [Text.runes_of_ascii fun b hb => (skippedByte_cases (h b hb)).1]
  intro r hr
  obtain ⟨b, hb, rfl⟩ := List.mem_map.mp hr
  exact (skippedByte_cases (h b hb)).2

theorem IsGap.isValid {gap : Text} (h : IsGap gap) : gap.isValid = true := by
  refine Text.isValid_of_char_ne fun r hr heq => ?_
  have hskipped := h.isSkipped_of_mem r hr
  rw [heq] at hskipped
  exact absurd hskipped (by decide)

/-- A rune of a text that is a blank is spelled by a blank. -/
theorem spelling_of_isSkipped {t : Text} {r : Rune} (hr : r ∈ t.runes)
    (h : isSkipped r.char = true) : ∃ b, r.spelling = [b] ∧ isSkippedByte b = true := by
  rw [isSkipped, Bool.or_eq_true, beq_iff_eq, beq_iff_eq] at h
  have hlow : r.char.toNat < 0x80 := by rcases h with h | h <;> rw [h] <;> decide
  refine ⟨r.char.toUInt8, Text.spelling_of_ascii hr hlow, ?_⟩
  rcases h with h | h <;> rw [h] <;> decide

/-- There are no blanks in a word. -/
theorem isSkippedByte_of_isWord {t : Token} (h : t.IsWord) {b : UInt8} (hb : b ∈ t.text) :
    isSkippedByte b = false := by
  refine Bool.eq_false_iff.mpr fun hskip => ?_
  obtain ⟨hlow, hskipped⟩ := skippedByte_cases hskip
  have hchar := h.not_isSkipped _ (Text.mem_runes_of_mem hb hlow)
  rw [hskipped] at hchar
  contradiction

/-- A blank goes on with no word. -/
theorem skipped_cases {c : Char} (h : isSkipped c = true) :
    c ≠ '=' ∧ isNumberChar c = false ∧ isNameChar c = false := by
  rw [isSkipped, Bool.or_eq_true, beq_iff_eq, beq_iff_eq] at h
  rcases h with rfl | rfl <;> decide

end Lexer

namespace Scan

variable {s : Scan} {gap t : Text} {rs : List Rune}

/-- The reading with less to come. -/
def moved (s : Scan) (n : Nat) (rs : List Rune) : Scan := { s with pos := s.pos + n, runes := rs }

/-- A gap is skipped up to the first rune that is no blank. -/
theorem skip_of_gap (hgap : Lexer.IsGap gap) (hskip : s.skipBlanks = false → gap = [])
    (hs : s.runes = gap.runes ++ rs) (hrs : ∀ r ∈ rs.head?, Lexer.isSkipped r.char = false) :
    s.skip = s.moved gap.length rs := by
  rw [skip]
  split
  · rw [hs, longest_append hgap.isSkipped_of_mem hrs, pass, moved, Text.spell_runes, hs,
      List.drop_left]
  · rename_i hnot
    obtain rfl := hskip (Bool.eq_false_iff.mpr hnot)
    rw [Text.runes_nil, List.nil_append] at hs
    rw [moved, ← hs]
    rfl

/-- What is skipped is a gap. -/
theorem exists_gap (hs : s.runes = t.runes) :
    ∃ gap rest, t = gap ++ rest ∧ Lexer.IsGap gap ∧ (s.skipBlanks = false → gap = []) ∧
      s.skip = s.moved gap.length rest.runes := by
  rw [skip]
  split
  · rename_i hskip
    obtain ⟨run, after, hrun, hcut, hblank⟩ := exists_longest Lexer.isSkipped s.runes
    have hrunes : t.runes = run ++ after := hs.symm.trans hcut
    obtain ⟨rest, ht, hrest⟩ := Text.exists_of_runes_eq_append hrunes
    refine ⟨Rune.spell run, rest, ht, ?_, fun hnot => ?_, ?_⟩
    · intro b hb
      obtain ⟨r, hr, hbr⟩ := List.mem_flatMap.mp hb
      have hmem : r ∈ t.runes := hrunes ▸ List.mem_append_left after hr
      obtain ⟨b', hspelling, hb'⟩ := Lexer.spelling_of_isSkipped hmem (hblank r hr)
      rw [hspelling, List.mem_singleton] at hbr
      rwa [hbr]
    · rw [hskip] at hnot
      contradiction
    · rw [hrun, pass, moved, hcut, List.drop_left, hrest]
  · exact ⟨[], t, rfl, Lexer.isGap_nil, fun _ => rfl, by rw [moved, ← hs]; rfl⟩

end Scan

/-! ### Words with gaps -/

/-- A token with the blanks before it. -/
structure Spaced where
  gap : Text
  token : Token

namespace Spaced

/-- The text of a sequence of tokens with the blanks before them. -/
def text (ws : List Spaced) : Text := ws.flatMap fun w => w.gap ++ w.token.text

/-- The tokens with the places they have in a text that starts at the given one. -/
def place : Nat → List Spaced → List Token
  | _, [] => []
  | p, w :: ws =>
    { w.token with pos := p + w.gap.length } ::
      place (p + w.gap.length + w.token.text.length) ws

/-- The blanks before a token may stand there: if they are not skipped, there are none. -/
def Fits (skipBlanks : Bool) (w : Spaced) : Prop :=
  Lexer.IsGap w.gap ∧ (skipBlanks = false → w.gap = [])

@[simp]
theorem text_nil : text [] = [] := rfl

@[simp]
theorem text_cons (w : Spaced) (ws : List Spaced) :
    text (w :: ws) = w.gap ++ (w.token.text ++ text ws) := List.append_assoc _ _ _

end Spaced

/-- Words up to the end, with at most one equality sign, and none if there has been one before. -/
inductive Words : Bool → List Token → Prop
  | last {seen : Bool} {t : Token} (kind : t.kind = .eof) (text : t.text = []) : Words seen [t]
  | cons {seen : Bool} {t : Token} {ts : List Token} (word : t.IsWord)
      (sign : t.kind.isEqualitySign = true → seen = false)
      (rest : Words (seen || t.kind.isEqualitySign) ts) : Words seen (t :: ts)

/-- Words are the end alone, or a word before others. -/
theorem Words.cons_cases {seen : Bool} {t : Token} {ts : List Token} (h : Words seen (t :: ts)) :
    (ts = [] ∧ t.kind = .eof ∧ t.text = []) ∨
      (t.IsWord ∧ (t.kind.isEqualitySign = true → seen = false) ∧
        Words (seen || t.kind.isEqualitySign) ts) := by
  cases h with
  | last kind text => exact .inl ⟨rfl, kind, text⟩
  | cons word sign rest => exact .inr ⟨word, sign, rest⟩

/-- All but the last are words, and the last has no text. -/
theorem Words.isWord_of_append {seen : Bool} {ts : List Token} {last : Token}
    (h : Words seen (ts ++ [last])) : (∀ t ∈ ts, t.IsWord) ∧ last.text = [] := by
  induction ts generalizing seen with
  | nil =>
    rcases h.cons_cases with ⟨-, -, htext⟩ | ⟨-, -, hrest⟩
    · exact ⟨by simp, htext⟩
    · cases hrest
  | cons t ts ih =>
    rcases h.cons_cases with ⟨hnil, -, -⟩ | ⟨hword, -, hrest⟩
    · simp at hnil
    · obtain ⟨hwords, htext⟩ := ih hrest
      exact ⟨List.forall_mem_cons.mpr ⟨hword, hwords⟩, htext⟩

namespace Scan

variable {s after : Scan} {token : Token} {text : Text} {w : Spaced}

/-- **A token is a word after a gap**, or the end after one. -/
theorem next_eq_ok_cases (hs : s.runes = text.runes) (h : s.next = .ok (token, after)) :
    ∃ gap rest, text = gap ++ (token.text ++ rest) ∧ Spaced.Fits s.skipBlanks ⟨gap, token⟩ ∧
      token.pos = s.pos + gap.length ∧
      after = ⟨s.skipBlanks, s.equalsSeen || token.kind.isEqualitySign,
        token.pos + token.text.length, rest.runes⟩ ∧
      ((token.kind = .eof ∧ token.text = [] ∧ rest = []) ∨
        token.IsWord ∧ token.kind ≠ .eof ∧
          (token.kind.isEqualitySign = true → s.equalsSeen = false)) := by
  obtain ⟨gap, rest, rfl, hgap, hskip, hmoved⟩ := exists_gap hs
  rw [next, hmoved, Scan.token] at h
  rcases hx : (s.moved gap.length rest.runes).lexeme with e | x <;> rw [hx] at h
  · contradiction
  · cases h
    rcases lexeme_eq_ok hx with ⟨hnil, rfl⟩ | ⟨-, -, hk, hsign⟩
    · have hrest : rest = [] := by
        rw [← Text.spell_runes rest]
        exact congrArg Rune.spell hnil
      exact ⟨gap, [], by simp [hrest], ⟨hgap, hskip⟩, rfl, by simp [pass, moved, hrest],
        .inl ⟨rfl, rfl, rfl⟩⟩
    · obtain ⟨hword, last, hlast⟩ := isWord_of_lexeme hx hk
      have hruns : rest.runes = x.runes ++ last := hlast
      obtain ⟨rest', hcut, hrest'⟩ := Text.exists_of_runes_eq_append hruns
      refine ⟨gap, rest', by rw [hcut], ⟨hgap, hskip⟩, rfl, ?_, .inr ⟨?_, hk, hsign⟩⟩
      · simp only [pass, moved, hruns, List.drop_left, hrest']
      · rw [Token.IsWord, Text.runes_spell_of_append hruns]
        exact hword

/-- A token is missed where no word can be matched. -/
theorem lexeme_of_next_error {e : LexError} (h : s.next = .error e) :
    s.skip.lexeme = .error e := by
  rw [next, Scan.token] at h
  rcases hx : s.skip.lexeme with e' | x <;> rw [hx] at h <;> cases h
  rfl

/-- A token is missed where no word can be matched after a gap. -/
theorem next_eq_error_cases {e : LexError} (hs : s.runes = text.runes) (h : s.next = .error e) :
    ∃ gap rest, text = gap ++ rest ∧ Lexer.IsGap gap ∧ (s.skipBlanks = false → gap = []) ∧
      s.skip = s.moved gap.length rest.runes ∧
      (s.moved gap.length rest.runes).lexeme = .error e := by
  obtain ⟨gap, rest, htext, hgap, hskip, hmoved⟩ := exists_gap hs
  exact ⟨gap, rest, htext, hgap, hskip, hmoved, hmoved ▸ lexeme_of_next_error h⟩

/-- A gap before a word is skipped. -/
theorem skip_of_word (hfits : w.Fits s.skipBlanks) (hword : w.token.IsWord)
    (hs : s.runes = (w.gap ++ (w.token.text ++ text)).runes) :
    s.skip = s.moved w.gap.length (w.token.text.runes ++ text.runes) := by
  rw [Text.runes_append hfits.1.isValid, Text.runes_append hword.isValid] at hs
  refine skip_of_gap hfits.1 hfits.2 hs fun r hr => ?_
  rw [List.head?_append_of_ne_nil _ hword.ne_nil] at hr
  exact hword.not_isSkipped r (List.mem_of_mem_head? hr)

/-- A word after a gap is read, if it ends where the rest starts. -/
theorem next_of_word (hfits : w.Fits s.skipBlanks) (hword : w.token.IsWord)
    (hsign : w.token.kind.isEqualitySign = true → s.equalsSeen = false)
    (hends : w.token.EndsBefore text.runes)
    (hs : s.runes = (w.gap ++ (w.token.text ++ text)).runes) :
    s.next = .ok ({ w.token with pos := s.pos + w.gap.length },
      ⟨s.skipBlanks, s.equalsSeen || w.token.kind.isEqualitySign,
        s.pos + w.gap.length + w.token.text.length, text.runes⟩) := by
  have hlexeme : (s.moved w.gap.length (w.token.text.runes ++ text.runes)).lexeme =
      .ok ⟨w.token.kind, w.token.text.runes⟩ := lexeme_of_isWord hword hsign hends rfl
  rw [next, skip_of_word hfits hword hs, Scan.token, hlexeme]
  simp only [Except.map, pass, moved, Text.spell_runes, List.drop_left]

/-- A second equality sign after a gap is refused. -/
theorem next_of_second_sign (hfits : w.Fits s.skipBlanks) (hword : w.token.IsWord)
    (hsign : w.token.kind.isEqualitySign = true) (hseen : s.equalsSeen = true)
    (hs : s.runes = (w.gap ++ (w.token.text ++ text)).runes) :
    s.next = .error (.duplicateEquals (s.pos + w.gap.length)) := by
  obtain ⟨r, rest, hr, hchar⟩ := hword.exists_of_isEqualitySign hsign
  have hlexeme : (s.moved w.gap.length (w.token.text.runes ++ text.runes)).lexeme =
      .error (.duplicateEquals (s.pos + w.gap.length)) := by
    simp only [lexeme, moved, hr, List.cons_append, hchar, hseen, if_true]
  rw [next, skip_of_word hfits hword hs, Scan.token, hlexeme]
  rfl

/-- The end after a gap is read. -/
theorem next_of_end (hfits : w.Fits s.skipBlanks) (hs : s.runes = w.gap.runes) :
    ∃ after, s.next = .ok (⟨.eof, [], s.pos + w.gap.length⟩, after) := by
  have hmoved : s.skip = s.moved w.gap.length [] :=
    skip_of_gap hfits.1 hfits.2 (hs.trans (List.append_nil _).symm) (by simp)
  rw [next, hmoved, Scan.token]
  exact ⟨_, rfl⟩

/-! ### Whole texts -/

/-- **A reading without a failure is a sequence of words with gaps.** -/
theorem exists_layout {ts : List Token} (hs : s.runes = text.runes) (h : s.tokens = (ts, none)) :
    ∃ ws : List Spaced, Spaced.text ws = text ∧ ws.map Spaced.token = ts ∧
      Spaced.place s.pos ws = ts ∧ (∀ w ∈ ws, w.Fits s.skipBlanks) ∧ Words s.equalsSeen ts := by
  fun_induction tokens s generalizing text ts with
  | case1 => cases h
  | case2 s t after hn hk =>
    cases h
    obtain ⟨gap, rest, rfl, hfits, hpos, -, hend | ⟨-, hk', -⟩⟩ := next_eq_ok_cases hs hn
    · obtain ⟨-, htext, rfl⟩ := hend
      refine ⟨[⟨gap, t⟩], by simp, rfl, ?_, by simpa using hfits, .last hk htext⟩
      rw [Spaced.place, Spaced.place, ← hpos]
    · exact absurd hk hk'
  | case3 s t after hn hk ih =>
    obtain ⟨hts, hnone⟩ := Prod.mk.inj h
    obtain ⟨gap, rest, rfl, hfits, hpos, hafter, hend | ⟨hword, -, hsign⟩⟩ := next_eq_ok_cases hs hn
    · exact absurd hend.1 hk
    · subst hafter hts
      obtain ⟨ws, htext, htokens, hplace, hfitss, hwords⟩ := ih rfl (Prod.ext rfl hnone)
      refine ⟨⟨gap, t⟩ :: ws, ?_, ?_, ?_, ?_, .cons hword hsign hwords⟩
      · rw [Spaced.text_cons, htext]
      · rw [List.map_cons, htokens]
      · rw [Spaced.place, ← hpos, hplace]
      · exact List.forall_mem_cons.mpr ⟨hfits, hfitss⟩

/-- A word ends before a gap, and without one where it ends before what comes next. -/
theorem endsBefore_gap {gap : Text} (hgap : Lexer.IsGap gap)
    (h : token.EndsBefore text.runes) : token.EndsBefore (gap ++ text).runes := by
  intro r hr
  rw [Text.runes_append hgap.isValid] at hr
  rcases hruns : gap.runes with _ | ⟨blank, blanks⟩ <;> rw [hruns] at hr
  · exact h r hr
  · have hblank := hgap.isSkipped_of_mem blank (hruns ▸ List.mem_cons_self)
    cases hr
    obtain ⟨hne, hother⟩ := Lexer.skipped_cases hblank
    exact ⟨fun _ => hother, fun _ => hne⟩

/-- A word ends before another one, unless both are numbers or identifiers or both equality
signs. -/
theorem endsBefore_word {next : Token} (hword : next.IsWord) (hseparate : token.Separate next)
    (text : Text) : token.EndsBefore (next.text ++ text).runes := by
  intro r hr
  rw [Text.runes_append hword.isValid, List.head?_append_of_ne_nil _ hword.ne_nil] at hr
  obtain ⟨hother, hne⟩ := hword.head_cases hr
  refine ⟨fun h => hother (hseparate.1 h), fun h => hne (hseparate.2 ?_)⟩
  rw [h]
  rfl

/-- A word ends before other words with gaps, unless it and the next one are both numbers or
identifiers or both equality signs. -/
theorem endsBefore_text {v : Spaced} {vs : List Spaced} {seen : Bool} (hgap : Lexer.IsGap v.gap)
    (hwords : Words seen ((v :: vs).map Spaced.token))
    (hapart : token.Apart v.token)
    (hsign : token.kind.isEqualitySign = true → seen = true) :
    token.EndsBefore (Spaced.text (v :: vs)).runes := by
  rw [Spaced.text_cons]
  refine endsBefore_gap hgap ?_
  rcases hwords.cons_cases with ⟨hvs, -, htext⟩ | ⟨hword, hsign', -⟩
  · rw [htext, List.map_eq_nil_iff.mp hvs, Spaced.text_nil, List.nil_append, Text.runes_nil]
    exact fun r hr => absurd hr (by simp)
  · refine endsBefore_word hword ⟨hapart, fun h => Bool.eq_false_iff.mpr fun hboth => ?_⟩ _
    have hseen := hsign h
    rw [hsign' hboth] at hseen
    contradiction

/-- **A sequence of words with gaps is read as it was put together**, if no numbers or identifiers
are neighbours. -/
theorem tokens_of_layout {ws : List Spaced} (hfits : ∀ w ∈ ws, w.Fits s.skipBlanks)
    (hwords : Words s.equalsSeen (ws.map Spaced.token))
    (hchain : (ws.map Spaced.token).IsChain Token.Apart)
    (hs : s.runes = (Spaced.text ws).runes) : s.tokens = (Spaced.place s.pos ws, none) := by
  induction ws generalizing s with
  | nil => cases hwords
  | cons w ws ih =>
    obtain ⟨hw, hws⟩ := List.forall_mem_cons.mp hfits
    rcases hwords.cons_cases with ⟨hnil, hkind, htext⟩ | ⟨hword, hsign, hrest⟩
    · -- the end is the last one
      obtain rfl : ws = [] := List.map_eq_nil_iff.mp hnil
      rw [Spaced.text_cons, htext, Spaced.text_nil, List.nil_append, List.append_nil] at hs
      obtain ⟨after, hn⟩ := next_of_end hw hs
      have hend : w.token = ⟨.eof, [], w.token.pos⟩ := by rw [← hkind, ← htext]
      rw [tokens_of_eof hn rfl, Spaced.place, Spaced.place, hend]
    · rcases ws with _ | ⟨v, vs⟩
      · cases hrest
      · have hapart := (List.isChain_cons_cons.mp hchain).1
        have hends : w.token.EndsBefore (Spaced.text (v :: vs)).runes :=
          endsBefore_text (hws v List.mem_cons_self).1 hrest hapart (by simp +contextual)
        have hn := next_of_word hw hword hsign hends (by rw [hs, Spaced.text_cons])
        rw [tokens_of_next hn hword.kind_ne_eof, Spaced.place]
        -- all that follows is read from where the word ends
        generalize hafter : Scan.mk _ _ _ _ = after
        have htail : after.tokens = (Spaced.place after.pos (v :: vs), none) := by
          subst hafter
          exact ih hws hrest hchain.tail rfl
        rw [htail, ← hafter]

end Scan

/-- Where nothing is left, the lexer hands out the end. -/
theorem Lexer.Agrees.exists_next_of_nil {l : Lexer} {s : Scan} (h : Agrees l s)
    (hs : s.runes = []) : ∃ after, l.next = (.ok ⟨.eof, [], s.pos⟩, after) := by
  have hfits : Spaced.Fits s.skipBlanks ⟨[], .eof, [], 0⟩ := ⟨isGap_nil, fun _ => rfl⟩
  obtain ⟨s', hnext⟩ := Scan.next_of_end hfits (hs.trans Text.runes_nil.symm)
  obtain ⟨after, hafter, -⟩ := h.exists_next hnext
  exact ⟨after, hafter⟩

end Reckon
