import Mathlib.Data.Bool.AllAny
import Reckon.Proofs.Parser.Blanks

/-!
# Equations in brackets

Two equations can be put together: each in brackets, with an operator between them. If the parts
are read as trees, `parse_bracketed` says what becomes of the whole. Its tree is the two trees under
the operator, with the places moved by what is before them. But an equation has at most one equality
sign, so the whole is refused at the second one, wherever it is, although both parts are equations.

`PhraseAt skipBlanks p phrase ws tree` is a phrase as it stands in an equation from the place `p`
on: words with their gaps (`Laid`), and the tree that they derive. It is put in brackets
(`PhraseAt.enclosed`) and next to an operator (`PhraseAt.operator`) whatever equality signs it has,
and what is read of it is found out afterwards:

* the lexer hands out all words up to the second sign (`Lexer.yields_of_words`), for no two of them
  could run together (`Checker.Takes.isChain`);
* the checker has nothing against any of them (`Derives.takes`), so it is the lexer that fails.
-/

namespace Reckon

/-! ### The checker along a phrase -/

namespace Checker

/-- The checker takes tokens one after another. -/
inductive Takes : Checker → List Token → Checker → Prop
  | nil (c : Checker) : Takes c [] c
  | cons {c c' c'' : Checker} {t : Token} {tokens : List Token}
      (first : c.step t = .ok (some c')) (rest : Takes c' tokens c'') : Takes c (t :: tokens) c''

variable {c c' c'' : Checker} {tokens tokens' : List Token} {l l' : Lexer} {t t' : Token}

theorem Takes.append (h : Takes c tokens c') (h' : Takes c' tokens' c'') :
    Takes c (tokens ++ tokens') c'' := by
  induction h with
  | nil => exact h'
  | cons first _ ih => exact .cons first (ih h')

/-- The checker takes the first tokens of a sequence that it takes, and has its verdict from what
comes after them. -/
theorem Takes.run_eq (h : Takes c (tokens ++ tokens') c') (hl : l.Yields tokens l') :
    ∃ c'' : Checker, c.run l = c''.run l' := by
  induction hl generalizing c with
  | nil => exact ⟨c, rfl⟩
  | @cons l l₁ l₂ t tokens first _ ih =>
    rw [List.cons_append] at h
    rcases h with _ | ⟨hstep, hrest⟩
    obtain ⟨c'', hrun⟩ := ih hrest
    exact ⟨c'', by rw [run_of_next first, resume_of_step hstep, hrun]⟩

/-- What is expected after a number, an identifier or an equality sign. -/
theorem expected_after_step (h : c.step t = .ok (some c')) :
    (t.isLiteral = true → c'.expected = .operator) ∧
      (t.kind.isEqualitySign = true → c'.expected = .operand) := by
  rcases step_cases h with ⟨-, ht, rfl⟩ | ⟨-, ht, rfl⟩ | ⟨-, ht, rfl⟩ | ⟨-, ht, -, -, -, rfl⟩
  · refine ⟨fun _ => rfl, fun hsign => ?_⟩
    cases hk : t.kind <;> simp [hk, Token.isLiteral, TokenKind.isEqualitySign] at ht hsign
  · simp [ht, Token.isLiteral, TokenKind.isEqualitySign]
  · refine ⟨fun hliteral => ?_, fun _ => rfl⟩
    cases hk : t.kind <;> simp [hk, Token.isLiteral, TokenKind.isOperator] at ht hliteral
  · simp [ht, Token.isLiteral, TokenKind.isEqualitySign]

/-- No number or identifier is taken for an operator, and no equality sign for an operand. -/
theorem expected_before_step (h : c.step t = .ok (some c')) :
    (c.expected = .operator → t.isLiteral = false) ∧
      (c.expected = .operand → t.kind.isEqualitySign = false) := by
  rcases step_cases h with ⟨hc, ht, -⟩ | ⟨hc, ht, -⟩ | ⟨hc, ht, -⟩ | ⟨hc, ht, -⟩
  · refine ⟨by simp [hc], fun _ => ?_⟩
    cases hk : t.kind <;> simp [hk, Token.isLiteral, TokenKind.isEqualitySign] at ht ⊢
  · simp [ht, Token.isLiteral, TokenKind.isEqualitySign]
  · refine ⟨fun _ => ?_, by simp [hc]⟩
    cases hk : t.kind <;> simp [hk, Token.isLiteral, TokenKind.isOperator] at ht ⊢
  · simp [ht, Token.isLiteral, TokenKind.isEqualitySign]

/-- **Tokens that the checker takes could not run together.** -/
theorem Takes.isChain (h : Takes c tokens c') : tokens.IsChain Token.Separate := by
  induction h with
  | nil => exact .nil
  | @cons c c₁ c₂ t tokens first rest ih =>
    refine ih.cons fun t' ht' => ?_
    obtain ⟨tokens, rfl⟩ := List.head?_eq_some_iff.mp ht'
    rcases rest with _ | ⟨second, -⟩
    obtain ⟨hliteral, hsign⟩ := expected_after_step first
    obtain ⟨hliteral', hsign'⟩ := expected_before_step second
    exact ⟨fun ht => hliteral' (hliteral ht), fun ht => hsign' (hsign ht)⟩

end Checker

/-- **The checker takes every phrase**, whichever brackets are open. -/
theorem Derives.takes {phrase : Phrase} {tokens : List Token} {tree : Expr}
    (h : Derives phrase tokens tree) (hconv : ∀ t ∈ tokens, t.Converts) (brackets : List Token) :
    Checker.Takes ⟨.operand, brackets⟩ tokens ⟨.operator, brackets⟩ := by
  induction h generalizing brackets with
  | @int t kind | @float t kind | @identifier t kind =>
    have hstep := Checker.step_literal brackets (t := t) (by simp [Token.isLiteral, kind])
    rw [if_pos (hconv t List.mem_cons_self)] at hstep
    exact .cons hstep (.nil _)
  | @group left right tokens tree hleft inner hright ih =>
    have hinner := ih (fun t ht => hconv t (by simp [ht])) (left :: brackets)
    have hclose := Checker.step_rightParen brackets hright left
    exact .cons (Checker.step_leftParen brackets hleft) (hinner.append (.cons hclose (.nil _)))
  | @chain phrase part first tree links hpart head operators parts ih ih' =>
    obtain ⟨hfirst, hlinks⟩ := List.forall_mem_append.mp hconv
    have hhead := ih hfirst brackets
    clear ih hconv hfirst head tree parts
    -- one link after another is taken behind what has been taken already
    induction links generalizing first with
    | nil => rwa [List.flatMap_nil, List.append_nil]
    | cons k links ihlinks =>
      obtain ⟨hop, operators⟩ := List.forall_mem_cons.mp operators
      obtain ⟨hk, ih'⟩ := List.forall_mem_cons.mp ih'
      rw [List.flatMap_cons] at hlinks ⊢
      obtain ⟨hconv, hlinks⟩ := List.forall_mem_append.mp hlinks
      have hpower : 0 < k.operator.kind.power := by
        rw [(phrase.mem_operators_iff _).mp hop]
        exact Nat.succ_pos _
      have hpart := hk (fun t ht => hconv t (List.mem_cons_of_mem _ ht)) brackets
      have hlink := Checker.Takes.cons (Checker.step_operator brackets hpower) hpart
      rw [← List.append_assoc]
      exact ihlinks operators ih' hlinks (hhead.append hlink)

/-! ### The lexer along words -/

/-- The places of the equality signs among some tokens. -/
def Token.signs (tokens : List Token) : List Nat :=
  (tokens.filter fun t => t.kind.isEqualitySign).map Token.pos

namespace Token

theorem signs_append (ts us : List Token) : signs (ts ++ us) = signs ts ++ signs us := by
  rw [signs, List.filter_append, List.map_append]
  rfl

theorem signs_relocate (f : Nat → Nat) (ts : List Token) :
    signs (ts.map (relocate f)) = (signs ts).map f := by
  rw [signs, signs, List.filter_map, List.map_map, List.map_map]
  rfl

end Token

namespace Spaced

/-- Whether a word is an equality sign. -/
def isSign (w : Spaced) : Bool := w.token.kind.isEqualitySign

variable {ws vs : List Spaced} {p n : Nat}

theorem text_append (ws vs : List Spaced) : text (ws ++ vs) = text ws ++ text vs :=
  List.flatMap_append

theorem place_append (p : Nat) (ws vs : List Spaced) :
    place p (ws ++ vs) = place p ws ++ place (p + (text ws).length) vs := by
  induction ws generalizing p with
  | nil => rfl
  | cons w ws ih =>
    rw [List.cons_append, place, place, ih, text_cons, List.cons_append, List.length_append,
      List.length_append, ← Nat.add_assoc, ← Nat.add_assoc]

theorem length_place (p : Nat) (ws : List Spaced) : (place p ws).length = ws.length := by
  induction ws generalizing p with
  | nil => rfl
  | cons w ws ih => rw [place, List.length_cons, List.length_cons, ih]

/-- If there are two equality signs or more, one of the words is the second one. -/
theorem exists_second_sign (h : 2 ≤ (Token.signs (ws.map token)).length) :
    ∃ front w back, ws = front ++ w :: back ∧ front.countP isSign = 1 ∧ w.isSign = true ∧
      (Token.signs (ws.map token))[1]? = some w.token.pos := by
  have hsigns : Token.signs (ws.map token) = (ws.filter isSign).map fun w => w.token.pos := by
    rw [Token.signs, List.filter_map, List.map_map]
    rfl
  rw [hsigns, List.length_map] at h
  rcases hfilter : ws.filter isSign with _ | ⟨v, _ | ⟨w, rest⟩⟩
  · simp [hfilter] at h
  · simp [hfilter] at h
  · obtain ⟨front, rest', rfl, hfront, hv, hrest⟩ := List.filter_eq_cons_iff.mp hfilter
    obtain ⟨middle, back, rfl, hmiddle, hw, -⟩ := List.filter_eq_cons_iff.mp hrest
    refine ⟨front ++ v :: middle, w, back, by simp, ?_, hw, by rw [hsigns, hfilter]; rfl⟩
    rw [List.countP_append, List.countP_cons_of_pos hv, List.countP_eq_zero.mpr hfront,
      List.countP_eq_zero.mpr hmiddle]

end Spaced

namespace Scan

/-- The reading behind some words. -/
def behind (s : Scan) (ws : List Spaced) (text : Text) : Scan :=
  ⟨s.skipBlanks, s.equalsSeen || ws.any Spaced.isSign, s.pos + (Spaced.text ws).length, text.runes⟩

end Scan

namespace Lexer

/-- **Words with gaps are read one after another** up to any of them, if no two of them could run
together and at most one of those before is an equality sign. -/
theorem yields_of_words {l : Lexer} {s : Scan} (h : Agrees l s) {ws vs : List Spaced}
    (hfits : ∀ w ∈ ws ++ vs, w.Fits s.skipBlanks) (hwords : ∀ w ∈ ws ++ vs, w.token.IsWord)
    (hchain : ((ws ++ vs).map Spaced.token).IsChain Token.Separate)
    (hsigns : s.equalsSeen.toNat + ws.countP Spaced.isSign ≤ 1)
    (hs : s.runes = (Spaced.text (ws ++ vs)).runes) :
    ∃ l', l.Yields (Spaced.place s.pos ws) l' ∧ Agrees l' (s.behind ws (Spaced.text vs)) := by
  induction ws generalizing l s with
  | nil =>
    refine ⟨l, .nil l, ?_⟩
    have hsame : s.behind [] (Spaced.text vs) = s := by
      rw [List.nil_append] at hs
      rw [Scan.behind, List.any_nil, Bool.or_false, Spaced.text_nil, ← hs]
      rfl
    rwa [hsame]
  | cons w ws ih =>
    rw [List.cons_append] at hfits hwords hchain hs
    obtain ⟨hfit, hfits⟩ := List.forall_mem_cons.mp hfits
    obtain ⟨hword, hwords⟩ := List.forall_mem_cons.mp hwords
    have hends : w.token.EndsBefore (Spaced.text (ws ++ vs)).runes := by
      rcases hrest : ws ++ vs with _ | ⟨v, rest⟩
      · rw [Spaced.text_nil, Text.runes_nil]
        exact fun r hr => absurd hr (by simp)
      · rw [hrest] at hfits hwords hchain
        have hseparate := (List.isChain_cons_cons.mp hchain).1
        rw [Spaced.text_cons]
        exact Scan.endsBefore_gap (hfits v List.mem_cons_self).1
          (Scan.endsBefore_word (hwords v List.mem_cons_self) hseparate _)
    -- a sign here is the first one, and then there is none to come
    obtain ⟨hsign, hsigns⟩ : (w.isSign = true → s.equalsSeen = false) ∧
        (s.equalsSeen || w.isSign).toNat + ws.countP Spaced.isSign ≤ 1 := by
      rw [List.countP_cons] at hsigns
      generalize ws.countP Spaced.isSign = k at hsigns ⊢
      cases hseen : s.equalsSeen <;> cases hw : w.isSign <;> simp [hseen, hw] at hsigns ⊢ <;> omega
    obtain ⟨l₁, hnext, hafter⟩ := h.exists_next
      (Scan.next_of_word hfit hword hsign hends (by rw [hs, Spaced.text_cons]))
    obtain ⟨l', hyields, hl'⟩ := ih hafter hfits hwords hchain.tail hsigns rfl
    refine ⟨l', .cons hnext hyields, ?_⟩
    convert hl' using 1
    simp [Scan.behind, Spaced.isSign, Bool.or_assoc, Nat.add_assoc]

end Lexer

/-! ### Phrases as they stand in an equation -/

namespace Spaced

variable {ws : List Spaced}

/-- A word with its place moved. -/
def relocate (f : Nat → Nat) (w : Spaced) : Spaced := { w with token := w.token.relocate f }

theorem text_map_relocate (f : Nat → Nat) (ws : List Spaced) :
    text (ws.map (relocate f)) = text ws := List.flatMap_map _ _ _

theorem map_token_relocate (f : Nat → Nat) (ws : List Spaced) :
    (ws.map (relocate f)).map token = (ws.map token).map (Token.relocate f) := by
  rw [List.map_map, List.map_map]
  rfl

theorem place_map_relocate (p n : Nat) (ws : List Spaced) :
    place (p + n) (ws.map (relocate (· + n))) = (place p ws).map (Token.relocate (· + n)) := by
  induction ws generalizing p with
  | nil => rfl
  | cons w ws ih =>
    have hrest := ih (p + w.gap.length + w.token.text.length)
    rw [List.map_cons, place, place, List.map_cons, ← hrest]
    congr 1
    · rw [Token.relocate, Nat.add_right_comm]
      rfl
    · congr 1
      simp only [relocate, Token.relocate]
      omega

end Spaced

/-- Words with gaps as they stand in an equation, from a place on. -/
structure Laid (skipBlanks : Bool) (p : Nat) (ws : List Spaced) : Prop where
  fits : ∀ w ∈ ws, w.Fits skipBlanks
  words : ∀ w ∈ ws, w.token.IsWord
  /-- The words are where they say. -/
  place_eq : Spaced.place p ws = ws.map Spaced.token

namespace Laid

variable {skipBlanks : Bool} {p : Nat} {ws vs : List Spaced} {w : Spaced}

theorem single {gap : Text} {kind : TokenKind} {text : Text} (hgap : Lexer.IsGap gap)
    (hskip : skipBlanks = false → gap = []) (hword : IsWord kind text.runes) (p : Nat) :
    Laid skipBlanks p [⟨gap, kind, text, p + gap.length⟩] where
  fits := List.forall_mem_singleton.mpr ⟨hgap, hskip⟩
  words := List.forall_mem_singleton.mpr hword
  place_eq := rfl

theorem append {q : Nat} (h : Laid skipBlanks p ws) (h' : Laid skipBlanks q vs)
    (hq : q = p + (Spaced.text ws).length) : Laid skipBlanks p (ws ++ vs) where
  fits := List.forall_mem_append.mpr ⟨h.fits, h'.fits⟩
  words := List.forall_mem_append.mpr ⟨h.words, h'.words⟩
  place_eq := by rw [Spaced.place_append, ← hq, h.place_eq, h'.place_eq, List.map_append]

theorem moved (h : Laid skipBlanks p ws) (n : Nat) :
    Laid skipBlanks (p + n) (ws.map (Spaced.relocate (· + n))) where
  fits := List.forall_mem_map.mpr h.fits
  words := List.forall_mem_map.mpr h.words
  place_eq := by rw [Spaced.place_map_relocate, h.place_eq, Spaced.map_token_relocate]

/-- The first words of an equation stand there, and behind them the others. -/
theorem split (h : Laid skipBlanks p (ws ++ vs)) :
    Laid skipBlanks p ws ∧ Laid skipBlanks (p + (Spaced.text ws).length) vs := by
  obtain ⟨hfits, hfits'⟩ := List.forall_mem_append.mp h.fits
  obtain ⟨hwords, hwords'⟩ := List.forall_mem_append.mp h.words
  have hplace := h.place_eq
  rw [Spaced.place_append, List.map_append] at hplace
  obtain ⟨hws, hvs⟩ := List.append_inj hplace (by rw [Spaced.length_place, List.length_map])
  exact ⟨⟨hfits, hwords, hws⟩, ⟨hfits', hwords', hvs⟩⟩

end Laid

/-- A text in brackets. -/
def Text.inBrackets (s : Text) : Text := Text.lit "(" ++ s ++ Text.lit ")"

theorem Text.length_inBrackets (s : Text) : s.inBrackets.length = s.length + 2 := by
  have hleft : (Text.lit "(").length = 1 := rfl
  have hright : (Text.lit ")").length = 1 := rfl
  rw [inBrackets, List.length_append, List.length_append, hleft, hright]
  omega

namespace Spaced

/-- Words in brackets, with the gap before the closing one. -/
def enclosed (p : Nat) (ws : List Spaced) (gap : Text) : List Spaced :=
  ⟨[], .leftParen, Text.lit "(", p⟩ :: (ws.map (relocate (· + (p + 1))) ++
    [⟨gap, .rightParen, Text.lit ")", p + 1 + (text ws).length + gap.length⟩])

theorem text_enclosed (p : Nat) (ws : List Spaced) (gap : Text) :
    text (enclosed p ws gap) = (text ws ++ gap).inBrackets := by
  simp [enclosed, text_append, text_map_relocate, Text.inBrackets]

end Spaced

namespace IsWord

/-- An operator is spelled by its name. -/
theorem operator {kind : TokenKind} (h : kind.isOperator = true) :
    IsWord kind kind.name.runes := by
  cases kind with
  | plus | minus | times | divide =>
    rw [Text.runes_of_ascii (List.all_iff_forall_prop.mp rfl)]
    exact .single rfl
  | assign =>
    rw [Text.runes_of_ascii (List.all_iff_forall_prop.mp rfl)]
    exact .assign rfl
  | equal =>
    rw [Text.runes_of_ascii (List.all_iff_forall_prop.mp rfl)]
    exact .equal rfl rfl
  | _ => contradiction

theorem leftParen : IsWord .leftParen (Text.lit "(").runes := by
  rw [Text.runes_of_ascii (List.all_iff_forall_prop.mp rfl)]
  exact .single rfl

theorem rightParen : IsWord .rightParen (Text.lit ")").runes := by
  rw [Text.runes_of_ascii (List.all_iff_forall_prop.mp rfl)]
  exact .single rfl

end IsWord

/-- A phrase as it stands in an equation, from a place on, and the tree that it derives. -/
structure PhraseAt (skipBlanks : Bool) (p : Nat) (phrase : Phrase) (ws : List Spaced)
    (tree : Expr) : Prop extends Laid skipBlanks p ws where
  converts : ∀ w ∈ ws, w.token.Converts
  derives : Derives phrase (ws.map Spaced.token) tree

namespace PhraseAt

variable {skipBlanks : Bool} {p : Nat} {phrase : Phrase} {ws vs : List Spaced}
  {tree left right : Expr} {gap : Text}

/-- An equation in brackets is a factor. -/
theorem enclosed (h : PhraseAt skipBlanks 0 .equation ws tree) (hgap : Lexer.IsGap gap)
    (hskip : skipBlanks = false → gap = []) (p : Nat) :
    PhraseAt skipBlanks p .factor (Spaced.enclosed p ws gap) (tree.relocate (· + (p + 1))) where
  toLaid := by
    have hleft : Laid skipBlanks p [⟨[], .leftParen, Text.lit "(", p⟩] :=
      .single Lexer.isGap_nil (fun _ => rfl) .leftParen p
    have hinner : Laid skipBlanks (0 + (p + 1)) _ := h.toLaid.moved (p + 1)
    have hright := Laid.single hgap hskip .rightParen (p + 1 + (Spaced.text ws).length)
    refine hleft.append (hinner.append hright ?_) (Nat.zero_add _)
    rw [Spaced.text_map_relocate, Nat.zero_add]
  converts := by
    refine List.forall_mem_cons.mpr ⟨by simp [Token.Converts], ?_⟩
    refine List.forall_mem_append.mpr ⟨List.forall_mem_map.mpr h.converts, ?_⟩
    exact List.forall_mem_singleton.mpr (by simp [Token.Converts])
  derives := by
    rw [Spaced.enclosed, List.map_cons, List.map_append, Spaced.map_token_relocate]
    exact .group rfl (h.derives.relocate _) rfl

/-- A factor is an equation. -/
theorem equation (h : PhraseAt skipBlanks p .factor ws tree) :
    PhraseAt skipBlanks p .equation ws tree :=
  { h with derives := Derives.of_le (show 0 ≤ 3 by omega) h.derives }

/-- An operator between two factors makes an equation of them. -/
theorem operator {kind : TokenKind} {q : Nat} (hkind : kind.isOperator = true)
    (h : PhraseAt skipBlanks p .factor ws left)
    (h' : PhraseAt skipBlanks (q + kind.name.length) .factor vs right)
    (hq : q = p + (Spaced.text ws).length) :
    PhraseAt skipBlanks p .equation (ws ++ ⟨[], kind, kind.name, q⟩ :: vs)
      (.binary left ⟨kind, kind.name, q⟩ right) where
  toLaid := by
    have hmiddle : Laid skipBlanks q [⟨[], kind, kind.name, q⟩] :=
      .single Lexer.isGap_nil (fun _ => rfl) (.operator hkind) q
    refine h.toLaid.append (hmiddle.append h'.toLaid ?_) hq
    simp
  converts := by
    have hop : Token.Converts ⟨kind, kind.name, q⟩ := by
      cases kind <;> simp [Token.Converts, TokenKind.isOperator] at hkind ⊢
    exact List.forall_mem_append.mpr ⟨h.converts, List.forall_mem_cons.mpr ⟨hop, h'.converts⟩⟩
  derives := by
    have hpos := (Checker.isOperator_iff_power_pos kind).mp hkind
    have hle := kind.power_le_three
    obtain ⟨c, hc⟩ : ∃ c, kind.power = c + 1 := ⟨kind.power - 1, by omega⟩
    -- the operator makes a chain of the power just below its own
    have hleft : Derives (.ofPower c) (ws.map Spaced.token) left :=
      Derives.of_le (show c ≤ 3 by omega) h.derives
    have hright : Derives (.ofPower (c + 1)) (vs.map Spaced.token) right :=
      Derives.of_le (show c + 1 ≤ 3 by omega) h'.derives
    have hmem : kind ∈ (Phrase.ofPower c).operators := by
      rw [Phrase.mem_operators_iff, hc, Phrase.power_ofPower (by omega)]
    rw [List.map_append]
    refine Derives.of_le (Nat.zero_le c) ?_
    exact hleft.snoc (Phrase.part?_ofPower (by omega)) hmem hright

/-- The lexer hands out the words of a phrase up to the second equality sign. -/
theorem yields (h : PhraseAt skipBlanks 0 phrase (ws ++ vs) tree)
    (hsigns : ws.countP Spaced.isSign ≤ 1) :
    ∃ l, (Lexer.ofText skipBlanks (Spaced.text (ws ++ vs))).Yields (ws.map Spaced.token) l ∧
      l.Agrees ⟨skipBlanks, ws.any Spaced.isSign, (Spaced.text ws).length,
        (Spaced.text vs).runes⟩ := by
  have hchain := (h.derives.takes (List.forall_mem_map.mpr h.converts) []).isChain
  obtain ⟨l, hyields, hl⟩ := Lexer.yields_of_words (Lexer.agrees_ofText skipBlanks _)
    h.fits h.words hchain (by simpa [Scan.ofText] using hsigns) rfl
  refine ⟨l, ?_, ?_⟩
  · rwa [← h.toLaid.split.1.place_eq]
  · simpa [Scan.behind, Scan.ofText] using hl

/-- **A phrase with at most one equality sign is read as its tree.** -/
theorem parse_eq_ok (h : PhraseAt skipBlanks 0 .equation ws tree)
    (hsigns : ws.countP Spaced.isSign ≤ 1) : parse skipBlanks (Spaced.text ws) = .ok tree := by
  rw [← List.append_nil ws] at h
  obtain ⟨l, hyields, hl⟩ := h.yields hsigns
  rw [List.append_nil] at h hyields
  -- behind the words there is the end
  obtain ⟨l', hnext⟩ := hl.exists_next_of_nil Text.runes_nil
  have htokens := (hyields.snoc hnext).drain_eq h.derives.kind_ne_eof rfl
  exact parse_of_derives htokens rfl (List.forall_mem_map.mpr h.converts) h.derives

/-- **A phrase is refused at the second equality sign**, where the lexer fails. -/
theorem parse_eq_error {w : Spaced} (h : PhraseAt skipBlanks 0 phrase (ws ++ w :: vs) tree)
    (hsigns : ws.countP Spaced.isSign = 1) (hw : w.isSign = true) :
    Lexer.tokenize skipBlanks (Spaced.text (ws ++ w :: vs)) =
        (ws.map Spaced.token, some (.duplicateEquals w.token.pos)) ∧
      parse skipBlanks (Spaced.text (ws ++ w :: vs)) =
        .error (.lexical (.duplicateEquals w.token.pos)) := by
  obtain ⟨l, hyields, hl⟩ := h.yields (Nat.le_of_eq hsigns)
  have hseen : ws.any Spaced.isSign = true := by
    rw [List.any_eq_true, ← List.countP_pos_iff]
    omega
  have hrest := h.toLaid.split.2
  have hpos : w.token.pos = (Spaced.text ws).length + w.gap.length := by
    have hplace := (List.cons.inj hrest.place_eq).1
    rw [← hplace, Nat.zero_add]
  obtain ⟨l', hnext⟩ := hl.exists_next_error
    (Scan.next_of_second_sign (hrest.fits w List.mem_cons_self)
      (hrest.words w List.mem_cons_self) hw hseen (congrArg Text.runes (Spaced.text_cons w vs)))
  rw [← hpos] at hnext
  refine ⟨?_, ?_⟩
  · have hkinds : ∀ t ∈ ws.map Spaced.token, t.kind ≠ .eof := fun t ht =>
      h.derives.kind_ne_eof t (by simp at ht ⊢; exact .inl ht)
    rw [Lexer.tokenize, hyields.drain_append hkinds, Lexer.drain_of_next_error hnext,
      List.append_nil]
  · -- the checker has come there without a verdict
    have htakes := h.derives.takes (List.forall_mem_map.mpr h.converts) []
    rw [List.map_append] at htakes
    obtain ⟨c, hrun⟩ := htakes.run_eq hyields
    exact parse_of_run_error (hrun.trans (Checker.run_of_next_error hnext c))

/-- **An equation that is read stands there as a phrase**, with a gap behind it. -/
theorem of_parse {equation : Text} (h : parse skipBlanks equation = .ok tree) :
    ∃ ws gap, Spaced.text ws ++ gap = equation ∧ Lexer.IsGap gap ∧
      (skipBlanks = false → gap = []) ∧ PhraseAt skipBlanks 0 .equation ws tree ∧
      Token.signs (ws.map Spaced.token) = Token.signs (Lexer.tokenize skipBlanks equation).1 := by
  obtain ⟨tokens, eof, hlexed, heof, hconv, hderives⟩ := derives_of_parse h
  obtain ⟨ws', htext, htokens, hplace, hfits, hwords, -⟩ := exists_layout_of_parse h
  rw [hlexed] at htokens
  obtain ⟨ws, last, rfl, rfl, hlast⟩ := List.map_eq_append_iff.mp htokens
  obtain ⟨w, rfl, rfl⟩ := List.map_eq_singleton_iff.mp hlast
  rw [List.map_append] at hwords
  obtain ⟨hwords, hend⟩ := hwords.isWord_of_append
  obtain ⟨hfits, hfit⟩ := List.forall_mem_append.mp hfits
  obtain ⟨hgap, hskip⟩ := List.forall_mem_singleton.mp hfit
  rw [Spaced.place_append, List.map_append] at hplace
  have hplace := List.append_inj_left hplace (by rw [Spaced.length_place, List.length_map])
  refine ⟨ws, w.gap, ?_, hgap, hskip, ⟨⟨hfits, ?_, hplace⟩, ?_, hderives⟩, ?_⟩
  · rw [← htext, Spaced.text_append, Spaced.text_cons, hend, Spaced.text_nil, List.append_nil,
      List.append_nil]
  · exact List.forall_mem_map.mp hwords
  · exact List.forall_mem_map.mp hconv
  · rw [hlexed, Token.signs_append]
    simp [Token.signs, heof, TokenKind.isEqualitySign]

end PhraseAt

namespace Spaced

/-- Brackets move the equality signs inside them. -/
theorem signs_enclosed (p : Nat) (ws : List Spaced) (gap : Text) :
    Token.signs ((enclosed p ws gap).map token) =
      (Token.signs (ws.map token)).map (· + (p + 1)) := by
  rw [enclosed, List.map_cons, List.map_append, map_token_relocate, ← Token.signs_relocate]
  simp [Token.signs, TokenKind.isEqualitySign]

theorem length_signs (ws : List Spaced) :
    (Token.signs (ws.map token)).length = ws.countP isSign := by
  rw [Token.signs, List.length_map, ← List.countP_eq_length_filter, List.countP_map]
  rfl

end Spaced

/-- There is at most one equality sign among the tokens of a text. -/
theorem Lexer.length_signs_tokenize_le (skipBlanks : Bool) (equation : Text) :
    (Token.signs (tokenize skipBlanks equation).1).length ≤ 1 := by
  rw [Token.signs, List.length_map, ← List.countP_eq_length_filter, tokenize,
    drain_eq_tokens (agrees_ofText skipBlanks equation)]
  exact Scan.countP_tokens_le (Scan.ofText skipBlanks equation)

/-! ### Two equations and an operator -/

section Bracketed

variable (skipBlanks : Bool) (s₁ : Text) (op : TokenKind) (s₂ : Text)

/-- Two texts in brackets, with an operator between them. -/
def bracketed : Text := s₁.inBrackets ++ (op.name ++ s₂.inBrackets)

/-- The operator between two texts in brackets. -/
def bracketedOperator : Token := ⟨op, op.name, s₁.length + 2⟩

/-- The places of the equality signs of two texts and of the operator, as they are when the texts
are put in brackets. -/
def bracketedSigns : List Nat :=
  (Token.signs (Lexer.tokenize skipBlanks s₁).1).map (· + 1) ++
    (Token.signs [bracketedOperator s₁ op] ++
      (Token.signs (Lexer.tokenize skipBlanks s₂).1).map (· + (s₁.length + op.name.length + 3)))

end Bracketed

/-- Two equations in brackets, as they stand around an operator. -/
theorem PhraseAt.bracketed {skipBlanks : Bool} {s₁ s₂ : Text} {t₁ t₂ : Expr} {op : TokenKind}
    (h₁ : parse skipBlanks s₁ = .ok t₁) (h₂ : parse skipBlanks s₂ = .ok t₂)
    (hop : op.isOperator = true) :
    ∃ ws, Spaced.text ws = Reckon.bracketed s₁ op s₂ ∧
      Token.signs (ws.map Spaced.token) = bracketedSigns skipBlanks s₁ op s₂ ∧
      PhraseAt skipBlanks 0 .equation ws (.binary (t₁.relocate (· + 1)) (bracketedOperator s₁ op)
        (t₂.relocate (· + (s₁.length + op.name.length + 3)))) := by
  obtain ⟨ws₁, gap₁, htext₁, hgap₁, hskip₁, hphrase₁, hsigns₁⟩ := of_parse h₁
  obtain ⟨ws₂, gap₂, htext₂, hgap₂, hskip₂, hphrase₂, hsigns₂⟩ := of_parse h₂
  have hleft := hphrase₁.enclosed hgap₁ hskip₁ 0
  have hright := hphrase₂.enclosed hgap₂ hskip₂ (s₁.length + 2 + op.name.length)
  have hplace : s₁.length + 2 + op.name.length + 1 = s₁.length + op.name.length + 3 := by omega
  have hq : s₁.length + 2 = 0 + (Spaced.text (Spaced.enclosed 0 ws₁ gap₁)).length := by
    rw [Spaced.text_enclosed, htext₁, Text.length_inBrackets, Nat.zero_add]
  rw [hplace] at hright
  refine ⟨_, ?_, ?_, .operator hop hleft hright hq⟩
  · rw [Spaced.text_append, Spaced.text_cons, Spaced.text_enclosed, Spaced.text_enclosed, htext₁,
      htext₂]
    rfl
  · rw [List.map_append, List.map_cons, ← List.singleton_append, Token.signs_append,
      Token.signs_append, Spaced.signs_enclosed, Spaced.signs_enclosed, hsigns₁, hsigns₂, hplace]
    rfl

/-- **Equations in brackets.** Let two texts be read as trees and be put in brackets around an
operator.

* If there is at most one equality sign in all, the whole is read as the two trees under the
  operator, each with its places moved by what is before it.
* If there are more, the whole is refused at the second one: the tokens before it have one sign.
* One text in brackets is read as its tree, with the places moved by the bracket. -/
theorem parse_bracketed {skipBlanks : Bool} {s₁ s₂ : Text} {t₁ t₂ : Expr} {op : TokenKind}
    (h₁ : parse skipBlanks s₁ = .ok t₁) (h₂ : parse skipBlanks s₂ = .ok t₂)
    (hop : op.isOperator = true) :
    ((bracketedSigns skipBlanks s₁ op s₂).length ≤ 1 →
      parse skipBlanks (bracketed s₁ op s₂) =
        .ok (.binary (t₁.relocate (· + 1)) (bracketedOperator s₁ op)
          (t₂.relocate (· + (s₁.length + op.name.length + 3))))) ∧
    (2 ≤ (bracketedSigns skipBlanks s₁ op s₂).length →
      ∃ p, (bracketedSigns skipBlanks s₁ op s₂)[1]? = some p ∧
        (Token.signs (Lexer.tokenize skipBlanks (bracketed s₁ op s₂)).1).length = 1 ∧
        (Lexer.tokenize skipBlanks (bracketed s₁ op s₂)).2 = some (.duplicateEquals p) ∧
        parse skipBlanks (bracketed s₁ op s₂) = .error (.lexical (.duplicateEquals p))) ∧
    parse skipBlanks s₁.inBrackets = .ok (t₁.relocate (· + 1)) := by
  obtain ⟨ws, htext, hsigns, hphrase⟩ := PhraseAt.bracketed h₁ h₂ hop
  rw [← htext, ← hsigns]
  refine ⟨fun hfew => ?_, fun hmany => ?_, ?_⟩
  · rw [Spaced.length_signs] at hfew
    exact hphrase.parse_eq_ok hfew
  · obtain ⟨front, w, back, rfl, hfront, hw, hsecond⟩ := Spaced.exists_second_sign hmany
    obtain ⟨htokens, hparse⟩ := hphrase.parse_eq_error hfront hw
    refine ⟨w.token.pos, hsecond, ?_, by rw [htokens], hparse⟩
    rw [htokens, Spaced.length_signs, hfront]
  · obtain ⟨ws₁, gap₁, htext₁, hgap₁, hskip₁, hphrase₁, hsigns₁⟩ := PhraseAt.of_parse h₁
    have hfactor := hphrase₁.enclosed hgap₁ hskip₁ 0
    have hone : (Spaced.enclosed 0 ws₁ gap₁).countP Spaced.isSign ≤ 1 := by
      rw [← Spaced.length_signs, Spaced.signs_enclosed, List.length_map, hsigns₁]
      exact Lexer.length_signs_tokenize_le skipBlanks s₁
    rw [← htext₁, ← Spaced.text_enclosed 0]
    exact hfactor.equation.parse_eq_ok hone

/-- For example, `a=b` in brackets: with `b` as a factor it has one equality sign, and with itself
as a summand it has two, of which the second is refused. -/
theorem parse_bracketed_of_assignment :
    let assignment (p : Nat) : Expr :=
      .binary (.identifier (Text.lit "a")) ⟨.assign, Text.lit "=", p⟩ (.identifier (Text.lit "b"))
    parse false (Text.lit "a=b") = .ok (assignment 1) ∧
      parse false (Text.lit "b") = .ok (.identifier (Text.lit "b")) ∧
      parse false (Text.lit "(a=b)*(b)") =
        .ok (.binary (assignment 2) ⟨.times, Text.lit "*", 5⟩ (.identifier (Text.lit "b"))) ∧
      parse false (Text.lit "(a=b)+(a=b)") = .error (.lexical (.duplicateEquals 8)) := by
  intro assignment
  have hlexed : (Scan.ofText false (Text.lit "a=b")).tokens = ([⟨.identifier, Text.lit "a", 0⟩,
      ⟨.assign, Text.lit "=", 1⟩, ⟨.identifier, Text.lit "b", 2⟩, ⟨.eof, [], 3⟩], none) := by
    decide +kernel
  have hlexed' : (Scan.ofText false (Text.lit "b")).tokens =
      ([⟨.identifier, Text.lit "b", 0⟩] ++ [⟨.eof, [], 1⟩], none) := by
    decide +kernel
  have hread : parse false (Text.lit "a=b") = .ok (assignment 1) :=
    parse_of_two_names hlexed rfl rfl rfl rfl
  have htokens := (Lexer.drain_eq_tokens (Lexer.agrees_ofText false (Text.lit "a=b"))).trans hlexed
  have htokens' := (Lexer.drain_eq_tokens (Lexer.agrees_ofText false (Text.lit "b"))).trans hlexed'
  have hread' : parse false (Text.lit "b") = .ok (.identifier (Text.lit "b")) :=
    parse_of_derives htokens' rfl (by simp [Token.Converts])
      (Derives.of_le (show 0 ≤ 3 by omega) (.identifier rfl))
  have hone : bracketedSigns false (Text.lit "a=b") .times (Text.lit "b") = [2] := by
    rw [bracketedSigns, Lexer.tokenize, htokens, Lexer.tokenize, htokens']
    decide
  have htwo : bracketedSigns false (Text.lit "a=b") .plus (Text.lit "a=b") = [2, 8] := by
    rw [bracketedSigns, Lexer.tokenize, htokens]
    decide
  refine ⟨hread, hread', ?_, ?_⟩
  · exact (parse_bracketed hread hread' rfl).1 (by rw [hone]; decide)
  · have hplus : TokenKind.plus.isOperator = true := rfl
    obtain ⟨p, hp, -, -, hparse⟩ :=
      (parse_bracketed hread hread hplus).2.1 (by rw [htwo]; decide)
    rw [htwo] at hp
    cases hp
    exact hparse

end Reckon
