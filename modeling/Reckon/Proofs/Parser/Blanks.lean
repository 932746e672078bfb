import Reckon.Proofs.Lexer.Layout
import Reckon.Proofs.Parser.FirstProblem
import Reckon.Proofs.Parser.Grammar

/-!
# Blanks between tokens do not matter

An equation that is read with its blanks skipped is read as the same tree without them, and an
equation that is read without blanks is read as the same tree with blanks put between its tokens.
Only the places of the operators move, by the blanks before them. `parse_ignores_blanks` says so in
both directions, and that skipping makes no difference where there is nothing to skip.

Taking blanks away could make one token of two. It does not, because the grammar lets no two numbers
or identifiers be neighbours (`Derives.isChain`), and the rest of the argument is
`Scan.tokens_of_layout`. Trees follow their tokens when these move (`Derives.relocate`), so it is
enough to follow the tokens: `Spaced.place_solid` when blanks are taken away, and
`Spaced.place_of_solid` when they are put in.
-/

namespace Reckon

/-! ### Tokens and trees in other places -/

/-- A token with its place moved. -/
def Token.relocate (f : Nat → Nat) (t : Token) : Token := { t with pos := f t.pos }

/-- A tree with the places of its operators moved. -/
def Expr.relocate (f : Nat → Nat) : Expr → Expr
  | int n => int n
  | float x => float x
  | identifier name => identifier name
  | binary left operator right =>
    binary (left.relocate f) (operator.relocate f) (right.relocate f)
  | hole => hole

theorem Token.relocate_literal (f : Nat → Nat) (t : Token) :
    t.literal.relocate f = (t.relocate f).literal := by
  simp only [Token.literal, Token.relocate]
  split <;> rfl

namespace Derives

variable {phrase : Phrase} {tokens : List Token} {tree : Expr}

/-- **A tree moves with its tokens.** -/
theorem relocate (h : Derives phrase tokens tree) (f : Nat → Nat) :
    Derives phrase (tokens.map (Token.relocate f)) (tree.relocate f) := by
  induction h with
  | int kind =>
    rw [Token.relocate_literal]
    exact .int kind
  | float kind =>
    rw [Token.relocate_literal]
    exact .float kind
  | identifier kind =>
    rw [Token.relocate_literal]
    exact .identifier kind
  | group left inner right ih =>
    rw [List.map_cons, List.map_append]
    exact .group left ih right
  | @chain phrase part first tree links hpart head operators parts ih ih' =>
    have hchain := chain
      (links.map fun k => ⟨k.operator.relocate f, k.part.map (Token.relocate f), k.tree.relocate f⟩)
      hpart ih (by simpa [Token.relocate] using operators) (by simpa using ih')
    convert hchain using 1
    · rw [List.map_append, List.map_flatMap, List.flatMap_map]
      rfl
    · clear ih ih' hchain parts operators head
      induction links generalizing tree with
      | nil => rfl
      | cons k links ihlinks =>
        rw [List.foldl_cons, ihlinks]
        rfl

/-- Something else between two parts keeps numbers and identifiers apart. -/
theorem isChain_append_cons {ts us : List Token} {t : Token} (ht : t.isLiteral = false)
    (hts : ts.IsChain Token.Apart) (hus : us.IsChain Token.Apart) :
    (ts ++ t :: us).IsChain Token.Apart := by
  have htus : (t :: us).IsChain Token.Apart := by
    refine hus.cons fun y _ hliteral => ?_
    rw [ht] at hliteral
    contradiction
  refine List.isChain_append.mpr ⟨hts, htus, fun x _ y hy _ => ?_⟩
  cases hy
  exact ht

/-- **No two neighbours are numbers or identifiers.** -/
theorem isChain (h : Derives phrase tokens tree) : tokens.IsChain Token.Apart := by
  induction h with
  | int kind | float kind | identifier kind => exact .singleton _
  | @group l r tokens tree left inner right ih =>
    have hl : l.isLiteral = false := by simp [Token.isLiteral, left]
    have hr : r.isLiteral = false := by simp [Token.isLiteral, right]
    exact isChain_append_cons hl .nil (isChain_append_cons hr ih .nil)
  | @chain phrase part first tree links hpart head operators parts ih ih' =>
    clear hpart head parts
    -- one link after another is put behind what is there already
    induction links generalizing first with
    | nil => rwa [List.flatMap_nil, List.append_nil]
    | cons k links ihlinks =>
      obtain ⟨hop, hops⟩ := List.forall_mem_cons.mp operators
      obtain ⟨hpart, hparts⟩ := List.forall_mem_cons.mp ih'
      have hk : k.operator.isLiteral = false := by
        cases phrase <;> simp [Phrase.operators] at hop <;>
          rcases hop with hop | hop <;> simp [Token.isLiteral, hop]
      rw [List.flatMap_cons, ← List.append_assoc]
      exact ihlinks hops (isChain_append_cons hk ih hpart) hparts

end Derives

/-- The parser only sees the tokens: where these have moved, the tree has moved with them. -/
theorem parse_of_tokenize_relocate {skipBlanks skipBlanks' : Bool} {equation equation' : Text}
    {tree : Expr} (f : Nat → Nat) (h : parse skipBlanks equation = .ok tree)
    (htokens : Lexer.tokenize skipBlanks' equation' =
      ((Lexer.tokenize skipBlanks equation).1.map (Token.relocate f), none)) :
    parse skipBlanks' equation' = .ok (tree.relocate f) := by
  obtain ⟨tokens, eof, hlexed, heof, hconv, hderives⟩ := derives_of_parse h
  rw [hlexed, List.map_append] at htokens
  refine parse_of_derives htokens heof ?_ (hderives.relocate f)
  intro t ht
  obtain ⟨u, hu, rfl⟩ := List.mem_map.mp ht
  exact hconv u hu

/-! ### Blanks taken away -/

namespace Lexer

/-- A text without its blanks and tabs. -/
def withoutBlanks (equation : Text) : Text := equation.filter fun b => !isSkippedByte b

/-- How many bytes before a place are neither blanks nor tabs. -/
def solidBefore (equation : Text) (p : Nat) : Nat := (withoutBlanks (equation.take p)).length

theorem withoutBlanks_append (t u : Text) :
    withoutBlanks (t ++ u) = withoutBlanks t ++ withoutBlanks u := List.filter_append t u

theorem withoutBlanks_of_isGap {gap : Text} (h : IsGap gap) : withoutBlanks gap = [] := by
  rw [withoutBlanks, List.filter_eq_nil_iff]
  intro b hb
  simp [h b hb]

/-- A text without blanks has none among its runes. -/
theorem not_isSkipped_of_solid {t : Text} (h : ∀ b ∈ t, isSkippedByte b = false) :
    ∀ r ∈ t.runes, isSkipped r.char = false := by
  intro r hr
  refine Bool.eq_false_iff.mpr fun hskip => ?_
  obtain ⟨b, hspelling, hb⟩ := spelling_of_isSkipped hr hskip
  have hmem : b ∈ t := Text.mem_of_mem_runes hr (hspelling ▸ List.mem_singleton_self b)
  rw [h b hmem] at hb
  contradiction

theorem withoutBlanks_of_solid {t : Text} (h : ∀ b ∈ t, isSkippedByte b = false) :
    withoutBlanks t = t := by
  rw [withoutBlanks, List.filter_eq_self]
  intro b hb
  simp [h b hb]

end Lexer

/-- There are no blanks in words. -/
theorem Words.isSkippedByte {seen : Bool} {ts : List Token} (h : Words seen ts) :
    ∀ t ∈ ts, ∀ b ∈ t.text, Lexer.isSkippedByte b = false := by
  induction h with
  | last kind text => simp [text]
  | cons word sign rest ih =>
    exact List.forall_mem_cons.mpr ⟨fun b hb => Lexer.isSkippedByte_of_isWord word hb, ih⟩

namespace Spaced

open Lexer

variable {ws : List Spaced}

/-- Tokens without blanks before them. -/
def solid (ts : List Token) : List Spaced := ts.map (Spaced.mk [])

@[simp]
theorem solid_cons (t : Token) (ts : List Token) : solid (t :: ts) = ⟨[], t⟩ :: solid ts := rfl

@[simp]
theorem map_token_solid (ts : List Token) : (solid ts).map token = ts := by
  rw [solid, List.map_map]
  exact List.map_id ts

theorem fits_solid {skipBlanks : Bool} (ts : List Token) :
    ∀ w ∈ solid ts, w.Fits skipBlanks := by
  intro w hw
  obtain ⟨t, -, rfl⟩ := List.mem_map.mp hw
  exact ⟨isGap_nil, fun _ => rfl⟩

/-- Without gaps, nothing but the tokens is left. -/
theorem eq_solid (h : ∀ w ∈ ws, w.gap = []) : ws = solid (ws.map token) := by
  rw [solid, List.map_map]
  refine (List.map_id ws).symm.trans (List.map_congr_left fun w hw => ?_)
  obtain ⟨gap, t⟩ := w
  obtain rfl : gap = [] := h _ hw
  rfl

/-- Words without gaps are the text without blanks. -/
theorem text_solid (hgaps : ∀ w ∈ ws, IsGap w.gap)
    (hsolid : ∀ t ∈ ws.map token, ∀ b ∈ t.text, isSkippedByte b = false) :
    text (solid (ws.map token)) = withoutBlanks (text ws) := by
  induction ws with
  | nil => rfl
  | cons w ws ih =>
    obtain ⟨hgap, hgaps⟩ := List.forall_mem_cons.mp hgaps
    obtain ⟨hw, hws⟩ := List.forall_mem_cons.mp hsolid
    rw [List.map_cons, solid_cons, text_cons, text_cons, ih hgaps hws, withoutBlanks_append,
      withoutBlanks_append, withoutBlanks_of_isGap hgap, withoutBlanks_of_solid hw]

/-- **Without the gaps, every token comes after as many bytes as there were between the gaps.** -/
theorem place_solid (hgaps : ∀ w ∈ ws, IsGap w.gap)
    (hsolid : ∀ t ∈ ws.map token, ∀ b ∈ t.text, isSkippedByte b = false) (before : Text) :
    place (withoutBlanks before).length (solid (ws.map token)) =
      (place before.length ws).map (Token.relocate (solidBefore (before ++ text ws))) := by
  induction ws generalizing before with
  | nil => rfl
  | cons w ws ih =>
    obtain ⟨hgap, hgaps⟩ := List.forall_mem_cons.mp hgaps
    obtain ⟨hw, hws⟩ := List.forall_mem_cons.mp hsolid
    have hpassed : withoutBlanks (before ++ w.gap) = withoutBlanks before := by
      rw [withoutBlanks_append, withoutBlanks_of_isGap hgap, List.append_nil]
    have hrest := ih hgaps hws (before ++ w.gap ++ w.token.text)
    rw [withoutBlanks_append, hpassed, withoutBlanks_of_solid hw, List.length_append,
      List.length_append, List.length_append, List.append_assoc, List.append_assoc] at hrest
    rw [List.map_cons, solid_cons, place, place, List.map_cons, text_cons]
    congr 1
    rw [Token.relocate]
    dsimp only
    have hat : solidBefore (before ++ (w.gap ++ (w.token.text ++ text ws)))
        (before.length + w.gap.length) = (withoutBlanks before).length := by
      rw [solidBefore, ← List.append_assoc, ← List.length_append, List.take_left, hpassed]
    rw [hat]
    rfl

/-! ### Blanks put in -/

/-- Where a place goes when the blanks are put before the tokens: behind those of all tokens up to
it. -/
def shift (ws : List Spaced) (p : Nat) : Nat :=
  p + ((ws.filter fun w => w.token.pos ≤ p).flatMap gap).length

theorem shift_cons_of_le {w : Spaced} {p : Nat} (h : w.token.pos ≤ p) (ws : List Spaced) :
    shift (w :: ws) p = shift ws p + w.gap.length := by
  simp only [shift, List.filter_cons, h, decide_true, if_true, List.flatMap_cons,
    List.length_append]
  omega

/-- Blanks before later tokens move nothing. -/
theorem shift_of_lt {p : Nat} (h : ∀ t ∈ ws.map token, p < t.pos) : shift ws p = p := by
  have hnone : (ws.filter fun w => w.token.pos ≤ p) = [] := by
    rw [List.filter_eq_nil_iff]
    intro w hw
    simpa using h w.token (List.mem_map_of_mem hw)
  rw [shift, hnone]
  rfl

theorem le_pos_of_mem_place {p : Nat} {t : Token} (h : t ∈ place p ws) : p ≤ t.pos := by
  induction ws generalizing p with
  | nil => contradiction
  | cons w ws ih =>
    rcases List.mem_cons.mp h with rfl | h
    · exact Nat.le_add_right _ _
    · have := ih h
      omega

/-- **With gaps put in, every token moves by the gaps up to it.** -/
theorem place_of_solid {seen : Bool} {p : Nat} (hwords : Words seen (ws.map token))
    (hplace : place p (solid (ws.map token)) = ws.map token) (n : Nat) :
    place (p + n) ws = (ws.map token).map (Token.relocate fun x => shift ws x + n) := by
  induction ws generalizing seen p n with
  | nil => rfl
  | cons w ws ih =>
    rw [List.map_cons, solid_cons, place] at hplace
    obtain ⟨hfirst, hrest⟩ := List.cons.inj hplace
    have hpos : w.token.pos = p := (congrArg Token.pos hfirst).symm
    rw [List.length_nil, Nat.add_zero] at hrest
    have hhead : ∀ ws', shift ws' p = p →
        Token.relocate (fun x => shift (w :: ws') x + n) w.token =
          { w.token with pos := p + n + w.gap.length } := by
      intro ws' hhere
      rw [Token.relocate, hpos, shift_cons_of_le (Nat.le_of_eq hpos), hhere, Nat.add_right_comm]
    rw [place, List.map_cons, List.map_cons]
    rcases hwords.cons_cases with ⟨hnil, -, -⟩ | ⟨hword, -, hwords'⟩
    · obtain rfl : ws = [] := List.map_eq_nil_iff.mp hnil
      rw [hhead [] rfl]
      rfl
    · have hlength := hword.length_pos
      have hle : ∀ t ∈ ws.map token, p + w.token.text.length ≤ t.pos := by
        rw [← hrest]
        exact fun t ht => le_pos_of_mem_place ht
      have hhere : shift ws p = p := shift_of_lt fun t ht => by
        have := hle t ht
        omega
      have htail := ih hwords' hrest (n + w.gap.length)
      rw [hhead ws hhere]
      congr 1
      rw [show p + n + w.gap.length + w.token.text.length =
        p + w.token.text.length + (n + w.gap.length) by omega, htail]
      -- the gap before the word is before all later ones
      refine List.map_congr_left fun t ht => ?_
      have := hle t ht
      rw [Token.relocate, Token.relocate, shift_cons_of_le (by omega), Nat.add_assoc,
        Nat.add_comm w.gap.length n]

end Spaced

/-! ### Nothing to skip -/

namespace Scan

variable {s after : Scan} {t : Token}

/-- Without blanks, skipping does nothing. -/
theorem skip_of_solid (h : ∀ r ∈ s.runes, Lexer.isSkipped r.char = false) : s.skip = s := by
  have hnone : longest Lexer.isSkipped s.runes = [] :=
    @longest_append Lexer.isSkipped [] s.runes (by simp) fun r hr => h r (List.mem_of_mem_head? hr)
  rw [skip]
  split
  · rw [hnone]
    rfl
  · rfl

/-- Without blanks, one token is the same whether they are skipped or not. -/
theorem next_of_solid (h : ∀ r ∈ s.runes, Lexer.isSkipped r.char = false) (skipBlanks : Bool) :
    next { s with skipBlanks } =
      s.next.map fun (t, after) => (t, { after with skipBlanks }) := by
  have hsame : ({ s with skipBlanks } : Scan).lexeme = s.lexeme := rfl
  rw [next, next, skip_of_solid h, skip_of_solid (s := { s with skipBlanks }) h, Scan.token,
    Scan.token, hsame]
  cases s.lexeme <;> rfl

theorem runes_of_next_of_solid (h : ∀ r ∈ s.runes, Lexer.isSkipped r.char = false)
    (hn : s.next = .ok (t, after)) : ∀ r ∈ after.runes, Lexer.isSkipped r.char = false := by
  rw [next, skip_of_solid h, Scan.token] at hn
  rcases hx : s.lexeme with e | x <;> rw [hx] at hn
  · contradiction
  · cases hn
    exact fun r hr => h r (List.mem_of_mem_drop hr)

/-- Without blanks, all tokens are the same whether they are skipped or not. -/
theorem tokens_of_solid (h : ∀ r ∈ s.runes, Lexer.isSkipped r.char = false) (skipBlanks : Bool) :
    tokens { s with skipBlanks } = s.tokens := by
  have hsame := next_of_solid h skipBlanks
  fun_induction tokens s with
  | case1 s e hn =>
    rw [hn] at hsame
    exact tokens_of_error hsame
  | case2 s t after hn hk =>
    rw [hn] at hsame
    exact tokens_of_eof hsame hk
  | case3 s t after hn hk ih =>
    have hafter := runes_of_next_of_solid h hn
    rw [hn] at hsame
    rw [tokens_of_next hsame hk, ih hafter (next_of_solid hafter skipBlanks)]

end Scan

namespace Lexer

variable {l l' after after' : Lexer} {t t' : Token}

/-- Lexers with the same tokens to come have the same next token, and the same tokens after it. -/
theorem next_of_drain_eq (h : l.drain = l'.drain) (hn : l.next = (.ok t, after)) :
    ∃ after', l'.next = (.ok t, after') ∧ (t.kind ≠ .eof → after.drain = after'.drain) := by
  rw [drain_of_next hn] at h
  rcases hn' : l'.next with ⟨e | t', after'⟩
  · rw [drain_of_next_error hn'] at h
    split at h <;> cases h
  · rw [drain_of_next hn'] at h
    have hsame : t = t' := by
      split at h <;> split at h <;> exact (List.cons.inj (Prod.mk.inj h).1).1
    subst hsame
    refine ⟨after', rfl, fun hk => ?_⟩
    rw [if_neg hk, if_neg hk] at h
    obtain ⟨htokens, hfailure⟩ := Prod.mk.inj h
    exact Prod.ext (List.cons.inj htokens).2 hfailure

theorem next_error_of_drain_eq {e : LexError} (h : l.drain = l'.drain)
    (hn : l.next = (.error e, after)) : ∃ after', l'.next = (.error e, after') := by
  rw [drain_of_next_error hn] at h
  rcases hn' : l'.next with ⟨e' | t', after'⟩
  · rw [drain_of_next_error hn'] at h
    cases h
    exact ⟨after', rfl⟩
  · rw [drain_of_next hn'] at h
    split at h <;> cases h

end Lexer

/-- The checker only sees the tokens. -/
theorem Checker.run_congr {l l' : Lexer} (h : l.drain = l'.drain) (c : Checker) :
    c.run l = c.run l' := by
  fun_induction run c l generalizing l' with
  | case1 c l e after hn =>
    obtain ⟨after', hn'⟩ := Lexer.next_error_of_drain_eq h hn
    rw [run_of_next_error hn']
  | case2 c l t after hn e hstep =>
    obtain ⟨after', hn', -⟩ := Lexer.next_of_drain_eq h hn
    rw [run_of_next hn', resume_of_error hstep]
  | case3 c l t after hn hstep =>
    obtain ⟨after', hn', -⟩ := Lexer.next_of_drain_eq h hn
    rw [run_of_next hn', resume, hstep]
  | case4 c l t after hn c' hstep ih =>
    obtain ⟨after', hn', hrest⟩ := Lexer.next_of_drain_eq h hn
    rw [run_of_next hn', resume_of_step hstep, ih (hrest (ne_eof_of_step hstep))]

/-- **The parser only sees the tokens** and the failure that cut them short. -/
theorem parse_congr {skipBlanks skipBlanks' : Bool} {equation equation' : Text}
    (h : Lexer.tokenize skipBlanks equation = Lexer.tokenize skipBlanks' equation') :
    parse skipBlanks equation = parse skipBlanks' equation' := by
  have hrun : ∀ skipBlanks equation, (parse skipBlanks equation).map (fun _ => ()) =
      Checker.start.run (Lexer.ofText skipBlanks equation) := fun _ _ => Parser.verdict_equation rfl
  have hverdict : (parse skipBlanks equation).map (fun _ => ()) =
      (parse skipBlanks' equation').map (fun _ => ()) := by
    rw [hrun, hrun]
    exact Checker.run_congr h _
  rcases hp : parse skipBlanks equation with e | tree
  · rw [hp] at hverdict
    rcases hp' : parse skipBlanks' equation' with e' | tree' <;> rw [hp'] at hverdict
    · cases hverdict
      rfl
    · contradiction
  · obtain ⟨tokens, eof, hlexed, heof, hconv, hderives⟩ := derives_of_parse hp
    exact (parse_of_derives (h ▸ hlexed) heof hconv hderives).symm

/-! ### Blanks do not matter -/

/-- An equation that is read is a sequence of words with gaps, of which no two neighbours are
numbers or identifiers. -/
theorem exists_layout_of_parse {skipBlanks : Bool} {equation : Text} {tree : Expr}
    (h : parse skipBlanks equation = .ok tree) :
    ∃ ws : List Spaced, Spaced.text ws = equation ∧
      ws.map Spaced.token = (Lexer.tokenize skipBlanks equation).1 ∧
      Spaced.place 0 ws = ws.map Spaced.token ∧ (∀ w ∈ ws, w.Fits skipBlanks) ∧
      Words false (ws.map Spaced.token) ∧ (ws.map Spaced.token).IsChain Token.Apart := by
  obtain ⟨tokens, eof, hlexed, heof, -, hderives⟩ := derives_of_parse h
  have hscan : (Scan.ofText skipBlanks equation).tokens = (tokens ++ [eof], none) := by
    rw [← hlexed]
    exact (Lexer.drain_eq_tokens (Lexer.agrees_ofText skipBlanks equation)).symm
  obtain ⟨ws, htext, htokens, hplace, hfits, hwords⟩ := Scan.exists_layout rfl hscan
  have hend : eof.isLiteral = false := by simp [Token.isLiteral, heof]
  refine ⟨ws, htext, by rw [htokens, hlexed], hplace.trans htokens.symm, hfits, ?_, ?_⟩
  · rw [htokens]
    exact hwords
  · rw [htokens]
    exact Derives.isChain_append_cons hend hderives.isChain .nil

/-- Words with gaps are cut into tokens as they were put together. -/
theorem tokenize_layout {skipBlanks : Bool} {ws : List Spaced} (hfits : ∀ w ∈ ws, w.Fits skipBlanks)
    (hwords : Words false (ws.map Spaced.token))
    (hchain : (ws.map Spaced.token).IsChain Token.Apart) :
    Lexer.tokenize skipBlanks (Spaced.text ws) = (Spaced.place 0 ws, none) :=
  (Lexer.drain_eq_tokens (Lexer.agrees_ofText _ _)).trans
    (Scan.tokens_of_layout hfits hwords hchain rfl)

/-- **Blanks between tokens do not matter.**

* An equation that is read with its blanks skipped is read as the same tree without them. Each
  operator moves to where it comes after as many bytes as there were before it that are no blanks.
* An equation that is read without skipping is read as the same tree with any blanks put before its
  tokens, of which the end is the last one. Each operator moves by the blanks up to it.
* If there are no blanks, tokens, trees and errors are the same whether they are skipped or not. -/
theorem parse_ignores_blanks :
    (∀ (equation : Text) (tree : Expr), parse true equation = .ok tree →
      parse false (Lexer.withoutBlanks equation) =
        .ok (tree.relocate (Lexer.solidBefore equation))) ∧
    (∀ (equation : Text) (tree : Expr) (ws : List Spaced), parse false equation = .ok tree →
      ws.map Spaced.token = (Lexer.tokenize false equation).1 →
      (∀ w ∈ ws, Lexer.IsGap w.gap) →
      parse true (Spaced.text ws) = .ok (tree.relocate (Spaced.shift ws))) ∧
    (∀ equation : Text, (∀ b ∈ equation, Lexer.isSkippedByte b = false) →
      Lexer.tokenize true equation = Lexer.tokenize false equation ∧
        parse true equation = parse false equation) := by
  refine ⟨fun equation tree h => ?_, fun equation tree ws h htokens hgaps => ?_,
    fun equation hsolid => ?_⟩
  · obtain ⟨ws, rfl, htokens, hplace, hfits, hwords, hchain⟩ := exists_layout_of_parse h
    have hgaps : ∀ w ∈ ws, Lexer.IsGap w.gap := fun w hw => (hfits w hw).1
    have hsolid := hwords.isSkippedByte
    have hmoved := Spaced.place_solid hgaps hsolid []
    rw [List.nil_append, List.length_nil, hplace] at hmoved
    refine parse_of_tokenize_relocate _ h ?_
    rw [← Spaced.text_solid hgaps hsolid, ← htokens, ← hmoved]
    exact tokenize_layout (Spaced.fits_solid _) (by simpa using hwords) (by simpa using hchain)
  · obtain ⟨solid, rfl, htokens', hplace, hfits, hwords, hchain⟩ := exists_layout_of_parse h
    have hsolid := Spaced.eq_solid fun w hw => (hfits w hw).2 rfl
    have hsame : solid.map Spaced.token = ws.map Spaced.token := htokens'.trans htokens.symm
    rw [hsame] at hsolid hplace hwords hchain
    rw [hsolid] at hplace
    refine parse_of_tokenize_relocate _ h ?_
    rw [← htokens, tokenize_layout (fun w hw => ⟨hgaps w hw, by simp⟩) hwords hchain]
    exact congrArg (·, none) (Spaced.place_of_solid hwords hplace 0)
  · have hrunes : ∀ r ∈ equation.runes, Lexer.isSkipped r.char = false :=
      Lexer.not_isSkipped_of_solid hsolid
    have htokens : Lexer.tokenize true equation = Lexer.tokenize false equation := by
      rw [Lexer.tokenize, Lexer.tokenize, Lexer.drain_eq_tokens (Lexer.agrees_ofText true equation),
        Lexer.drain_eq_tokens (Lexer.agrees_ofText false equation)]
      exact Scan.tokens_of_solid (s := Scan.ofText false equation) hrunes true
    exact ⟨htokens, parse_congr htokens⟩

/-- Two names with an equality sign between them are read as an assignment. -/
theorem parse_of_two_names {skipBlanks : Bool} {equation : Text} {a sign b eof : Token}
    (h : (Scan.ofText skipBlanks equation).tokens = ([a, sign, b, eof], none))
    (ha : a.kind = .identifier) (hsign : sign.kind = .assign) (hb : b.kind = .identifier)
    (heof : eof.kind = .eof) :
    parse skipBlanks equation = .ok (.binary (.identifier a.text) sign (.identifier b.text)) := by
  have hname : ∀ t : Token, t.kind = .identifier → ∀ power,
      power ≤ 3 → Derives (.ofPower power) [t] (.identifier t.text) := by
    intro t ht power hpower
    have hliteral : t.literal = .identifier t.text := by rw [Token.literal, ht]
    rw [← hliteral]
    exact Derives.of_le hpower (.identifier ht)
  have hlexed : Lexer.tokenize skipBlanks equation = ([a, sign, b] ++ [eof], none) :=
    (Lexer.drain_eq_tokens (Lexer.agrees_ofText _ _)).trans h
  have hderives : Derives .equation [a, sign, b]
      (.binary (.identifier a.text) sign (.identifier b.text)) :=
    (hname a ha 0 (by omega)).snoc rfl (hsign ▸ List.mem_cons_self) (hname b hb 1 (by omega))
  refine parse_of_derives hlexed heof ?_ hderives
  simp [Token.Converts, ha, hsign, hb]

/-- For example, the equation `a=b`, and blanks in it. -/
theorem parse_ignores_blanks_of_assignment :
    let assignment (p : Nat) : Expr :=
      .binary (.identifier (Text.lit "a")) ⟨.assign, Text.lit "=", p⟩ (.identifier (Text.lit "b"))
    let ws : List Spaced := [⟨[], ⟨.identifier, Text.lit "a", 0⟩⟩,
      ⟨Text.lit " \t", ⟨.assign, Text.lit "=", 1⟩⟩, ⟨Text.lit " ", ⟨.identifier, Text.lit "b", 2⟩⟩,
      ⟨[], ⟨.eof, [], 3⟩⟩]
    parse true (Text.lit "a \t= b") = .ok (assignment 3) ∧
      parse false (Lexer.withoutBlanks (Text.lit "a \t= b")) = .ok (assignment 1) ∧
      Lexer.withoutBlanks (Text.lit "a \t= b") = Text.lit "a=b" ∧
      parse true (Spaced.text ws) = .ok (assignment 3) ∧ Spaced.text ws = Text.lit "a \t= b" ∧
      Lexer.tokenize true (Text.lit "a=b") = Lexer.tokenize false (Text.lit "a=b") := by
  intro assignment ws
  obtain ⟨hremove, hinsert, hsame⟩ := parse_ignores_blanks
  have hsolid : (Scan.ofText false (Text.lit "a=b")).tokens = ([⟨.identifier, Text.lit "a", 0⟩,
      ⟨.assign, Text.lit "=", 1⟩, ⟨.identifier, Text.lit "b", 2⟩, ⟨.eof, [], 3⟩], none) := by
    decide +kernel
  have hspaced : (Scan.ofText true (Text.lit "a \t= b")).tokens = ([⟨.identifier, Text.lit "a", 0⟩,
      ⟨.assign, Text.lit "=", 3⟩, ⟨.identifier, Text.lit "b", 5⟩, ⟨.eof, [], 6⟩], none) := by
    decide +kernel
  have hread : parse true (Text.lit "a \t= b") = .ok (assignment 3) :=
    parse_of_two_names hspaced rfl rfl rfl rfl
  have htokens : ws.map Spaced.token = (Lexer.tokenize false (Text.lit "a=b")).1 :=
    (congrArg Prod.fst ((Lexer.drain_eq_tokens (Lexer.agrees_ofText _ _)).trans hsolid)).symm
  have hgaps : ∀ w ∈ ws, Lexer.IsGap w.gap := by
    have hall : ws.all (fun w => w.gap.all Lexer.isSkippedByte) = true := by decide
    simpa [Lexer.IsGap] using hall
  have hread' : parse false (Text.lit "a=b") = .ok (assignment 1) :=
    parse_of_two_names hsolid rfl rfl rfl rfl
  have hnone : ∀ b ∈ Text.lit "a=b", Lexer.isSkippedByte b = false := by
    have hall : (Text.lit "a=b").all (fun b => !Lexer.isSkippedByte b) = true := by decide
    simpa using hall
  refine ⟨hread, hremove _ _ hread, by decide, ?_, by decide, (hsame _ hnone).1⟩
  exact hinsert _ (assignment 1) ws hread' htokens hgaps

end Reckon
