import Reckon.Proofs.Lexer.Layout
import Reckon.Proofs.Parser.Grammar

/-!
# Cutting an equation into tokens loses nothing

The tokens of an equation are pieces of it, one behind the other, and what is between them is
skipped: blanks and tabs, and nothing at all if these are not to be skipped. `Covering` says so of
the bytes between two offsets.

`Lexer.tokenize_covers` is the main statement. Up to where the reading stops, the tokens cover the
equation. It stops at the end, where the end token stands, or else at the start of the token that
cannot be read (`Lexer.Stops`). Where no blanks are skipped, the tokens put together are therefore
the equation again.

A covering grows at its front, by a gap and a token (`Covering.cons`), so the proof follows the
lexer from token to token (`Lexer.covering_drain`).
-/

namespace Reckon

/-- A token takes up the byte at an offset. -/
def Token.Covers (t : Token) (i : Nat) : Prop := t.pos ≤ i ∧ i < t.pos + t.text.length

/-- Tokens cover the bytes of an equation between two offsets, but for blanks that are skipped. -/
structure Covering (skipBlanks : Bool) (equation : Text) (start : Nat) (tokens : List Token)
    (stop : Nat) : Prop where
  start_le : start ≤ stop
  within : ∀ t ∈ tokens, start ≤ t.pos ∧ t.pos + t.text.length ≤ stop
  /-- Every token is what stands at its place. -/
  text_eq : ∀ t ∈ tokens, (equation.drop t.pos).take t.text.length = t.text
  ne_nil : ∀ t ∈ tokens, t.kind ≠ .eof → t.text ≠ []
  /-- A token starts where the ones before it have ended, or later. -/
  ordered : tokens.Pairwise fun a b => a.pos + a.text.length ≤ b.pos
  /-- What no token covers is a blank, and is skipped. -/
  blank : ∀ i, start ≤ i → i < stop → (∀ t ∈ tokens, ¬ t.Covers i) →
    skipBlanks = true ∧ ∃ b, equation[i]? = some b ∧ Lexer.isSkippedByte b = true

namespace Covering

variable {skipBlanks : Bool} {before gap rest : Text} {t : Token} {ts : List Token} {stop : Nat}

/-- The bytes of a gap are blanks that are skipped. -/
theorem blank_of_gap (hgap : Lexer.IsGap gap) (hskip : skipBlanks = false → gap = []) {i : Nat}
    (hle : before.length ≤ i) (hlt : i < before.length + gap.length) :
    skipBlanks = true ∧
      ∃ b, (before ++ (gap ++ rest))[i]? = some b ∧ Lexer.isSkippedByte b = true := by
  have hin : i - before.length < gap.length := by omega
  refine ⟨?_, gap[i - before.length], ?_, hgap _ (List.getElem_mem hin)⟩
  · cases skipBlanks with
    | true => rfl
    | false =>
      rw [hskip rfl, List.length_nil] at hin
      omega
  · rw [List.getElem?_append_right hle, List.getElem?_append_left hin, List.getElem?_eq_getElem hin]

/-- Where there is nothing, there is nothing to cover. -/
theorem nil (skipBlanks : Bool) (equation : Text) (p : Nat) :
    Covering skipBlanks equation p [] p where
  start_le := Nat.le_refl p
  within := by simp
  text_eq := by simp
  ne_nil := by simp
  ordered := .nil
  blank i hle hlt := by omega

/-- A gap needs no tokens. -/
theorem of_gap (hgap : Lexer.IsGap gap) (hskip : skipBlanks = false → gap = []) :
    Covering skipBlanks (before ++ (gap ++ rest)) before.length []
      (before.length + gap.length) where
  start_le := Nat.le_add_right _ _
  within := by simp
  text_eq := by simp
  ne_nil := by simp
  ordered := .nil
  blank i hle hlt _ := blank_of_gap hgap hskip hle hlt

/-- **A covering goes on at its front** with a token and the gap before it. -/
theorem cons (hgap : Lexer.IsGap gap) (hskip : skipBlanks = false → gap = [])
    (hpos : t.pos = before.length + gap.length) (hword : t.kind ≠ .eof → t.text ≠ [])
    (h : Covering skipBlanks (before ++ (gap ++ (t.text ++ rest))) (t.pos + t.text.length) ts
      stop) :
    Covering skipBlanks (before ++ (gap ++ (t.text ++ rest))) before.length (t :: ts) stop where
  start_le := by
    have := h.start_le
    omega
  within := by
    have hstop := h.start_le
    refine List.forall_mem_cons.mpr ⟨⟨by omega, hstop⟩, fun u hu => ?_⟩
    have hu := h.within u hu
    omega
  text_eq := by
    refine List.forall_mem_cons.mpr ⟨?_, h.text_eq⟩
    have hfront : (before ++ gap).length = t.pos := by rw [List.length_append, hpos]
    rw [← List.append_assoc, ← hfront, List.drop_left, List.take_left]
  ne_nil := List.forall_mem_cons.mpr ⟨hword, h.ne_nil⟩
  ordered := List.pairwise_cons.mpr ⟨fun u hu => (h.within u hu).1, h.ordered⟩
  blank i hle hlt hnone := by
    obtain ⟨hout, hnone⟩ := List.forall_mem_cons.mp hnone
    -- the byte is in the gap or behind the token
    rcases Nat.lt_or_ge i t.pos with hbefore | hge
    · exact blank_of_gap hgap hskip hle (by omega)
    · exact h.blank i (Nat.le_of_not_lt fun hin => hout ⟨hge, hin⟩) hlt hnone

end Covering

/-- The token that cannot be read starts at an offset: a character outside the alphabet and a second
equality sign right there, and a number with a point at its end in front of this point. -/
def LexError.StartsAt (equation : Text) (start : Nat) : LexError → Prop
  | symbol p _ | duplicateEquals p => p = start
  | trailingDot p =>
    start < p ∧ equation[p]? = some '.'.toUInt8 ∧
      ∀ b ∈ (equation.drop start).take (p + 1 - start),
        Lexer.isNumberChar (Char.ofNat b.toNat) = true

namespace Lexer

/-- Where the reading of an equation stops, with what it has come to: after its last byte, with the
end token there and nowhere else; or where the token starts for which it has failed. -/
def Stops (l : Lexer) (equation : Text) (stop : Nat) : List Token × Option LexError → Prop
  | (tokens, none) => stop = equation.length ∧
      ∃ words, tokens = words ++ [⟨.eof, [], stop⟩] ∧ ∀ t ∈ words, t.kind ≠ .eof
  | (tokens, some e) => stop ≤ equation.length ∧ (∀ t ∈ tokens, t.kind ≠ .eof) ∧
      e.StartsAt equation stop ∧
      ∃ last after, l.Yields tokens last ∧ last.next = (.error e, after) ∧
        (after.errorToken e).pos = stop

/-! ### One token -/

/-- The token for which the reading fails starts after the blanks that are skipped. -/
theorem Agrees.start_of_next_error {l after : Lexer} {s : Scan} {e : LexError} (h : Agrees l s)
    (hn : l.next = (.error e, after)) : after.start = s.skip.pos := by
  rw [next, h.failure_eq] at hn
  obtain ⟨c, rfl⟩ := readToken_eq_error hn
  exact h.skip.start_eq.trans h.skip.pos_eq.symm

end Lexer

/-- A run of digits and points is spelled by these very bytes. -/
theorem Lexer.isNumberChar_of_mem_spell {t : Text} {run : List Rune}
    (h : ∀ r ∈ run, r ∈ t.runes ∧ isNumberChar r.char = true) :
    ∀ b ∈ Rune.spell run, isNumberChar (Char.ofNat b.toNat) = true := by
  rw [spell_run h]
  intro b hb
  obtain ⟨r, hr, rfl⟩ := List.mem_map.mp hb
  have hlow := toNat_lt_of_isNumberChar (h r hr).2
  have hchar : Char.ofNat r.char.toUInt8.toNat = r.char := by
    change Char.ofNat (r.char.toNat % 256) = r.char
    rw [Nat.mod_eq_of_lt (by omega), Char.ofNat_toNat]
  rw [hchar]
  exact (h r hr).2

/-- Where no word can be matched, the token that cannot be read starts right here. -/
theorem Scan.startsAt_of_lexeme_error {s : Scan} {before text : Text} {e : LexError}
    (hs : s.runes = text.runes) (hpos : s.pos = before.length) (h : s.lexeme = .error e) :
    e.StartsAt (before ++ text) s.pos := by
  rcases lexeme_eq_error h with ⟨-, -, -, rfl⟩ | ⟨-, -, -, -, -, rfl⟩ |
    ⟨run, dot, rest, hr, hrun, hdot, hchars, rfl⟩
  · rfl
  · rfl
  · have hcut : text.runes = (run ++ [dot]) ++ rest := by
      rw [← hs, hr, List.append_assoc, List.singleton_append]
    have hnumber : ∀ r ∈ run ++ [dot], r ∈ text.runes ∧ Lexer.isNumberChar r.char = true :=
      fun r hr => ⟨hcut ▸ List.mem_append_left rest hr, hchars r hr⟩
    have hbytes := Lexer.isNumberChar_of_mem_spell hnumber
    obtain ⟨last, rfl, -⟩ := Text.exists_of_runes_eq_append hcut
    -- the point is spelled by one byte, the last one of the number
    obtain ⟨hmem, -⟩ := hnumber dot (List.mem_append_right run (List.mem_singleton_self dot))
    have hpoint : dot.spelling = ['.'.toUInt8] := by
      rw [Text.spelling_of_ascii hmem (by rw [hdot]; decide), hdot]
    have hspell : Rune.spell (run ++ [dot]) = Rune.spell run ++ ['.'.toUInt8] := by
      rw [Rune.spell_append, Rune.spell_cons, hpoint, Rune.spell_nil]
      rfl
    have hfirst : 0 < (Rune.spell run).length := by
      rw [Lexer.spell_run fun r hr => hnumber r (List.mem_append_left [dot] hr), List.length_map]
      exact List.length_pos_iff.mpr hrun
    have hplace : s.pos + (Rune.spell (run ++ [dot])).length - 1 =
        before.length + (Rune.spell run).length := by
      rw [hspell, hpos, List.length_append, List.length_singleton]
      omega
    rw [hplace, hpos]
    refine ⟨by omega, ?_, ?_⟩
    · rw [List.getElem?_append_right (by omega), hspell, List.append_assoc,
        List.getElem?_append_right (by omega)]
      simp
    · have hwidth : before.length + (Rune.spell run).length + 1 - before.length =
          (Rune.spell (run ++ [dot])).length := by
        rw [hspell, List.length_append, List.length_singleton]
        omega
      rwa [List.drop_left, hwidth, List.take_left]

/-! ### Whole equations -/

namespace Lexer

/-- One more token in front leaves it at that where the reading stops. -/
theorem Stops.cons {l after : Lexer} {equation : Text} {stop : Nat} {t : Token}
    {tokens : List Token} {failure : Option LexError} (hn : l.next = (.ok t, after))
    (hk : t.kind ≠ .eof) (h : after.Stops equation stop (tokens, failure)) :
    l.Stops equation stop (t :: tokens, failure) := by
  cases failure with
  | none =>
    obtain ⟨hstop, words, rfl, hwords⟩ := h
    exact ⟨hstop, t :: words, rfl, List.forall_mem_cons.mpr ⟨hk, hwords⟩⟩
  | some e =>
    obtain ⟨hstop, hkinds, hstarts, last, failed, hyields, hfails⟩ := h
    exact ⟨hstop, List.forall_mem_cons.mpr ⟨hk, hkinds⟩, hstarts, last, failed,
      .cons hn hyields, hfails⟩

/-- **The tokens cover the rest of the equation**, from any place between two tokens. -/
theorem covering_drain {l : Lexer} {s : Scan} (h : Agrees l s) {before text : Text}
    (hs : s.runes = text.runes) (hpos : s.pos = before.length) :
    ∃ stop, Covering s.skipBlanks (before ++ text) before.length l.drain.1 stop ∧
      l.Stops (before ++ text) stop l.drain ∧
      (s.skipBlanks = false →
        l.drain.1.flatMap Token.text = text.take (stop - before.length)) := by
  fun_induction drain l generalizing s before text with
  | case1 l e after hn =>
    obtain ⟨gap, rest, rfl, hgap, hskip, hmoved, hlexeme⟩ :=
      Scan.next_eq_error_cases hs (h.next_error hn)
    have hplace : (s.moved gap.length rest.runes).pos = (before ++ gap).length := by
      rw [Scan.moved, List.length_append, hpos]
    have hstarts := Scan.startsAt_of_lexeme_error rfl hplace hlexeme
    rw [List.append_assoc, hplace, List.length_append] at hstarts
    have hstart : after.start = before.length + gap.length := by
      rw [h.start_of_next_error hn, hmoved, hplace, List.length_append]
    refine ⟨before.length + gap.length, .of_gap hgap hskip, ?_, fun hnot => ?_⟩
    · exact ⟨by simp, by simp, hstarts, l, after, .nil l, hn, hstart⟩
    · rw [hskip hnot, List.length_nil, Nat.add_zero, Nat.sub_self]
      rfl
  | case2 l t after hn hk =>
    obtain ⟨s', hnext, -⟩ := h.next_ok hn
    obtain ⟨gap, rest, rfl, hfits, htoken, -, ⟨-, htext, rfl⟩ | ⟨-, hk', -⟩⟩ :=
      Scan.next_eq_ok_cases hs hnext
    · rw [hpos] at htoken
      have hend : t = ⟨.eof, [], before.length + gap.length⟩ := by rw [← hk, ← htext, ← htoken]
      refine ⟨t.pos + t.text.length, ?_, ?_, fun _ => ?_⟩
      · exact .cons hfits.1 hfits.2 htoken (fun hne => absurd hk hne) (.nil _ _ _)
      · refine ⟨by simp [htoken, Nat.add_assoc], [], ?_, by simp⟩
        rw [hend]
        rfl
      · have hgap : gap = [] := hfits.2 ‹_›
        simp [hgap, htext]
    · exact absurd hk hk'
  | case3 l t after hn hk tokens failure hrest ih =>
    obtain ⟨s', hnext, hafter⟩ := h.next_ok hn
    obtain ⟨gap, rest, rfl, hfits, htoken, rfl, ⟨hk', -, -⟩ | ⟨hword, -, -⟩⟩ :=
      Scan.next_eq_ok_cases hs hnext
    · exact absurd hk' hk
    · rw [hpos] at htoken
      have hplace : t.pos + t.text.length = (before ++ gap ++ t.text).length := by
        rw [htoken, List.length_append, List.length_append]
      obtain ⟨stop, hcovering, hstops, hconcat⟩ := ih hafter rfl hplace
      rw [hrest, ← hplace] at hcovering
      rw [List.append_assoc, List.append_assoc] at hcovering hstops
      rw [hrest] at hstops hconcat
      refine ⟨stop, ?_, hstops.cons hn hk, fun hnot => ?_⟩
      · exact .cons hfits.1 hfits.2 htoken (fun _ => List.length_pos_iff.mp hword.length_pos)
          hcovering
      · have hgap : gap = [] := hfits.2 hnot
        have hstop := hcovering.start_le
        have hwidth : stop - before.length = t.text.length + (stop - (t.pos + t.text.length)) := by
          rw [hgap, List.length_nil] at htoken
          omega
        rw [List.flatMap_cons, hconcat hnot, ← hplace, hwidth, hgap, List.nil_append,
          List.take_length_add_append]

/-- **Cutting an equation into tokens loses nothing and invents nothing.** Whether blanks are
skipped or not, and whether the reading fails or not, up to where it stops:

* each token is what stands at its place, no token but the end is empty, and they come in order
  without an overlap;
* what no token covers is blanks and tabs, and is nothing if these are not skipped;
* the reading stops at the end of the equation, where the end token stands, or at the start of the
  token for which it fails;
* if no blanks are skipped, the tokens put together are what has been read, which is the whole
  equation if nothing fails. -/
theorem tokenize_covers (skipBlanks : Bool) (equation : Text) :
    ∃ stop, Covering skipBlanks equation 0 (tokenize skipBlanks equation).1 stop ∧
      (ofText skipBlanks equation).Stops equation stop (tokenize skipBlanks equation) ∧
      (skipBlanks = false →
        (tokenize skipBlanks equation).1.flatMap Token.text = equation.take stop ∧
          ((tokenize skipBlanks equation).2 = none →
            (tokenize skipBlanks equation).1.flatMap Token.text = equation)) := by
  have hstart : (Scan.ofText skipBlanks equation).pos = ([] : Text).length := rfl
  obtain ⟨stop, hcovering, hstops, hconcat⟩ :=
    covering_drain (agrees_ofText skipBlanks equation) rfl hstart
  have hend : (tokenize skipBlanks equation).2 = none → stop = equation.length := by
    intro hnone
    have hpair : (ofText skipBlanks equation).drain =
        ((tokenize skipBlanks equation).1, none) := Prod.ext rfl hnone
    rw [hpair] at hstops
    exact hstops.1
  refine ⟨stop, hcovering, hstops, fun hnot => ⟨hconcat hnot, fun hnone => ?_⟩⟩
  rw [tokenize, hconcat hnot, hend hnone]
  exact List.take_length

end Lexer

end Reckon
