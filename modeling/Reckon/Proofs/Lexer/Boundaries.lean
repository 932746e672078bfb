import Reckon.Proofs.Cursor
import Reckon.Proofs.Parser.Reset
import Reckon.Proofs.Text.Decoding

/-!
# A lexer never stands inside a rune

A lexer reads forward and takes back, and taking back decodes the bytes from their other end. In
the middle of a rune the two directions disagree. `Lexer.stands_between_runes` says that no lexer
comes to such a place, whatever bytes it reads: after any number of tokens, and after whatever its
cursor does next (`Cursor.Move`), the cursor stands after a number of whole runes of the equation
(`Text.IsBoundary`), and taking back leads to the very place where the rune was read that is not
wanted, also if there was none.

Every move passes some of the runes ahead (`Cursor.exists_passes_move`), and so does the handing out
of a token (`Lexer.exists_passes_next`). What was passed from the start of the equation on gives
the boundary.
-/

namespace Reckon

/-- The offsets between the runes of a text: each comes after some of them. -/
def Text.IsBoundary (t : Text) (offset : Nat) : Prop :=
  ∃ n, offset = (Rune.spell (t.runes.take n)).length

namespace Cursor

variable {c after : Cursor} {rs : List Rune} {s : Text}

/-! ### What a cursor does -/

/-- One move of a cursor. -/
inductive Move where
  /-- Reads a character. -/
  | next
  /-- Looks at a character: it is read and taken back. -/
  | peek
  /-- Reads a character, and takes it back unless it is wanted. -/
  | accept (wanted : Char → Bool)
  /-- Reads characters up to one that is not wanted, and takes this one back. -/
  | acceptRun (wanted : Char → Bool)

/-- The cursor after a move. -/
def move (c : Cursor) : Move → Cursor
  | .next => c.next.2
  | .peek => c.peek.2
  | .accept wanted => (c.accept wanted).2
  | .acceptRun wanted => c.acceptRun wanted

/-- The cursor after some moves. -/
def moveAll (c : Cursor) (moves : List Move) : Cursor := moves.foldl move c

theorem exists_passes_next (c : Cursor) : ∃ rs, c.Passes rs c.next.2 := by
  rcases hr : c.ahead.runes with _ | ⟨r, rs⟩
  · exact ⟨[], (passes_next_end hr).2⟩
  · exact ⟨[r], (passes_next hr).2⟩

theorem exists_passes_accept (wanted : Char → Bool) (c : Cursor) :
    ∃ rs, c.Passes rs (c.accept wanted).2 := by
  rcases hn : c.next with ⟨_ | char, after⟩
  · refine ⟨[], ?_⟩
    have hback := passes_back_next c
    rw [hn] at hback
    rwa [accept, hn]
  · rw [accept, hn]
    dsimp only
    split
    · have hpass := exists_passes_next c
      rwa [hn] at hpass
    · rw [back_next hn]
      exact ⟨[], .refl c⟩

/-- **Every move passes some of the runes ahead.** -/
theorem exists_passes_move (c : Cursor) (m : Move) : ∃ rs, c.Passes rs (c.move m) := by
  cases m with
  | next => exact c.exists_passes_next
  | peek => exact ⟨[], (passes_peek c).2⟩
  | accept wanted => exact exists_passes_accept wanted c
  | acceptRun wanted => exact ⟨_, passes_acceptRun wanted c⟩

theorem exists_passes_moveAll (c : Cursor) (moves : List Move) :
    ∃ rs, c.Passes rs (c.moveAll moves) := by
  induction moves generalizing c with
  | nil => exact ⟨[], .refl c⟩
  | cons m moves ih =>
    obtain ⟨rs, hfirst⟩ := c.exists_passes_move m
    obtain ⟨ss, hrest⟩ := ih (c.move m)
    exact ⟨rs ++ ss, hfirst.trans hrest⟩

/-! ### Where a cursor stands -/

/-- A cursor stands in a text: between two of its runes, and at its end if this has been met. -/
structure StandsIn (s : Text) (c : Cursor) : Prop where
  text_eq : c.text = s
  isBoundary : s.IsBoundary c.pos
  pos_of_metEnd : c.metEnd = true → c.pos = s.length

/-- What is passed is not lost. -/
theorem Passes.text_eq (h : c.Passes rs after) : after.text = c.text := by
  have hahead : c.ahead = Rune.spell rs ++ after.ahead := by
    rw [← Text.spell_runes c.ahead, h.runes_eq, Rune.spell_append, Text.spell_runes]
  rw [text, text, h.behind_eq, hahead, List.reverse_append, List.reverse_reverse, List.append_assoc]

/-- The bytes read and the bytes to be read are all bytes. -/
theorem pos_add_length_ahead (c : Cursor) : c.pos + c.ahead.length = c.text.length := by
  rw [text, c.pos_eq, List.length_append, List.length_reverse]

/-- Runes passed from the start of a text on lead to a place between two of its runes. -/
theorem Passes.standsIn (h : (ofText s).Passes rs c) : c.StandsIn s where
  text_eq := h.text_eq
  isBoundary := by
    refine ⟨rs.length, ?_⟩
    have hruns : s.runes = rs ++ c.ahead.runes := h.runes_eq
    have hpos : c.pos = 0 + (Rune.spell rs).length := h.pos_eq
    rw [hpos, hruns, List.take_left, Nat.zero_add]
  pos_of_metEnd hend := by
    have hlength := c.pos_add_length_ahead
    have htext : c.text = s := h.text_eq
    rwa [c.ahead_of_metEnd hend, List.length_nil, Nat.add_zero, htext] at hlength

/-! ### Taking back -/

/-- **Taking back leads to where the reading started**, whether there was a rune or not. -/
theorem pos_back_next (c : Cursor) : c.next.2.back.pos = c.pos := by
  rw [(passes_back_next c).pos_eq, Rune.spell_nil, List.length_nil, Nat.add_zero]

/-- What is not wanted is taken back. -/
theorem accept_eq (wanted : Char → Bool) (c : Cursor) :
    c.accept wanted =
      if c.next.1.any wanted then (true, c.next.2) else (false, c.next.2.back) := by
  rw [accept]
  rcases c.next with ⟨_ | char, after⟩ <;> rfl

/-- **A run ends by taking back the one character that is not wanted**, or the end. -/
theorem exists_acceptRun_eq (wanted : Char → Bool) (c : Cursor) :
    ∃ rs last, c.Passes rs last ∧ (∀ r ∈ rs, wanted r.char = true) ∧
      last.next.1.any wanted = false ∧ c.acceptRun wanted = last.next.2.back := by
  fun_induction acceptRun wanted c with
  | case1 c char after hn hw ih =>
    obtain ⟨rs, last, hpass, hwanted, hlast, heq⟩ := ih
    obtain ⟨r, hu, rfl, -⟩ := next_eq_some hn
    have hfirst : c.Passes [r] after := by
      have := (passes_next (Text.runes_of_uncons hu)).2
      rwa [hn] at this
    exact ⟨r :: rs, last, hfirst.trans hpass, List.forall_mem_cons.mpr ⟨hw, hwanted⟩, hlast, heq⟩
  | case2 c char after hn hw =>
    refine ⟨[], c, .refl c, by simp, ?_, ?_⟩
    · rw [hn]
      exact Bool.eq_false_iff.mpr hw
    · rw [hn]
  | case3 c after hn =>
    refine ⟨[], c, .refl c, by simp, ?_, ?_⟩
    · rw [hn]
      rfl
    · rw [hn]

end Cursor

namespace Lexer

open Cursor (Passes)

variable {l : Lexer} {c : Cursor}

/-! ### Tokens -/

theorem exists_passes_readEquals (l : Lexer) (c : Cursor) :
    ∃ rs, c.Passes rs (l.readEquals c).2.cursor := by
  rw [readEquals]
  split
  · exact ⟨[], .refl c⟩
  · obtain ⟨rs, hfirst⟩ := c.exists_passes_next
    obtain ⟨ss, hsecond⟩ := Cursor.exists_passes_accept (· == '=') c.next.2
    refine ⟨rs ++ ss, ?_⟩
    dsimp only
    split <;> rename_i heq <;> rw [heq] at hsecond <;> exact hfirst.trans hsecond

theorem exists_passes_readNumber (l : Lexer) (c : Cursor) :
    ∃ rs, c.Passes rs (l.readNumber c).2.cursor := by
  have hrun := Cursor.passes_acceptRun isNumberChar c
  rw [readNumber]
  split
  · exact ⟨_, hrun⟩
  · split <;> exact ⟨_, hrun⟩

theorem exists_passes_readToken (l : Lexer) :
    ∃ rs, l.cursor.Passes rs l.readToken.2.cursor := by
  have hpeek := (Cursor.passes_peek l.cursor).2
  -- looking at the first character passes nothing, so all is passed by what follows
  suffices h : ∃ rs, l.cursor.peek.2.Passes rs l.readToken.2.cursor by
    obtain ⟨rs, hrest⟩ := h
    exact ⟨[] ++ rs, hpeek.trans hrest⟩
  rw [readToken]
  rcases l.cursor.peek with ⟨_ | char, c⟩
  · exact ⟨[], .refl c⟩
  · dsimp only
    split
    · exact l.exists_passes_readEquals c
    · split
      · exact l.exists_passes_readNumber c
      · split
        · exact ⟨_, Cursor.passes_acceptRun isNameChar c⟩
        · split
          · exact c.exists_passes_next
          · exact ⟨[], .refl c⟩

/-- **A lexer passes some of the runes ahead** when it is asked for a token. -/
theorem exists_passes_next (l : Lexer) : ∃ rs, l.cursor.Passes rs l.next.2.cursor := by
  rw [next]
  split
  · exact ⟨[], .refl _⟩
  · obtain ⟨rs, htoken⟩ := l.skip.exists_passes_readToken
    rw [skip] at htoken ⊢
    split at htoken
    · rename_i hskip
      rw [if_pos hskip]
      exact ⟨_, (Cursor.passes_acceptRun isSkipped l.cursor).trans htoken⟩
    · rename_i hskip
      rw [if_neg hskip]
      exact ⟨rs, htoken⟩

theorem exists_passes_later (l : Lexer) (k : Nat) :
    ∃ rs, l.cursor.Passes rs (l.later k).cursor := by
  induction k with
  | zero => exact ⟨[], .refl _⟩
  | succ k ih =>
    obtain ⟨rs, hbefore⟩ := ih
    obtain ⟨ss, hlast⟩ := (l.later k).exists_passes_next
    exact ⟨rs ++ ss, hbefore.trans hlast⟩

/-- **A lexer stands between two runes.** Whatever the equation, after any number of tokens and
after any moves of the cursor from there on, the cursor stands in the equation after a number of
whole runes, and at the end if it has met the end. From there

* looking at a character moves nothing;
* a character that is not wanted, or the end, is taken back to the same place;
* a run passes characters that are wanted, up to a place before one that is not, or before the end;
  it reads on from there, takes back what it has read, and is at this place again. -/
theorem stands_between_runes (skipBlanks : Bool) (s : Text) (k : Nat) (moves : List Cursor.Move) :
    let c := ((ofText skipBlanks s).later k).cursor.moveAll moves
    c.StandsIn s ∧ c.peek.2.pos = c.pos ∧
      (∀ wanted, (c.accept wanted).1 = c.next.1.any wanted ∧
        ((c.accept wanted).1 = false →
          (c.accept wanted).2 = c.next.2.back ∧ (c.accept wanted).2.pos = c.pos)) ∧
      ∀ wanted, ∃ rs last, c.Passes rs last ∧ (∀ r ∈ rs, wanted r.char = true) ∧
        last.next.1.any wanted = false ∧ c.acceptRun wanted = last.next.2.back ∧
        (c.acceptRun wanted).pos = last.pos := by
  intro c
  obtain ⟨rs, htokens⟩ := (ofText skipBlanks s).exists_passes_later k
  obtain ⟨ss, hmoves⟩ := Cursor.exists_passes_moveAll ((ofText skipBlanks s).later k).cursor moves
  refine ⟨(htokens.trans hmoves).standsIn, c.pos_back_next, fun wanted => ?_, fun wanted => ?_⟩
  · rw [Cursor.accept_eq]
    split
    · rename_i hw
      exact ⟨hw.symm, fun h => by contradiction⟩
    · rename_i hw
      exact ⟨(Bool.eq_false_iff.mpr hw).symm, fun _ => ⟨rfl, c.pos_back_next⟩⟩
  · obtain ⟨run, last, hpass, hwanted, hlast, heq⟩ := Cursor.exists_acceptRun_eq wanted c
    exact ⟨run, last, hpass, hwanted, hlast, heq, by rw [heq, last.pos_back_next]⟩

/-- Two bytes of a rune of three are no rune: each is read, and taken back, by itself. -/
example : ((Cursor.ofText [0xE2, 0x82]).moveAll [.next, .peek, .acceptRun (· == ' ')]).pos = 1 := by
  decide +kernel

end Lexer

end Reckon
