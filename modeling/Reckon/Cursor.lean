import Reckon.Text.Boundary

/-!
# A place in a text

A cursor stands at a boundary between two runes of a text. It reads forward one rune at a time
(`Cursor.next`) and can take the last rune back (`Cursor.back`). The bytes behind it are kept last
first, so both directions take constant time. Reading at the end moves nothing and is remembered,
so that taking back what was not read moves nothing either.

`acceptRun` reads as long as the runes are wanted and takes back the one that is not.

The main statements are `back_next`, that taking back undoes reading, and `ahead_acceptRun_le`, that
reading a run leaves no more to read than before.
-/

namespace Reckon

/-- A place in a text, between what has been read and what has not. -/
@[ext]
structure Cursor where
  /-- What has been read, the last byte first. -/
  behind : Text
  /-- What is still to be read. -/
  ahead : Text
  /-- The byte offset of the place. -/
  pos : Nat
  /-- Whether a read has met the end of the text. -/
  metEnd : Bool
  pos_eq : pos = behind.length
  reached : Text.Reached behind ahead
  ahead_of_metEnd : metEnd = true → ahead = []

namespace Cursor

/-- The place before a whole text. -/
def ofText (t : Text) : Cursor := ⟨[], t, 0, false, rfl, Text.reached_start t, by simp⟩

/-- The whole text that the cursor stands in. -/
def text (c : Cursor) : Text := c.behind.reverse ++ c.ahead

/-- The bytes between an earlier offset and the place. -/
def since (c : Cursor) (start : Nat) : Text := (c.behind.take (c.pos - start)).reverse

/-- Nothing ahead is the only way to read no rune. -/
theorem ahead_eq_nil_of_uncons {t : Text} (h : t.uncons = none) : t = [] := by
  unfold Text.uncons at h
  split at h
  · rfl
  · split at h <;> contradiction

/-- Reads the next character, or meets the end. -/
def next (c : Cursor) : Option Char × Cursor :=
  match h : c.ahead.uncons with
  | none =>
    (none, ⟨c.behind, c.ahead, c.pos, true, c.pos_eq, c.reached,
      fun _ => ahead_eq_nil_of_uncons h⟩)
  | some (r, rest) =>
    (some r.char,
      ⟨r.spelling.reverse ++ c.behind, rest, c.pos + r.spelling.length, c.metEnd,
        by simp [c.pos_eq, Nat.add_comm], Text.reached_next c.reached h,
        fun hend => by rw [c.ahead_of_metEnd hend] at h; contradiction⟩)

/-- Takes the last rune back, unless the end was met or nothing was read. -/
def back (c : Cursor) : Cursor :=
  if h : c.metEnd = true ∨ c.pos = 0 then c
  else
    let width := Text.lastWidth c.behind
    ⟨c.behind.drop width, (c.behind.take width).reverse ++ c.ahead, c.pos - width, c.metEnd,
      by simp [c.pos_eq], Text.reached_back c.reached, fun hend => absurd (.inl hend) h⟩

/-- The next character, read and taken back. -/
def peek (c : Cursor) : Option Char × Cursor := (c.next.1, c.next.2.back)

/-- Reads the next character if it is wanted. -/
def accept (wanted : Char → Bool) (c : Cursor) : Bool × Cursor :=
  match c.next with
  | (some r, after) => if wanted r then (true, after) else (false, after.back)
  | (none, after) => (false, after.back)

/-! ### Reading and taking back -/

/-- Reading a character is reading the rune at the place. -/
theorem next_eq_some {c after : Cursor} {r : Char} (h : c.next = (some r, after)) :
    ∃ rune, c.ahead.uncons = some (rune, after.ahead) ∧ r = rune.char ∧
      after.behind = rune.spelling.reverse ++ c.behind ∧ after.metEnd = c.metEnd := by
  unfold next at h
  split at h
  · simp at h
  · rename_i rune rest hu
    simp only [Prod.mk.injEq, Option.some.injEq] at h
    obtain ⟨rfl, rfl⟩ := h
    exact ⟨rune, hu, rfl, rfl, rfl⟩

/-- Reading no character moves nothing. -/
theorem next_eq_none {c after : Cursor} (h : c.next = (none, after)) :
    c.ahead = [] ∧ after.ahead = [] ∧ after.behind = c.behind ∧ after.metEnd = true := by
  unfold next at h
  split at h
  · rename_i hu
    simp only [Prod.mk.injEq, true_and] at h
    subst h
    exact ⟨ahead_eq_nil_of_uncons hu, ahead_eq_nil_of_uncons hu, rfl, rfl⟩
  · simp at h

/-- **Taking back undoes reading.** -/
theorem back_next {c after : Cursor} {r : Char} (h : c.next = (some r, after)) :
    after.back = c := by
  obtain ⟨rune, hu, _, hbehind, hend⟩ := next_eq_some h
  obtain ⟨happ, hpos⟩ := Text.append_of_uncons hu
  have hnotEnd : c.metEnd = false := by
    rcases hm : c.metEnd with _ | _
    · rfl
    · rw [c.ahead_of_metEnd hm] at hu
      contradiction
  have hwidth := Text.lastWidth_of_reached c.reached hu
  rw [← hbehind] at hwidth
  have hlen : after.pos = rune.spelling.length + c.pos := by
    rw [after.pos_eq, c.pos_eq, hbehind]; simp
  unfold back
  rw [dif_neg (by rw [hend, hnotEnd]; simp; omega)]
  apply Cursor.ext
  · dsimp only
    rw [hwidth, hbehind]
    simp
  · dsimp only
    rw [hwidth, hbehind]
    simp [happ]
  · simp [hwidth, hlen]
  · exact hend

/-- After the end was met there is nothing to take back. -/
theorem back_of_metEnd {c : Cursor} (h : c.metEnd = true) : c.back = c := by
  unfold back
  rw [dif_pos (.inl h)]

/-- Looking at the next character moves nothing. -/
theorem ahead_peek (c : Cursor) : c.peek.2.ahead = c.ahead := by
  unfold peek
  rcases h : c.next with ⟨_ | r, after⟩
  · obtain ⟨hc, ha, _, hend⟩ := next_eq_none h
    simp [back_of_metEnd hend, hc, ha]
  · simp [back_next h]

/-- A character that was read is no longer ahead. -/
theorem ahead_next_lt {c after : Cursor} {r : Char} (h : c.next = (some r, after)) :
    after.ahead.length < c.ahead.length := by
  obtain ⟨rune, hu, _⟩ := next_eq_some h
  exact Text.length_of_uncons hu

/-- Reading a wanted character leaves no more to read. -/
theorem ahead_accept_le (wanted : Char → Bool) (c : Cursor) :
    (c.accept wanted).2.ahead.length ≤ c.ahead.length := by
  unfold accept
  split
  · rename_i r after h
    split
    · exact Nat.le_of_lt (ahead_next_lt h)
    · simp [back_next h]
  · rename_i after h
    obtain ⟨hc, ha, _, hend⟩ := next_eq_none h
    simp [back_of_metEnd hend, ha]

/-! ### Runs -/

/-- Reads on as long as the characters are wanted. -/
def acceptRun (wanted : Char → Bool) (c : Cursor) : Cursor :=
  match _h : c.next with
  | (some r, after) => if wanted r then acceptRun wanted after else after.back
  | (none, after) => after.back
termination_by c.ahead.length
decreasing_by exact ahead_next_lt _h

/-- Reading a run leaves no more to read. -/
theorem ahead_acceptRun_le (wanted : Char → Bool) (c : Cursor) :
    (c.acceptRun wanted).ahead.length ≤ c.ahead.length := by
  fun_induction acceptRun wanted c with
  | case1 c r after h hw ih => exact Nat.le_trans ih (Nat.le_of_lt (ahead_next_lt h))
  | case2 c r after h hw => simp [back_next h]
  | case3 c after h =>
    obtain ⟨hc, ha, _, hend⟩ := next_eq_none h
    simp [back_of_metEnd hend, ha]

/-- A run that starts with a wanted character leaves less to read. -/
theorem ahead_acceptRun_lt {wanted : Char → Bool} {c after : Cursor} {r : Char}
    (h : c.next = (some r, after)) (hw : wanted r = true) :
    (c.acceptRun wanted).ahead.length < c.ahead.length := by
  rw [acceptRun]
  split
  · rename_i r' after' h'
    rw [h] at h'
    cases h'
    rw [if_pos hw]
    exact Nat.lt_of_le_of_lt (ahead_acceptRun_le wanted after) (ahead_next_lt h)
  · rename_i after' h'
    rw [h] at h'
    cases h'

end Cursor

end Reckon
