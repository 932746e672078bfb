import Reckon.Cursor
import Reckon.Proofs.Text.Runes

/-!
# Cursors over runes

What a cursor does, said in runes. `Cursor.Passes c rs after` means that `after` is the place to
which reading the runes `rs` leads from `c`; the two cursors may differ in whether the end has been
met, which no reading depends on. Every operation passes some of the runes ahead:

* `next` passes one, and none at the end (`passes_next`, `passes_next_end`);
* `peek` passes none (`passes_peek`);
* `accept` passes the next one if it is wanted (`passes_accept`, `passes_accept_none`);
* `acceptRun` passes all wanted ones up to the first that is not (`passes_acceptRun`).

`Passes.since_eq` gives back the bytes of what was passed.
-/

namespace Reckon

namespace Cursor

/-- `after` is where reading the runes `rs` leads from `c`. -/
structure Passes (c : Cursor) (rs : List Rune) (after : Cursor) : Prop where
  runes_eq : c.ahead.runes = rs ++ after.ahead.runes
  behind_eq : after.behind = (Rune.spell rs).reverse ++ c.behind

namespace Passes

variable {c after last : Cursor} {rs ss : List Rune}

theorem refl (c : Cursor) : Passes c [] c := ⟨rfl, rfl⟩

/-- Passing some runes and then some more. -/
theorem trans (h : Passes c rs after) (h' : Passes after ss last) : Passes c (rs ++ ss) last := by
  constructor
  · rw [h.runes_eq, h'.runes_eq, List.append_assoc]
  · rw [h'.behind_eq, h.behind_eq, Rune.spell_append, List.reverse_append, List.append_assoc]

theorem pos_eq (h : Passes c rs after) : after.pos = c.pos + (Rune.spell rs).length := by
  rw [after.pos_eq, c.pos_eq, h.behind_eq, List.length_append, List.length_reverse]
  omega

/-- What is ahead afterwards is what was ahead without the runes passed. -/
theorem drop_eq (h : Passes c rs after) : c.ahead.runes.drop rs.length = after.ahead.runes := by
  rw [h.runes_eq, List.drop_left]

/-- The bytes between two places are those of the runes passed. -/
theorem since_eq (h : Passes c rs after) : after.since c.pos = Rune.spell rs := by
  have hlen : after.pos - c.pos = (Rune.spell rs).reverse.length := by
    rw [h.pos_eq, List.length_reverse]
    omega
  rw [since, hlen, h.behind_eq, List.take_left, List.reverse_reverse]

end Passes

/-! ### One rune -/

/-- Reading with a rune ahead passes that rune. -/
theorem passes_next {c : Cursor} {r : Rune} {rs : List Rune} (h : c.ahead.runes = r :: rs) :
    c.next.1 = some r.char ∧ Passes c [r] c.next.2 := by
  obtain ⟨rest, hu, -⟩ := Text.uncons_of_runes_eq_cons h
  rcases hn : c.next with ⟨_ | char, after⟩
  · obtain ⟨hnil, -⟩ := next_eq_none hn
    rw [hnil, Text.runes_nil] at h
    contradiction
  · obtain ⟨rune, hu', rfl, hbehind, -⟩ := next_eq_some hn
    rw [hu] at hu'
    cases hu'
    refine ⟨rfl, ?_, ?_⟩
    · rw [Text.runes_of_uncons hu]
      rfl
    · rw [hbehind]
      simp

/-- Reading at the end passes nothing. -/
theorem passes_next_end {c : Cursor} (h : c.ahead.runes = []) :
    c.next.1 = none ∧ Passes c [] c.next.2 := by
  rcases hn : c.next with ⟨_ | char, after⟩
  · obtain ⟨hc, ha, hbehind, -⟩ := next_eq_none hn
    exact ⟨rfl, by rw [hc, ha]; rfl, by rw [hbehind]; rfl⟩
  · obtain ⟨rune, hu, -⟩ := next_eq_some hn
    rw [Text.runes_of_uncons hu] at h
    contradiction

/-- Taking back a reading passes nothing, whether there was a rune or not. -/
theorem passes_back_next (c : Cursor) : Passes c [] c.next.2.back := by
  rcases hn : c.next with ⟨_ | char, after⟩
  · obtain ⟨hc, ha, hbehind, hend⟩ := next_eq_none hn
    rw [back_of_metEnd hend]
    exact ⟨by rw [hc, ha]; rfl, by rw [hbehind]; rfl⟩
  · rw [back_next hn]
    exact Passes.refl c

/-- Looking ahead shows the next rune and passes nothing. -/
theorem passes_peek (c : Cursor) :
    c.peek.1 = c.ahead.runes.head?.map Rune.char ∧ Passes c [] c.peek.2 := by
  refine ⟨?_, passes_back_next c⟩
  rcases hr : c.ahead.runes with _ | ⟨r, rs⟩
  · exact (passes_next_end hr).1
  · exact (passes_next hr).1

/-- A wanted rune is passed. -/
theorem passes_accept (wanted : Char → Bool) {c : Cursor} {r : Rune} {rs : List Rune}
    (h : c.ahead.runes = r :: rs) (hw : wanted r.char = true) :
    (c.accept wanted).1 = true ∧ Passes c [r] (c.accept wanted).2 := by
  obtain ⟨hchar, hpass⟩ := passes_next h
  rcases hn : c.next with ⟨char?, after⟩
  rw [hn] at hchar hpass
  cases hchar
  simp only [accept, hn, hw, if_true]
  exact ⟨trivial, hpass⟩

/-- Anything else is not passed. -/
theorem passes_accept_none (wanted : Char → Bool) {c : Cursor}
    (h : ∀ r ∈ c.ahead.runes.head?, wanted r.char = false) :
    (c.accept wanted).1 = false ∧ Passes c [] (c.accept wanted).2 := by
  have hback := passes_back_next c
  rcases hr : c.ahead.runes with _ | ⟨r, rs⟩
  · have hchar := (passes_next_end hr).1
    rcases hn : c.next with ⟨char?, after⟩
    rw [hn] at hchar hback
    cases hchar
    simp only [accept, hn]
    exact ⟨trivial, hback⟩
  · have hw : wanted r.char = false := h r (by rw [hr]; rfl)
    have hchar := (passes_next hr).1
    rcases hn : c.next with ⟨char?, after⟩
    rw [hn] at hchar hback
    cases hchar
    simp only [accept, hn, hw, Bool.false_eq_true, if_false]
    exact ⟨trivial, hback⟩

/-! ### Runs -/

/-- **A run is the longest stretch of wanted runes.** -/
theorem passes_acceptRun (wanted : Char → Bool) (c : Cursor) :
    Passes c (c.ahead.runes.takeWhile fun r => wanted r.char) (c.acceptRun wanted) := by
  fun_induction acceptRun wanted c with
  | case1 c char after hn hw ih =>
    obtain ⟨rune, hu, rfl, -⟩ := next_eq_some hn
    have hruns := Text.runes_of_uncons hu
    have hfirst : Passes c [rune] after := by
      have := (passes_next hruns).2
      rwa [hn] at this
    rw [hruns, List.takeWhile_cons, if_pos hw]
    exact hfirst.trans ih
  | case2 c char after hn hw =>
    obtain ⟨rune, hu, rfl, -⟩ := next_eq_some hn
    rw [Text.runes_of_uncons hu, List.takeWhile_cons, if_neg hw, back_next hn]
    exact Passes.refl c
  | case3 c after hn =>
    have hback := passes_back_next c
    rw [hn] at hback
    obtain ⟨hc, -⟩ := next_eq_none hn
    rw [hc, Text.runes_nil, List.takeWhile_nil]
    exact hback

end Cursor

end Reckon
