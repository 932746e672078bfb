import Mathlib.Data.List.Basic
import Mathlib.Data.List.TakeWhile
import Reckon.Proofs.Text.OneLine
import Reckon.Text.Blank
import Reckon.Text.Lines

/-!
# Cutting texts at newlines

A text that was joined is cut apart again (`splitOn_join`). Lines are such pieces, except that
nothing counts as a line behind the last newline. Reading line by line goes through them in order:
`isTrueOf_nextLine` says that the next line is the first one of all lines, and that the lines of
what is left are the others.

A carriage return at the end of a line makes no difference to whether the line is blank
(`isAllBlank_dropLastByte`), because an ASCII byte is a rune of its own even behind the first bytes
of a longer one.
-/

namespace Reckon

namespace Text

/-! ### Cutting what was joined -/

section Split

variable {separator : UInt8} {t u : Text}

/-- What has no separator belongs to the first piece of what follows. -/
theorem splitOn_append (ht : separator ∉ t) {first : Text} {rest : List Text}
    (hu : splitOn separator u = first :: rest) :
    splitOn separator (t ++ u) = (t ++ first) :: rest := by
  induction t with
  | nil => exact hu
  | cons b t ih =>
    obtain ⟨hb, ht⟩ := not_or.mp (mt List.mem_cons.mpr ht)
    have hne : (b == separator) = false := beq_eq_false_iff_ne.mpr (Ne.symm hb)
    have hrest : splitOn separator (t ++ u) = (t ++ first) :: rest := ih ht
    rw [splitOn] at hrest
    rw [splitOn, List.cons_append, List.foldr_cons, hrest, hne]
    rfl

/-- At a separator one piece ends and the next one starts. -/
theorem splitOn_separator (u : Text) :
    splitOn separator (separator :: u) = [] :: splitOn separator u := by
  rw [splitOn, List.foldr_cons, beq_self_eq_true]
  rfl

theorem splitOn_append_separator (ht : separator ∉ t) (u : Text) :
    splitOn separator (t ++ separator :: u) = t :: splitOn separator u := by
  rw [splitOn_append ht (splitOn_separator u), List.append_nil]

theorem splitOn_of_not_mem (ht : separator ∉ t) : splitOn separator t = [t] := by
  have hcut := splitOn_append (u := []) ht rfl
  rwa [List.append_nil] at hcut

theorem splitOn_ne_nil (separator : UInt8) (t : Text) : splitOn separator t ≠ [] := by
  cases t with
  | nil => exact List.cons_ne_nil _ _
  | cons b t =>
    rw [splitOn, List.foldr_cons]
    split
    · exact List.cons_ne_nil _ _
    · split <;> exact List.cons_ne_nil _ _

/-- **Joined pieces are cut apart again.** -/
theorem splitOn_join {pieces : List Text} (hne : pieces ≠ [])
    (h : ∀ piece ∈ pieces, separator ∉ piece) :
    splitOn separator (join [separator] pieces) = pieces := by
  induction pieces with
  | nil => exact absurd rfl hne
  | cons piece rest ih =>
    obtain ⟨hpiece, hrest⟩ := List.forall_mem_cons.mp h
    cases rest with
    | nil => exact splitOn_of_not_mem hpiece
    | cons next rest =>
      rw [join, List.append_assoc, List.singleton_append, splitOn_append_separator hpiece,
        ih (List.cons_ne_nil next rest) hrest]
      exact List.cons_ne_nil next rest

end Split

/-! ### Lines -/

variable {t rest : Text}

theorem lines_nil : lines [] = [] := rfl

/-- A last line needs no newline. -/
theorem lines_of_oneLine (h : OneLine t) (hne : t ≠ []) : lines t = [t] := by
  rw [lines, splitOn_of_not_mem h]
  exact if_neg (by simpa using hne)

/-- **A line ends with a newline**, and the others are those of what follows. -/
theorem lines_append_newline (h : OneLine t) (rest : Text) :
    lines (t ++ '\n'.toUInt8 :: rest) = t :: lines rest := by
  rw [lines, lines, splitOn_append_separator h]
  have hne := splitOn_ne_nil '\n'.toUInt8 rest
  generalize splitOn '\n'.toUInt8 rest = pieces at hne
  obtain ⟨piece, pieces, rfl⟩ := List.exists_cons_of_ne_nil hne
  rw [List.getLast?_cons_cons, List.dropLast_cons_cons]
  split <;> rfl

/-- Lines that are joined are found again. -/
theorem lines_join {pieces : List Text} (h : ∀ piece ∈ pieces, OneLine piece ∧ piece ≠ []) :
    lines (join (Text.lit "\n") pieces) = pieces := by
  induction pieces with
  | nil => rfl
  | cons piece pieces ih =>
    obtain ⟨⟨hline, hne⟩, hrest⟩ := List.forall_mem_cons.mp h
    cases pieces with
    | nil => exact lines_of_oneLine hline hne
    | cons next rest =>
      have hjoin : join (Text.lit "\n") (piece :: next :: rest) =
          piece ++ '\n'.toUInt8 :: join (Text.lit "\n") (next :: rest) := by
        rw [join, List.append_assoc]
        · rfl
        · exact List.cons_ne_nil next rest
      rw [hjoin, lines_append_newline hline, ih hrest]

/-- A text is one line, or one line with a newline and more text behind it. -/
theorem exists_line (t : Text) :
    ∃ line, OneLine line ∧ (t = line ∨ ∃ rest, t = line ++ '\n'.toUInt8 :: rest) := by
  induction t with
  | nil => exact ⟨[], oneLine_nil, .inl rfl⟩
  | cons b t ih =>
    by_cases hb : b = '\n'.toUInt8
    · exact ⟨[], oneLine_nil, .inr ⟨t, by rw [hb, List.nil_append]⟩⟩
    · obtain ⟨line, hline, rfl | ⟨rest, rfl⟩⟩ := ih
      · exact ⟨b :: t, oneLine_cons.mpr ⟨hb, hline⟩, .inl rfl⟩
      · exact ⟨b :: line, oneLine_cons.mpr ⟨hb, hline⟩, .inr ⟨rest, rfl⟩⟩

theorem firstLine_of_oneLine (h : OneLine t) : firstLine t = t := by
  refine List.takeWhile_eq_self_iff.mpr fun b hb => ?_
  rw [bne_iff_ne]
  rintro rfl
  exact h hb

/-- Reading a line takes the text up to the first newline. -/
theorem nextLine_eq (hne : t ≠ []) :
    nextLine t = if fitsLine (firstLine t) then
      .line (dropLastByte '\r'.toUInt8 (firstLine t)) (t.drop ((firstLine t).length + 1))
    else .tooLong := by
  rw [nextLine, if_neg (by simpa using hne)]
  rfl

/-- What a reading says about the lines of the input. -/
def LineRead.IsTrueOf (input : Text) : LineRead → Prop
  | .atEnd => lines input = []
  | .tooLong => ∃ line rest, lines input = line :: lines rest ∧ fitsLine line = false
  | .line t rest => ∃ line, lines input = line :: lines rest ∧ fitsLine line = true ∧
      t = dropLastByte '\r'.toUInt8 line

/-- **Reading goes through the lines in order.** -/
theorem isTrueOf_nextLine (input : Text) : (nextLine input).IsTrueOf input := by
  have hread {line rest : Text} (hlines : lines input = line :: lines rest) :
      (if fitsLine line then .line (dropLastByte '\r'.toUInt8 line) rest
        else .tooLong : LineRead).IsTrueOf input := by
    split
    · rename_i hfits
      exact ⟨line, hlines, hfits, rfl⟩
    · rename_i hlong
      exact ⟨line, rest, hlines, Bool.eq_false_iff.mpr hlong⟩
  obtain ⟨line, hline, rfl | ⟨rest, rfl⟩⟩ := exists_line input
  · by_cases hempty : input = []
    · subst hempty
      exact lines_nil
    · rw [nextLine_eq hempty, firstLine_of_oneLine hline, List.drop_eq_nil_of_le (Nat.le_succ _)]
      exact hread (lines_of_oneLine hline hempty)
  · rw [nextLine_eq (by simp), firstLine_append hline, ← List.drop_drop, List.drop_left]
    exact hread (lines_append_newline hline rest)

/-! ### Blank lines -/

theorem spelling_ne_nil {r : Rune} (hr : r ∈ t.runes) : r.spelling ≠ [] := by
  fun_induction runes t with
  | case1 t hu => cases hr
  | case2 t r' rest hu ih =>
    rcases List.mem_cons.mp hr with rfl | hr
    · exact List.length_pos_iff.mp (append_of_uncons hu).2
    · exact ih hr

/-- An ASCII byte is nowhere but in the rune of its own. -/
theorem eq_of_mem_spelling {r : Rune} {b : UInt8} (hr : r ∈ t.runes) (hb : b < 0x80)
    (hmem : b ∈ r.spelling) : r = ⟨Char.ofNat b.toNat, [b]⟩ := by
  fun_induction runes t with
  | case1 t hu => cases hr
  | case2 t r' rest hu ih =>
    rcases List.mem_cons.mp hr with rfl | hr
    · rcases uncons_cases hu with ⟨b', -, rfl⟩ | ⟨b', hb', rfl, -⟩ | ⟨hhigh, -⟩
      · rw [List.mem_singleton] at hmem
        rw [hmem]
      · rw [List.mem_singleton] at hmem
        exact absurd (hmem ▸ hb) hb'
      · exact absurd hb (hhigh b hmem)
    · exact ih hr

/-- **An ASCII byte behind a text is a rune of its own**, also if the text is not well formed. -/
theorem runes_append_ascii (t : Text) {b : UInt8} (hb : b < 0x80) :
    (t ++ [b]).runes = t.runes ++ [⟨Char.ofNat b.toNat, [b]⟩] := by
  have hspell := spell_runes (t ++ [b])
  rcases List.eq_nil_or_concat (t ++ [b]).runes with hnil | ⟨rs, r, hrunes⟩
  · rw [hnil, Rune.spell_nil] at hspell
    exact absurd hspell.symm (by simp)
  rw [List.concat_eq_append] at hrunes
  have hr : r ∈ (t ++ [b]).runes := by
    rw [hrunes]
    exact List.mem_append_right _ (List.mem_singleton_self r)
  rw [hrunes, Rune.spell_append, Rune.spell_cons, Rune.spell_nil, List.append_nil] at hspell
  -- the last rune ends in the last byte, so it is that byte
  have hmem : b ∈ r.spelling := by
    have hlast := congrArg List.getLast? hspell
    rw [List.getLast?_append_of_ne_nil _ (spelling_ne_nil hr), List.getLast?_concat] at hlast
    exact List.mem_of_getLast? hlast
  obtain rfl := eq_of_mem_spelling hr hb hmem
  obtain rfl : Rune.spell rs = t := List.append_cancel_right hspell
  rw [hrunes, runes_spell_of_append hrunes]

theorem isAllBlank_dropLastByte (t : Text) :
    isAllBlank (dropLastByte '\r'.toUInt8 t) = isAllBlank t := by
  rw [dropLastByte]
  split
  · rename_i hlast
    obtain ⟨u, rfl⟩ := List.getLast?_eq_some_iff.mp (eq_of_beq hlast)
    rw [List.dropLast_concat, isAllBlank, isAllBlank, chars, chars,
      runes_append_ascii u (by decide), List.map_append, List.all_append]
    exact (Bool.and_true _).symm
  · rfl

/-- A text is blank if nothing is left of it without the white space at its ends. -/
theorem isEmpty_trimmed (t : Text) : (trimmed t).isEmpty = isAllBlank t := by
  let blank := fun r : Rune => isBlank r.char
  have hsub {r : Rune} (hr : r ∈ ((t.runes.dropWhile blank).reverse.dropWhile blank).reverse) :
      r ∈ t.runes :=
    (List.dropWhile_sublist _).mem
      (List.mem_reverse.mp ((List.dropWhile_sublist _).mem (List.mem_reverse.mp hr)))
  rw [Bool.eq_iff_iff, List.isEmpty_iff, trimmed, List.flatMap_eq_nil_iff, isAllBlank, chars,
    List.all_map, List.all_eq_true]
  constructor
  · intro hempty r hr
    -- nothing that is left has no bytes, so nothing is left
    have hnil : (t.runes.dropWhile blank).reverse.dropWhile blank = [] := by
      rw [← List.reverse_eq_nil_iff]
      exact List.eq_nil_iff_forall_not_mem.mpr fun r hr =>
        spelling_ne_nil (hsub hr) (hempty r hr)
    have hrest := List.dropWhile_eq_nil_iff.mp hnil
    rw [← List.takeWhile_append_dropWhile (p := blank) (l := t.runes)] at hr
    rcases List.mem_append.mp hr with hr | hr
    · exact List.mem_takeWhile_imp hr
    · exact hrest r (List.mem_reverse.mpr hr)
  · intro hall r hr
    have hnil : t.runes.dropWhile blank = [] := List.dropWhile_eq_nil_iff.mpr hall
    rw [hnil] at hr
    cases hr

end Text

end Reckon
