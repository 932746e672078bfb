import Reckon.Cursor
import Reckon.Proofs.Text.Runes

/-!
# Cutting texts and putting them together, in runes

The runes of a text spell it (`spell_runes`), so a cut of its runes is a cut of its bytes
(`exists_of_runes_eq_append`), and the runes before the cut are still read in the same way
(`runes_spell_of_append`). The other way round, the runes of two texts are those of the text made up
of them if the first one is well formed (`runes_append`); otherwise its last byte may turn out to be
the start of a rune.

An ASCII byte is a rune of its own wherever it stands (`mem_runes_of_mem`). It can be looked for
among the bytes as well as among the runes.
-/

namespace Reckon

namespace Text

variable {t rest u : Text} {r : Rune} {rs ss : List Rune}

/-- The runes of a text spell it. -/
@[simp]
theorem spell_runes (t : Text) : Rune.spell t.runes = t := by
  fun_induction runes t with
  | case1 t hu => rw [Cursor.ahead_eq_nil_of_uncons hu, Rune.spell_nil]
  | case2 t r rest hu ih => rw [Rune.spell_cons, ih, (append_of_uncons hu).1]

/-! ### The first rune -/

/-- **What the first rune of a text can be**: an ASCII byte, a byte from `0x80` on that starts no
longer rune, or a longer rune, all of whose bytes are from `0x80` on and which is read in the same
way before any other text. -/
theorem uncons_cases (h : t.uncons = some (r, rest)) :
    (∃ b, b < 0x80 ∧ r = ⟨Char.ofNat b.toNat, [b]⟩) ∨
      (∃ b, ¬ b < 0x80 ∧ r = ⟨Rune.replacement, [b]⟩ ∧ Rune.multibyte? b rest = none) ∨
      (∀ b ∈ r.spelling, ¬ b < 0x80) ∧ ∀ u, (r.spelling ++ u).uncons = some (r, u) := by
  obtain ⟨b, hb, -, rfl⟩ | ⟨b, hb, hm, -, rfl⟩ | ⟨b, tail, hb, hm, -⟩ := uncons_eq_some_cases h
  · exact .inl ⟨b, hb, rfl⟩
  · exact .inr (.inl ⟨b, hb, rfl, hm⟩)
  · obtain ⟨trails, hs, -, -, -, htrails, hread⟩ := Rune.shape_of_multibyte? hm
    refine .inr (.inr ⟨?_, fun u => by simp [uncons, hs, hb, hread]⟩)
    rw [hs]
    refine List.forall_mem_cons.mpr ⟨hb, fun x hx hlow => ?_⟩
    have htrail := htrails x hx
    simp only [Rune.isTrail, UInt8.le_iff_toNat_le, UInt8.lt_iff_toNat_lt, Bool.and_eq_true,
      decide_eq_true_eq, UInt8.reduceToNat] at htrail hlow
    omega

/-- A longer rune is read in the same way if more text follows. -/
theorem multibyte?_append {b : UInt8} (h : Rune.multibyte? b t = some (r, rest)) (u : Text) :
    Rune.multibyte? b (t ++ u) = some (r, rest ++ u) := by
  obtain ⟨trails, hs, -, -, -, -, hread⟩ := Rune.shape_of_multibyte? h
  have happ := (Rune.append_of_multibyte? h).1
  rw [hs] at happ
  obtain rfl : trails ++ rest = t := (List.cons.inj happ).2
  rw [List.append_assoc]
  exact hread (rest ++ u)

/-- The first rune is read in the same way if some of the text after it is missing. -/
theorem uncons_of_append (h : t.uncons = some (r, rest ++ u)) :
    (r.spelling ++ rest).uncons = some (r, rest) := by
  rcases uncons_cases h with ⟨b, hb, rfl⟩ | ⟨b, hb, rfl, hm⟩ | ⟨-, hread⟩
  · simp [uncons, hb]
  · -- a byte that starts no longer rune starts none either if there is less after it
    have hnone : Rune.multibyte? b rest = none := by
      rcases hm' : Rune.multibyte? b rest with _ | ⟨r', rest'⟩
      · rfl
      · rw [multibyte?_append hm'] at hm
        contradiction
    simp [uncons, hb, hnone]
  · exact hread rest

/-- A rune that stands for itself is read in the same way before any other text. -/
theorem uncons_spelling_append (h : t.uncons = some (r, rest)) (hr : r.isInvalid = false)
    (u : Text) : (r.spelling ++ u).uncons = some (r, u) := by
  rcases uncons_cases h with ⟨b, hb, rfl⟩ | ⟨b, hb, rfl, hm⟩ | ⟨-, hread⟩
  · simp [uncons, hb]
  · contradiction
  · exact hread u

/-! ### Cutting -/

/-- A cut of the runes is a cut of the text. -/
theorem exists_of_runes_eq_append (h : t.runes = rs ++ ss) :
    ∃ rest, t = Rune.spell rs ++ rest ∧ rest.runes = ss := by
  induction rs generalizing t with
  | nil => exact ⟨t, rfl, h⟩
  | cons r rs ih =>
    obtain ⟨rest, hu, hrest⟩ := uncons_of_runes_eq_cons h
    obtain ⟨last, rfl, hlast⟩ := ih hrest
    refine ⟨last, ?_, hlast⟩
    rw [Rune.spell_cons, List.append_assoc, (append_of_uncons hu).1]

/-- **The runes before a cut are read in the same way without what comes after it.** -/
theorem runes_spell_of_append (h : t.runes = rs ++ ss) : (Rune.spell rs).runes = rs := by
  induction rs generalizing t with
  | nil => exact runes_nil
  | cons r rs ih =>
    obtain ⟨rest, hu, hrest⟩ := uncons_of_runes_eq_cons h
    obtain ⟨last, hcut, -⟩ := exists_of_runes_eq_append hrest
    rw [hcut] at hu
    rw [Rune.spell_cons, runes_of_uncons (uncons_of_append hu), ih hrest]

/-! ### Putting together -/

/-- **Texts are put together rune by rune**, if the first one is well formed. -/
theorem runes_append (ht : t.isValid = true) (u : Text) : (t ++ u).runes = t.runes ++ u.runes := by
  fun_induction runes t with
  | case1 t hu =>
    rw [Cursor.ahead_eq_nil_of_uncons hu, List.nil_append, List.nil_append]
  | case2 t r rest hu ih =>
    rw [isValid, runes_of_uncons hu, List.all_cons, Bool.and_eq_true, Bool.not_eq_true'] at ht
    obtain ⟨hr, hrest⟩ := ht
    rw [← (append_of_uncons hu).1, List.append_assoc,
      runes_of_uncons (uncons_spelling_append hu hr _), ih hrest, List.cons_append]

@[simp]
theorem isValid_nil : isValid [] = true := by
  rw [isValid, runes_nil, List.all_nil]

/-- A text that shows no `U+FFFD` is well formed. -/
theorem isValid_of_char_ne (h : ∀ r ∈ t.runes, r.char ≠ Rune.replacement) : t.isValid = true := by
  rw [isValid, List.all_eq_true]
  intro r hr
  simp [Rune.isInvalid, h r hr]

/-! ### ASCII bytes -/

/-- **An ASCII byte is a rune of its own**, wherever it stands in a text. -/
theorem mem_runes_of_mem {b : UInt8} (h : b ∈ t) (hb : b < 0x80) :
    ⟨Char.ofNat b.toNat, [b]⟩ ∈ t.runes := by
  fun_induction runes t with
  | case1 t hu =>
    rw [Cursor.ahead_eq_nil_of_uncons hu] at h
    contradiction
  | case2 t r rest hu ih =>
    rw [← (append_of_uncons hu).1, List.mem_append] at h
    rcases h with h | h
    · rw [List.mem_cons]
      left
      rcases uncons_cases hu with ⟨b', -, rfl⟩ | ⟨b', hb', rfl, -⟩ | ⟨hhigh, -⟩
      · rw [List.mem_singleton] at h
        rw [h]
      · rw [List.mem_singleton] at h
        exact absurd (h ▸ hb) hb'
      · exact absurd hb (hhigh b h)
    · exact List.mem_cons_of_mem r (ih h)

/-- A text of ASCII bytes is read byte by byte. -/
theorem runes_of_ascii (h : ∀ b ∈ t, b < 0x80) :
    t.runes = t.map fun b => ⟨Char.ofNat b.toNat, [b]⟩ := by
  induction t with
  | nil => exact runes_nil
  | cons b t ih =>
    obtain ⟨hb, ht⟩ := List.forall_mem_cons.mp h
    have hu : uncons (b :: t) = some (⟨Char.ofNat b.toNat, [b]⟩, t) := by rw [uncons, if_pos hb]
    rw [runes_of_uncons hu, ih ht, List.map_cons]

/-- The bytes of a rune are bytes of its text. -/
theorem mem_of_mem_runes (h : r ∈ t.runes) {b : UInt8} (hb : b ∈ r.spelling) : b ∈ t := by
  rw [← spell_runes t]
  exact List.mem_flatMap.mpr ⟨r, h, hb⟩

end Text

end Reckon
