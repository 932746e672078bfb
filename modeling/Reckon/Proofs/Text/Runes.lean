import Reckon.Text.Rune

/-!
# Texts as sequences of runes

`Text.runes` is read one rune at a time: it starts with the rune of `Text.uncons`
(`runes_of_uncons`), and is empty where there is none (`runes_of_uncons_eq_none`). `Rune.spell` goes
the other way, from runes to their bytes.

The main statement, `spelling_of_ascii`, says that an ASCII character is only ever spelled by its
one byte: longer spellings are those of characters from `U+0080` on, and a byte that spells nothing
shows as `U+FFFD`. Questions about the ASCII characters of a text can therefore be asked of its
bytes.
-/

namespace Reckon

namespace Rune

/-- The bytes of a sequence of runes. -/
def spell (rs : List Rune) : Text := rs.flatMap Rune.spelling

@[simp]
theorem spell_nil : spell [] = [] := rfl

@[simp]
theorem spell_cons (r : Rune) (rs : List Rune) : spell (r :: rs) = r.spelling ++ spell rs := rfl

@[simp]
theorem spell_append (rs ss : List Rune) : spell (rs ++ ss) = spell rs ++ spell ss :=
  List.flatMap_append

/-! ### Code points of longer spellings -/

/-- A code point outside the surrogates is the code point of its character. -/
private theorem toNat_ofNat {n : Nat} (h : n.isValidChar) : (Char.ofNat n).toNat = n := by
  rw [Char.ofNat, dif_pos h]
  rfl

private theorem le_toNat_ofNat {n : Nat} (h : 0x80 ≤ n ∧ n.isValidChar) :
    0x80 ≤ (Char.ofNat n).toNat := by
  rw [toNat_ofNat h.2]
  exact h.1

/-- A bound on the second byte that depends on the first byte, in numbers. -/
private theorem toNat_bound {b x u v : UInt8} :
    (if b == x then u else v).toNat = if b.toNat = x.toNat then u.toNat else v.toNat := by
  by_cases h : b = x
  · simp [h]
  · simp [h, UInt8.toNat_inj]

theorem le_toNat_of_two? {b₀ b₁ : UInt8} {c : Char} (h : two? b₀ b₁ = some c) :
    0x80 ≤ c.toNat := by
  simp only [two?, Option.ite_none_right_eq_some, Option.some.injEq] at h
  obtain ⟨hb, rfl⟩ := h
  simp only [isTrail, UInt8.le_iff_toNat_le, Bool.and_eq_true, decide_eq_true_eq,
    UInt8.reduceToNat] at hb
  apply le_toNat_ofNat
  unfold trailBits Nat.isValidChar
  omega

theorem le_toNat_of_three? {b₀ b₁ b₂ : UInt8} {c : Char} (h : three? b₀ b₁ b₂ = some c) :
    0x80 ≤ c.toNat := by
  simp only [three?, Option.ite_none_right_eq_some, Option.some.injEq] at h
  obtain ⟨hb, rfl⟩ := h
  simp only [isTrail, UInt8.le_iff_toNat_le, toNat_bound, Bool.and_eq_true, decide_eq_true_eq,
    UInt8.reduceToNat] at hb
  apply le_toNat_ofNat
  unfold trailBits Nat.isValidChar
  -- the second byte keeps the code point above the overlong forms and off the surrogates
  split at hb <;> split at hb <;> omega

theorem le_toNat_of_four? {b₀ b₁ b₂ b₃ : UInt8} {c : Char} (h : four? b₀ b₁ b₂ b₃ = some c) :
    0x80 ≤ c.toNat := by
  simp only [four?, Option.ite_none_right_eq_some, Option.some.injEq] at h
  obtain ⟨hb, rfl⟩ := h
  simp only [isTrail, UInt8.le_iff_toNat_le, toNat_bound, Bool.and_eq_true, decide_eq_true_eq,
    UInt8.reduceToNat] at hb
  apply le_toNat_ofNat
  unfold trailBits Nat.isValidChar
  split at hb <;> split at hb <;> omega

/-- No ASCII character has a spelling of several bytes. -/
theorem le_toNat_of_multibyte? {b₀ : UInt8} {t rest : Text} {r : Rune}
    (h : multibyte? b₀ t = some (r, rest)) : 0x80 ≤ r.char.toNat := by
  obtain ⟨_, _, h₂, -, rfl⟩ | ⟨_, _, _, -, h₃, -, rfl⟩ | ⟨_, _, _, _, -, -, h₄, -, rfl⟩ :=
    multibyte?_eq_some_cases h
  · exact le_toNat_of_two? h₂
  · exact le_toNat_of_three? h₃
  · exact le_toNat_of_four? h₄

end Rune

namespace Text

/-! ### Reading the runes in order -/

@[simp]
theorem runes_nil : runes [] = [] := by
  rw [runes]
  rfl

/-- The runes of a text are its first rune and the runes of the rest. -/
theorem runes_of_uncons {t rest : Text} {r : Rune} (h : t.uncons = some (r, rest)) :
    t.runes = r :: rest.runes := by
  rw [runes]
  split
  · rename_i hn
    rw [h] at hn
    contradiction
  · rename_i r' rest' hs
    rw [h] at hs
    cases hs
    rfl

/-- Only the end of a text has no rune. -/
theorem runes_of_uncons_eq_none {t : Text} (h : t.uncons = none) : t.runes = [] := by
  rw [runes]
  split
  · rfl
  · rename_i hs
    rw [h] at hs
    contradiction

/-- The first rune of a text that has one is what is read first. -/
theorem uncons_of_runes_eq_cons {t : Text} {r : Rune} {rs : List Rune} (h : t.runes = r :: rs) :
    ∃ rest, t.uncons = some (r, rest) ∧ rest.runes = rs := by
  rcases hu : t.uncons with _ | ⟨r', rest⟩
  · rw [runes_of_uncons_eq_none hu] at h
    contradiction
  · rw [runes_of_uncons hu] at h
    cases h
    exact ⟨rest, rfl, rfl⟩

/-! ### ASCII characters -/

/-- An ASCII character that is read first is spelled by its one byte. -/
theorem spelling_of_uncons {t rest : Text} {r : Rune} (h : t.uncons = some (r, rest))
    (hr : r.char.toNat < 0x80) : r.spelling = [r.char.toUInt8] := by
  obtain ⟨b, -, -, rfl⟩ | ⟨b, -, -, -, rfl⟩ | ⟨b, tail, -, hm, -⟩ := uncons_eq_some_cases h
  · have hval : (Char.ofNat b.toNat).toNat = b.toNat :=
      Rune.toNat_ofNat (.inl (Nat.lt_of_lt_of_le b.toNat_lt (by decide)))
    have hbyte : (Char.ofNat b.toNat).toUInt8 = b := by
      apply UInt8.toNat_inj.mp
      change (Char.ofNat b.toNat).toNat % 256 = b.toNat
      rw [hval]
      exact Nat.mod_eq_of_lt b.toNat_lt
    rw [hbyte]
  · -- the character shown for a byte that spells nothing is not an ASCII one
    exact absurd hr (by decide : ¬ Rune.replacement.toNat < 0x80)
  · exact absurd hr (Nat.not_lt.mpr (Rune.le_toNat_of_multibyte? hm))

/-- **An ASCII character is spelled by its one byte**, wherever it stands in a text. -/
theorem spelling_of_ascii {t : Text} {r : Rune} (h : r ∈ t.runes) (hr : r.char.toNat < 0x80) :
    r.spelling = [r.char.toUInt8] := by
  fun_induction runes t with
  | case1 t hu => contradiction
  | case2 t first rest hu ih =>
    rcases List.mem_cons.mp h with rfl | h
    · exact spelling_of_uncons hu hr
    · exact ih h

end Text

end Reckon
