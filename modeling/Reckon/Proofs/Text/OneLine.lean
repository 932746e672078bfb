import Reckon.Decimal.Layout
import Reckon.Proofs.Text.Decoding
import Reckon.Text.Quoted

/-!
# Texts of one line

A report is a message on a line of its own, so no message may contain a newline. `Text.OneLine` says
that a text does not. Numbers are written without one (`oneLine_ofInt`,
`FloatLayout.oneLine_format`), and quoted text never shows one, whatever is quoted (`oneLine_quote`,
`oneLine_quoteChar`).

`firstLine_append` finds such a text again as the first line of a longer one.
-/

namespace Reckon

namespace Text

/-- There is no newline in the text. -/
def OneLine (t : Text) : Prop := '\n'.toUInt8 ∉ t

instance (t : Text) : Decidable t.OneLine := inferInstanceAs (Decidable (_ ∉ _))

variable {t u : Text}

@[simp]
theorem oneLine_nil : OneLine [] := List.not_mem_nil

@[simp]
theorem oneLine_cons {b : UInt8} : OneLine (b :: t) ↔ b ≠ '\n'.toUInt8 ∧ OneLine t := by
  rw [OneLine, OneLine, List.mem_cons, not_or, ne_comm]

@[simp]
theorem oneLine_append : OneLine (t ++ u) ↔ OneLine t ∧ OneLine u := by
  rw [OneLine, List.mem_append, not_or]
  rfl

theorem oneLine_replicate {b : UInt8} (hb : b ≠ '\n'.toUInt8) (n : Nat) :
    OneLine (List.replicate n b) := fun h => hb (List.eq_of_mem_replicate h).symm

theorem oneLine_flatMap {α : Type} {f : α → Text} {l : List α} (h : ∀ x ∈ l, OneLine (f x)) :
    OneLine (l.flatMap f) := by
  intro hmem
  obtain ⟨x, hx, hb⟩ := List.mem_flatMap.mp hmem
  exact h x hx hb

/-- The text before the first newline. -/
def firstLine (t : Text) : Text := t.takeWhile fun b => b != '\n'.toUInt8

theorem firstLine_append (h : OneLine t) (rest : Text) :
    firstLine (t ++ '\n'.toUInt8 :: rest) = t := by
  have ht : ∀ b ∈ t, (b != '\n'.toUInt8) = true := by
    intro b hb
    rw [bne_iff_ne]
    rintro rfl
    exact h hb
  rw [firstLine, List.takeWhile_append_of_pos ht, List.takeWhile_cons]
  simp

/-! ### Numbers -/

/-- Digits are written with the characters for digits. -/
theorem exists_digitChar_of_mem {base n : Nat} {c : Char} (h : c ∈ Nat.toDigits base n) :
    ∃ k, c = Nat.digitChar k := by
  have hcore : ∀ fuel n (cs : List Char), (∀ c ∈ cs, ∃ k, c = Nat.digitChar k) →
      ∀ c ∈ Nat.toDigitsCore base fuel n cs, ∃ k, c = Nat.digitChar k := by
    intro fuel
    induction fuel with
    | zero => exact fun n cs hcs => hcs
    | succ fuel ih =>
      intro n cs hcs
      rw [Nat.toDigitsCore]
      have hnew : ∀ c ∈ Nat.digitChar (n % base) :: cs, ∃ k, c = Nat.digitChar k :=
        List.forall_mem_cons.mpr ⟨⟨_, rfl⟩, hcs⟩
      split
      · exact hnew
      · exact ih _ _ hnew
  exact hcore _ _ [] (by simp) c h

theorem digitChar_ne_newline (k : Nat) : (Nat.digitChar k).toUInt8 ≠ '\n'.toUInt8 := by
  rcases Nat.lt_or_ge k 16 with hk | hk
  · revert k
    decide
  · have hstar : Nat.digitChar k = '*' := by
      unfold Nat.digitChar
      repeat rw [if_neg (by omega)]
    rw [hstar]
    decide

theorem oneLine_digits (base n : Nat) : OneLine ((Nat.toDigits base n).map Char.toUInt8) := by
  intro h
  obtain ⟨c, hc, hb⟩ := List.mem_map.mp h
  obtain ⟨k, rfl⟩ := exists_digitChar_of_mem hc
  exact digitChar_ne_newline k hb

@[simp]
theorem oneLine_ofNat (n : Nat) : OneLine (ofNat n) := oneLine_digits 10 n

@[simp]
theorem oneLine_ofInt (n : Int) : OneLine (ofInt n) := by
  rw [ofInt]
  split
  · exact oneLine_cons.mpr ⟨by decide, oneLine_ofNat _⟩
  · exact oneLine_ofNat _

@[simp]
theorem oneLine_hex (width n : Nat) : OneLine (hex width n) :=
  oneLine_append.mpr ⟨oneLine_replicate (by decide) _, oneLine_digits 16 n⟩

/-! ### Quoted text -/

/-- Only the newline is spelled with a newline. -/
theorem oneLine_ofChar {c : Char} (hc : c ≠ '\n') : OneLine (ofChar c) := by
  have hval : c.val.toNat ≠ 10 := fun h => hc (Char.ext (UInt32.toNat_inj.mp h))
  have hbyte : ∀ n, n % 256 ≠ 10 → UInt8.ofNat n ≠ '\n'.toUInt8 := by
    intro n hn heq
    exact hn (congrArg UInt8.toNat heq)
  rw [ofChar, String.utf8EncodeChar]
  split
  · simp only [oneLine_cons, oneLine_nil, and_true]
    exact hbyte _ (by omega)
  · split
    · simp only [oneLine_cons, oneLine_nil, and_true]
      exact ⟨hbyte _ (by omega), hbyte _ (by omega)⟩
    · split
      · simp only [oneLine_cons, oneLine_nil, and_true]
        exact ⟨hbyte _ (by omega), hbyte _ (by omega), hbyte _ (by omega)⟩
      · simp only [oneLine_cons, oneLine_nil, and_true]
        exact ⟨hbyte _ (by omega), hbyte _ (by omega), hbyte _ (by omega), hbyte _ (by omega)⟩

theorem oneLine_escapedChar {mark : Char} (hmark : mark ≠ '\n') (c : Char) :
    OneLine (escapedChar mark c) := by
  by_cases hc : c = '\n'
  · -- a newline has a letter
    subst hc
    have hne : ('\n' == mark || '\n' == '\\') = false := by simp [Ne.symm hmark]
    rw [escapedChar, hne]
    decide
  · rw [escapedChar]
    split
    · exact oneLine_append.mpr ⟨by decide, oneLine_ofChar hc⟩
    · split
      · exact oneLine_ofChar hc
      · split
        · rename_i letter hletter
          refine oneLine_append.mpr ⟨by decide, oneLine_ofChar ?_⟩
          rintro rfl
          revert hletter
          unfold controlLetter?
          split <;> decide
        · repeat' split
          all_goals exact oneLine_append.mpr ⟨by decide, oneLine_hex _ _⟩

theorem oneLine_escapedRune (r : Rune) : OneLine (escapedRune r) := by
  rw [escapedRune]
  split
  · exact oneLine_flatMap fun b _ => oneLine_append.mpr ⟨by decide, oneLine_hex _ _⟩
  · exact oneLine_escapedChar (by decide) _

/-- **Quoted text is one line**, whatever is quoted. -/
@[simp]
theorem oneLine_quote (t : Text) : OneLine (quote t) := by
  rw [quote, quoteRunes, oneLine_append, oneLine_append]
  exact ⟨⟨by decide, oneLine_flatMap fun r _ => oneLine_escapedRune r⟩, by decide⟩

@[simp]
theorem oneLine_quoteChar (c : Char) : OneLine (quoteChar c) := by
  rw [quoteChar, oneLine_append, oneLine_append]
  exact ⟨⟨by decide, oneLine_escapedChar (by decide) c⟩, by decide⟩

end Text

/-! ### Doubles -/

namespace FloatLayout

open Text

theorem oneLine_positional (x : Decimal) : OneLine (positional x) := by
  have hdigits : OneLine (coefficientDigits x) := oneLine_ofNat _
  rw [positional]
  dsimp only
  split
  · exact oneLine_append.mpr ⟨hdigits, oneLine_replicate (by decide) _⟩
  · split
    · rw [oneLine_append, oneLine_append]
      exact ⟨⟨fun h => hdigits (List.mem_of_mem_take h), by decide⟩,
        fun h => hdigits (List.mem_of_mem_drop h)⟩
    · rw [oneLine_append, oneLine_append]
      exact ⟨⟨by decide, oneLine_replicate (by decide) _⟩, hdigits⟩

theorem oneLine_scientific (layout : FloatLayout) (x : Decimal) (lead : Int) :
    OneLine (layout.scientific x lead) := by
  have hdigits : OneLine (coefficientDigits x) := oneLine_ofNat _
  rw [scientific]
  simp only [oneLine_append, oneLine_ofNat, and_true]
  refine ⟨⟨?_, by split <;> decide⟩, oneLine_replicate (by decide) _⟩
  split
  · rename_i first second rest heq
    rw [heq] at hdigits
    simp only [oneLine_cons] at hdigits ⊢
    exact ⟨hdigits.1, by decide, hdigits.2⟩
  · exact hdigits

/-- **A double is written in one line.** -/
@[simp]
theorem oneLine_format (layout : FloatLayout) (x : Float) : OneLine (layout.format x) := by
  rw [format]
  split
  · decide
  · split <;> decide
  · dsimp only
    split
    · refine oneLine_append.mpr ⟨by split <;> decide, by split <;> decide⟩
    · refine oneLine_append.mpr ⟨by split <;> decide, ?_⟩
      rw [positive]
      dsimp only
      split
      · split
        · exact oneLine_append.mpr ⟨oneLine_positional _, by decide⟩
        · exact oneLine_positional _
      · exact oneLine_scientific _ _ _

end FloatLayout

end Reckon
