import Reckon.Eval.Value
import Reckon.Proofs.Decimal.Shortest

/-!
# Written numbers

A numeral is a run of digits, two runs of digits with a point between them, or one of these with an
exponent after it (`Text.IsNumeral`). It denotes one number only (`Text.IsNumeral.unique`).

Every layout writes a positive decimal as a numeral of its number
(`FloatLayout.isNumeral_positive`), and the shortest decimal of a double rounds to the double. So
no two doubles are written alike, in any layout (`FloatLayout.format_injective`). The layout of
results always leaves a point or an exponent in a float, so a float and an integer are not written
alike either (`Number.text_injective`).
-/

namespace Reckon

namespace Text

/-! ### Digits -/

/-- One digit or more. -/
structure IsDigits (t : Text) : Prop where
  ne_nil : t ≠ []
  digits : ∀ b ∈ t, isDigitByte b = true

theorem IsDigits.append {s t : Text} (hs : IsDigits s) (ht : ∀ b ∈ t, isDigitByte b = true) :
    IsDigits (s ++ t) :=
  ⟨List.append_ne_nil_of_left_ne_nil hs.ne_nil t, List.forall_mem_append.mpr ⟨hs.digits, ht⟩⟩

theorem IsDigits.zeros_append {t : Text} (ht : IsDigits t) (k : Nat) :
    IsDigits (List.replicate k '0'.toUInt8 ++ t) := by
  refine ⟨List.append_ne_nil_of_right_ne_nil _ ht.ne_nil,
    List.forall_mem_append.mpr ⟨?_, ht.digits⟩⟩
  intro b hb
  rw [List.eq_of_mem_replicate hb]
  rfl

theorem IsDigits.take {t : Text} (h : IsDigits t) {k : Nat} (hk : 0 < k) : IsDigits (t.take k) :=
  ⟨by simp [h.ne_nil, hk.ne'], fun b hb => h.digits b (List.mem_of_mem_take hb)⟩

theorem IsDigits.drop {t : Text} (h : IsDigits t) {k : Nat} (hk : k < t.length) :
    IsDigits (t.drop k) :=
  ⟨by simp [hk], fun b hb => h.digits b (List.mem_of_mem_drop hb)⟩

/-- A byte that is no digit is not among digits. -/
theorem IsDigits.not_mem {t : Text} (h : IsDigits t) {b : UInt8} (hb : isDigitByte b = false) :
    b ∉ t :=
  fun hmem => Bool.false_ne_true (hb.symm.trans (h.digits b hmem))

theorem digitsToNat_append (s t : Text) :
    digitsToNat (s ++ t) = digitsToNat s * 10 ^ t.length + digitsToNat t := by
  have hfold (n : Nat) : t.foldl (fun n d => 10 * n + (d.toNat - 48)) n =
      n * 10 ^ t.length + digitsToNat t := by
    induction t generalizing n with
    | nil => simp [digitsToNat]
    | cons d t ih =>
      rw [digitsToNat, List.foldl_cons, List.foldl_cons, ih, ih (10 * 0 + _), List.length_cons]
      ring
  rw [digitsToNat, List.foldl_append, hfold]
  rfl

theorem digitsToNat_zeros (k : Nat) : digitsToNat (List.replicate k '0'.toUInt8) = 0 := by
  induction k with
  | zero => rfl
  | succ k ih =>
    rw [List.replicate_succ', digitsToNat_append, ih]
    rfl

theorem digitsToNat_zeros_append (k : Nat) (t : Text) :
    digitsToNat (List.replicate k '0'.toUInt8 ++ t) = digitsToNat t := by
  rw [digitsToNat_append, digitsToNat_zeros, Nat.zero_mul, Nat.zero_add]

/-- A decimal digit is one byte, with the same number. -/
theorem toNat_toUInt8_of_isDigit {c : Char} (h : c.isDigit = true) :
    c.toUInt8.toNat = c.toNat ∧ isDigitByte c.toUInt8 = true := by
  obtain ⟨hlow, hhigh⟩ := Char.isDigit_iff_toNat.mp h
  have hnine : '9'.toNat = 57 := rfl
  have hzero : '0'.toNat = 48 := rfl
  have hbyte : c.toUInt8.toNat = c.toNat := by
    have hmod : c.toUInt8.toNat = c.toNat % 2 ^ 8 := UInt32.toNat_toUInt8 c.val
    omega
  refine ⟨hbyte, ?_⟩
  rw [isDigitByte, Bool.and_eq_true, decide_eq_true_eq, decide_eq_true_eq, UInt8.le_iff_toNat_le,
    UInt8.le_iff_toNat_le, hbyte]
  exact ⟨hlow, hhigh⟩

theorem isDigits_ofNat (n : Nat) : IsDigits (ofNat n) := by
  refine ⟨fun hnil => Nat.toDigits_ne_nil (List.map_eq_nil_iff.mp hnil), fun b hb => ?_⟩
  obtain ⟨c, hc, rfl⟩ := List.mem_map.mp hb
  exact (toNat_toUInt8_of_isDigit
    (Nat.isDigit_of_mem_toDigits (by decide) (by decide) hc)).2

/-- **The digits of a number are read as the number.** -/
theorem digitsToNat_ofNat (n : Nat) : digitsToNat (ofNat n) = n := by
  have hsame : digitsToNat (ofNat n) = Nat.ofDigitChars 10 (Nat.toDigits 10 n) 0 := by
    rw [digitsToNat, ofNat, List.foldl_map, Nat.ofDigitChars_eq_foldl]
    refine List.foldl_ext _ _ _ fun k c hc => ?_
    rw [(toNat_toUInt8_of_isDigit (Nat.isDigit_of_mem_toDigits (by decide) (by decide) hc)).1]
    rfl
  rw [hsame, Nat.ofDigitChars_ten_toDigits]

theorem ofNat_injective : Function.Injective ofNat :=
  Function.LeftInverse.injective digitsToNat_ofNat

theorem ofInt_of_nonneg {n : Int} (h : 0 ≤ n) : ofInt n = ofNat n.natAbs :=
  if_neg (not_lt.mpr h)

/-- A minus sign tells the negative numbers from the others. -/
theorem ofInt_injective : Function.Injective ofInt := by
  have hminus (n k : Nat) : ofNat n ≠ '-'.toUInt8 :: ofNat k := by
    intro heq
    refine (isDigits_ofNat n).not_mem (b := '-'.toUInt8) rfl ?_
    rw [heq]
    exact List.mem_cons_self
  intro n k h
  unfold ofInt at h
  split_ifs at h with hn hk hk
  · have habs := ofNat_injective (List.cons.inj h).2
    omega
  · exact absurd h.symm (hminus _ _)
  · exact absurd h (hminus _ _)
  · have habs := ofNat_injective h
    omega

/-! ### Numerals -/

/-- What stands before and after the first occurrence of a byte. -/
theorem append_cons_inj {s s' t t' : Text} {b : UInt8} (hs : b ∉ s) (hs' : b ∉ s')
    (h : s ++ b :: t = s' ++ b :: t') : s = s' ∧ t = t' := by
  have hcut (s t : Text) (hs : b ∉ s) :
      (s ++ b :: t).takeWhile (fun x => x != b) = s := by
    rw [List.takeWhile_append_of_pos, List.takeWhile_cons_of_neg, List.append_nil]
    · simp
    · intro x hx
      exact bne_iff_ne.mpr (ne_of_mem_of_not_mem hx hs)
  have hfront : s = s' := by
    rw [← hcut s t hs, h, hcut s' t' hs']
  subst hfront
  exact ⟨rfl, (List.cons.inj (List.append_cancel_left h)).2⟩

/-- Digits, with or without a point among them, and the number that they denote. -/
inductive IsPlainNumeral : Text → ℚ → Prop
  | whole {whole : Text} (digits : IsDigits whole) : IsPlainNumeral whole (digitsToNat whole)
  | point {whole fraction : Text} (digits : IsDigits whole) (places : IsDigits fraction) :
      IsPlainNumeral (whole ++ '.'.toUInt8 :: fraction)
        (digitsToNat (whole ++ fraction) / 10 ^ fraction.length)

/-- Digits, with or without a point and an exponent, and the number that they denote. -/
inductive IsNumeral : Text → ℚ → Prop
  | plain {t : Text} {v : ℚ} (plain : IsPlainNumeral t v) : IsNumeral t v
  | scientific {t digits : Text} {v : ℚ} (plain : IsPlainNumeral t v) (negative : Bool)
      (exponent : IsDigits digits) :
      IsNumeral (t ++ 'e'.toUInt8 :: (if negative then '-' else '+').toUInt8 :: digits)
        (v * 10 ^ (if negative then -digitsToNat digits else digitsToNat digits : Int))

/-- The bytes that numerals are made of. -/
def isNumeralByte (b : UInt8) : Bool :=
  isDigitByte b || b == '.'.toUInt8 || b == 'e'.toUInt8 || b == '+'.toUInt8 || b == '-'.toUInt8

theorem isNumeralByte_of_isDigitByte {b : UInt8} (h : isDigitByte b = true) :
    isNumeralByte b = true := by
  simp [isNumeralByte, h]

namespace IsPlainNumeral

variable {t : Text} {v w : ℚ}

theorem of_cut {whole fraction : Text} {n k : Nat} (hwhole : IsDigits whole)
    (hfraction : IsDigits fraction) (hn : digitsToNat (whole ++ fraction) = n)
    (hk : fraction.length = k) :
    IsPlainNumeral (whole ++ '.'.toUInt8 :: fraction) (n / 10 ^ k) := by
  rw [← hn, ← hk]
  exact .point hwhole hfraction

/-- A numeral starts with a digit. -/
theorem exists_cons (h : IsPlainNumeral t v) : ∃ b rest, t = b :: rest ∧ isDigitByte b = true := by
  cases h with
  | whole digits =>
    obtain ⟨b, rest, rfl⟩ := List.exists_cons_of_ne_nil digits.ne_nil
    exact ⟨b, rest, rfl, digits.digits b List.mem_cons_self⟩
  | point digits places =>
    obtain ⟨b, rest, rfl⟩ := List.exists_cons_of_ne_nil digits.ne_nil
    exact ⟨b, _, rfl, digits.digits b List.mem_cons_self⟩

theorem bytes (h : IsPlainNumeral t v) : ∀ b ∈ t, isDigitByte b = true ∨ b = '.'.toUInt8 := by
  cases h with
  | whole digits => exact fun b hb => .inl (digits.digits b hb)
  | point digits places =>
    rw [List.forall_mem_append, List.forall_mem_cons]
    exact ⟨fun b hb => .inl (digits.digits b hb), .inr rfl, fun b hb => .inl (places.digits b hb)⟩

theorem not_mem (h : IsPlainNumeral t v) {b : UInt8} (hb : isDigitByte b = false)
    (hpoint : b ≠ '.'.toUInt8) : b ∉ t := by
  intro hmem
  rcases h.bytes b hmem with hdigit | heq
  · exact Bool.false_ne_true (hb.symm.trans hdigit)
  · exact hpoint heq

theorem unique (h : IsPlainNumeral t v) (h' : IsPlainNumeral t w) : v = w := by
  cases h with
  | whole digits =>
    generalize ht : t = t' at h'
    cases h' with
    | whole => rfl
    | point => exact absurd (ht ▸ List.mem_append_right _ List.mem_cons_self) (digits.not_mem rfl)
  | @point whole fraction digits places =>
    generalize ht : whole ++ '.'.toUInt8 :: fraction = t' at h'
    cases h' with
    | whole digits' =>
      exact absurd (ht ▸ List.mem_append_right _ List.mem_cons_self) (digits'.not_mem rfl)
    | point digits' =>
      obtain ⟨rfl, rfl⟩ := append_cons_inj (digits.not_mem rfl) (digits'.not_mem rfl) ht
      rfl

/-- A point and a zero may follow an integer. -/
theorem append_point_zero (h : IsPlainNumeral t v) (hpoint : '.'.toUInt8 ∉ t) :
    IsPlainNumeral (t ++ lit ".0") v := by
  cases h with
  | whole digits =>
    have hzero : IsDigits ['0'.toUInt8] := ⟨List.cons_ne_nil _ _, List.forall_mem_singleton.mpr rfl⟩
    have hvalue : (digitsToNat t : ℚ) = digitsToNat (t ++ ['0'.toUInt8]) / 10 ^ 1 := by
      rw [digitsToNat_append, show digitsToNat ['0'.toUInt8] = 0 from rfl]
      simp
    rw [hvalue]
    exact .point digits hzero
  | point => exact absurd (List.mem_append_right _ List.mem_cons_self) hpoint

end IsPlainNumeral

namespace IsNumeral

variable {t : Text} {v w : ℚ}

theorem exists_cons (h : IsNumeral t v) : ∃ b rest, t = b :: rest ∧ isDigitByte b = true := by
  cases h with
  | plain plain => exact plain.exists_cons
  | scientific plain =>
    obtain ⟨b, rest, rfl, hb⟩ := plain.exists_cons
    exact ⟨b, _, rfl, hb⟩

theorem bytes (h : IsNumeral t v) : ∀ b ∈ t, isNumeralByte b = true := by
  have hplain {t : Text} {v : ℚ} (h : IsPlainNumeral t v) : ∀ b ∈ t, isNumeralByte b = true := by
    intro b hb
    rcases h.bytes b hb with hdigit | rfl
    · exact isNumeralByte_of_isDigitByte hdigit
    · rfl
  cases h with
  | plain plain => exact hplain plain
  | scientific plain negative exponent =>
    rw [List.forall_mem_append, List.forall_mem_cons, List.forall_mem_cons]
    refine ⟨hplain plain, rfl, ?_, fun b hb => isNumeralByte_of_isDigitByte (exponent.digits b hb)⟩
    cases negative <;> rfl

/-- Without an exponent, there are only digits and perhaps a point. -/
theorem isPlainNumeral (h : IsNumeral t v) (hexponent : 'e'.toUInt8 ∉ t) : IsPlainNumeral t v := by
  cases h with
  | plain plain => exact plain
  | scientific => exact absurd (List.mem_append_right _ List.mem_cons_self) hexponent

/-- With an exponent, the numeral is cut in front of it. -/
theorem exists_scientific (h : IsNumeral t v) (hexponent : 'e'.toUInt8 ∈ t) :
    ∃ (front digits : Text) (negative : Bool) (u : ℚ), IsPlainNumeral front u ∧
      t = front ++ 'e'.toUInt8 :: (if negative then '-' else '+').toUInt8 :: digits ∧
      v = u * 10 ^ (if negative then -digitsToNat digits else digitsToNat digits : Int) := by
  cases h with
  | plain plain => exact absurd hexponent (plain.not_mem rfl (by decide))
  | @scientific front digits u plain negative =>
    exact ⟨front, digits, negative, u, plain, rfl, rfl⟩

theorem of_exponent {width n : Nat} {lead : Int} (h : IsPlainNumeral t v) (negative : Bool)
    (hlead : lead = if negative then -(n : Int) else n) :
    IsNumeral (t ++ 'e'.toUInt8 :: (if negative then '-' else '+').toUInt8 ::
      (List.replicate width '0'.toUInt8 ++ ofNat n)) (v * 10 ^ lead) := by
  have hvalue : digitsToNat (List.replicate width '0'.toUInt8 ++ ofNat n) = n :=
    (digitsToNat_zeros_append _ _).trans (digitsToNat_ofNat n)
  have hnumeral := scientific h negative ((isDigits_ofNat n).zeros_append width)
  rwa [hvalue, ← hlead] at hnumeral

/-- **A numeral denotes one number.** -/
theorem unique (h : IsNumeral t v) (h' : IsNumeral t w) : v = w := by
  by_cases hexponent : 'e'.toUInt8 ∈ t
  · obtain ⟨front, digits, negative, u, hplain, rfl, rfl⟩ := h.exists_scientific hexponent
    obtain ⟨front', digits', negative', u', hplain', heq, rfl⟩ := h'.exists_scientific hexponent
    obtain ⟨rfl, hrest⟩ := append_cons_inj (hplain.not_mem rfl (by decide))
      (hplain'.not_mem rfl (by decide)) heq
    obtain ⟨hsign, rfl⟩ := List.cons.inj hrest
    have hsame : negative = negative' := by
      revert hsign
      cases negative <;> cases negative' <;> decide
    rw [hplain.unique hplain', hsame]
  · exact (h.isPlainNumeral hexponent).unique (h'.isPlainNumeral hexponent)

end IsNumeral

end Text

/-! ### Layouts -/

namespace FloatLayout

open Text

/-- A decimal whose exponent is negative is a quotient. -/
theorem value_of_neg {x : Decimal} (h : ¬ 0 ≤ x.exponent) :
    x.value = x.coefficient / 10 ^ (-x.exponent).toNat := by
  obtain ⟨k, hk⟩ := Int.exists_eq_neg_ofNat (not_le.mp h).le
  rw [Decimal.value, hk, neg_neg, Int.toNat_natCast, zpow_neg, zpow_natCast, div_eq_mul_inv]

/-- **A decimal written out is a numeral of its number.** -/
theorem isPlainNumeral_positional (x : Decimal) : IsPlainNumeral (positional x) x.value := by
  have hdigits : IsDigits (coefficientDigits x) := isDigits_ofNat _
  have hvalue : digitsToNat (coefficientDigits x) = x.coefficient := digitsToNat_ofNat _
  rw [positional]
  dsimp only
  split_ifs with hexponent hplaces
  · -- zeros after the digits
    obtain ⟨k, hk⟩ := Int.eq_ofNat_of_zero_le hexponent
    have hwhole : x.value =
        digitsToNat (coefficientDigits x ++ List.replicate x.exponent.toNat '0'.toUInt8) := by
      rw [digitsToNat_append, digitsToNat_zeros, hvalue, List.length_replicate, Decimal.value, hk,
        Int.toNat_natCast, zpow_natCast]
      push_cast
      ring
    rw [hwhole]
    refine .whole (hdigits.append fun b hb => ?_)
    rw [List.eq_of_mem_replicate hb]
    rfl
  · -- a point among the digits
    have hpoint : lit "." = ['.'.toUInt8] := rfl
    rw [value_of_neg hexponent, hpoint, List.append_assoc, List.singleton_append]
    refine .of_cut (hdigits.take (by omega)) (hdigits.drop (by omega)) ?_ ?_
    · rw [List.take_append_drop, hvalue]
    · rw [List.length_drop]
      omega
  · -- zeros before the digits
    have hpoint : lit "0." = ofNat 0 ++ ['.'.toUInt8] := rfl
    rw [value_of_neg hexponent, hpoint, List.append_assoc, List.append_assoc, List.singleton_append]
    refine .of_cut (isDigits_ofNat 0) (hdigits.zeros_append _) ?_ ?_
    · rw [digitsToNat_append, digitsToNat_zeros_append, hvalue]
      simp [digitsToNat_ofNat]
    · rw [List.length_append, List.length_replicate]
      omega

/-- The first digit, with a point after it if there are more. -/
theorem isPlainNumeral_mantissa (x : Decimal) :
    IsPlainNumeral (match coefficientDigits x with
      | first :: second :: rest => first :: '.'.toUInt8 :: second :: rest
      | digits => digits) (x.coefficient / 10 ^ ((coefficientDigits x).length - 1)) := by
  have hdigits : IsDigits (coefficientDigits x) := isDigits_ofNat _
  have hvalue : digitsToNat (coefficientDigits x) = x.coefficient := digitsToNat_ofNat _
  rw [← hvalue]
  generalize coefficientDigits x = digits at hdigits ⊢
  split
  · rename_i first second rest
    have hfirst := hdigits.take one_pos
    have hrest := hdigits.drop (k := 1) (by simp)
    exact .of_cut hfirst hrest rfl rfl
  · rename_i hmore
    have hone : digits.length = 1 := by
      rcases digits with _ | ⟨first, _ | ⟨second, rest⟩⟩
      · exact absurd rfl hdigits.ne_nil
      · rfl
      · exact absurd rfl (hmore first second rest)
    rw [hone, pow_zero, div_one]
    exact .whole hdigits

/-- A decimal with an exponent is a numeral too. -/
theorem isNumeral_scientific (layout : FloatLayout) (x : Decimal) (lead : Int) :
    IsNumeral (layout.scientific x lead)
      (x.coefficient / 10 ^ ((coefficientDigits x).length - 1) * 10 ^ lead) := by
  have hmark : lit (if lead < 0 then "e-" else "e+") =
      ['e'.toUInt8, (if decide (lead < 0) then '-' else '+').toUInt8] := by
    by_cases h : lead < 0
    · rw [if_pos h, decide_eq_true h]
      rfl
    · rw [if_neg h, decide_eq_false h]
      rfl
  have hlead : lead = if decide (lead < 0) then -(lead.natAbs : Int) else lead.natAbs := by
    simp only [decide_eq_true_eq]
    split_ifs <;> omega
  rw [scientific, hmark, List.append_assoc, List.append_assoc]
  exact .of_exponent (isPlainNumeral_mantissa x) _ hlead

/-- **A decimal is a numeral of its number**, in every layout. -/
theorem isNumeral_positive (layout : FloatLayout) (x : Decimal) :
    IsNumeral (layout.positive x) x.value := by
  have hplain := isPlainNumeral_positional x
  have hlength : 0 < (coefficientDigits x).length :=
    List.length_pos_iff.mpr (isDigits_ofNat x.coefficient).ne_nil
  rw [positive]
  dsimp only
  split
  · refine .plain ?_
    split
    · rename_i hmark
      rw [Bool.and_eq_true, Bool.not_eq_true', List.contains_eq_mem,
        decide_eq_false_iff_not] at hmark
      exact hplain.append_point_zero hmark.2
    · exact hplain
  · have hvalue : x.value = x.coefficient / 10 ^ ((coefficientDigits x).length - 1) *
        10 ^ (x.exponent + (coefficientDigits x).length - 1) := by
      have hlead : x.exponent + (coefficientDigits x).length - 1 =
          x.exponent + ((coefficientDigits x).length - 1 : Nat) := by omega
      rw [hlead, zpow_add₀ (by norm_num), zpow_natCast, Decimal.value]
      field_simp
    rw [hvalue]
    exact isNumeral_scientific layout x _

/-- Where integers are marked, a point or an exponent tells a float from an integer. -/
theorem marked_positive {layout : FloatLayout} (h : layout.marksIntegers = true) (x : Decimal) :
    '.'.toUInt8 ∈ layout.positive x ∨ 'e'.toUInt8 ∈ layout.positive x := by
  rw [positive]
  dsimp only
  split
  · left
    rw [h, Bool.true_and]
    split
    · exact List.mem_append_right _ (by decide)
    · rename_i hpoint
      simpa using hpoint
  · right
    rw [scientific]
    refine List.mem_append_left _ (List.mem_append_left _ (List.mem_append_right _ ?_))
    split <;> decide

/-! ### Doubles -/

/-- A double without its sign. -/
def unsigned (layout : FloatLayout) (m : Nat) (q : Int) : Text :=
  if m == 0 then lit (if layout.marksIntegers then "0.0" else "0")
  else layout.positive (Decimal.shortest m q)

theorem format_of_finite (layout : FloatLayout) {x : Float} {negative : Bool} {m : Nat} {q : Int}
    (h : Binary64.ofFloat x = .finite negative m q) :
    layout.format x = lit (if negative then "-" else "") ++ layout.unsigned m q := by
  rw [format, h, unsigned]
  dsimp only
  split <;> rfl

theorem unsigned_of_pos (layout : FloatLayout) {m : Nat} (hm : 0 < m) (q : Int) :
    layout.unsigned m q = layout.positive (Decimal.shortest m q) :=
  if_neg (by simpa using hm.ne')

/-- What a double is written as denotes a number that rounds to it. -/
theorem isNumeral_unsigned (layout : FloatLayout) {m : Nat} {q : Int}
    (hc : Binary64.Canonical m q) :
    ∃ v, IsNumeral (layout.unsigned m q) v ∧
      (m = 0 ∧ v = 0 ∨ 0 < m ∧ Binary64.RoundsTo v m q) := by
  rcases Nat.eq_zero_or_pos m with rfl | hm
  · refine ⟨0, .plain ?_, .inl ⟨rfl, rfl⟩⟩
    have hzero : IsPlainNumeral (lit "0") 0 := by
      have hdigits := IsPlainNumeral.whole (isDigits_ofNat 0)
      rwa [digitsToNat_ofNat, Nat.cast_zero] at hdigits
    rw [unsigned, if_pos (beq_self_eq_true 0)]
    split
    · exact hzero.append_point_zero (by decide)
    · exact hzero
  · refine ⟨_, ?_, .inr ⟨hm, Decimal.roundsTo_shortest hm hc⟩⟩
    rw [layout.unsigned_of_pos hm]
    exact layout.isNumeral_positive _

theorem marked_unsigned {layout : FloatLayout} (h : layout.marksIntegers = true) (m : Nat)
    (q : Int) : '.'.toUInt8 ∈ layout.unsigned m q ∨ 'e'.toUInt8 ∈ layout.unsigned m q := by
  rcases Nat.eq_zero_or_pos m with rfl | hm
  · left
    rw [unsigned, if_pos (beq_self_eq_true 0), h]
    decide
  · rw [layout.unsigned_of_pos hm]
    exact marked_positive h _

/-- Significands and exponents are read off what is written. -/
theorem unsigned_inj (layout : FloatLayout) {m m' : Nat} {q q' : Int}
    (hc : Binary64.Canonical m q) (hc' : Binary64.Canonical m' q')
    (h : layout.unsigned m q = layout.unsigned m' q') : m = m' ∧ q = q' := by
  obtain ⟨v, hv, hround⟩ := layout.isNumeral_unsigned hc
  obtain ⟨w, hw, hround'⟩ := layout.isNumeral_unsigned hc'
  obtain rfl : v = w := hv.unique (h ▸ hw)
  obtain ⟨rfl, rfl⟩ | ⟨hm, hv⟩ := hround <;> obtain ⟨rfl, hzero⟩ | ⟨hm', hw⟩ := hround'
  · -- the exponent of a zero is the least one
    obtain ⟨-, -, hleast⟩ := hc
    obtain ⟨-, -, hleast'⟩ := hc'
    omega
  · exact absurd (hw.pos hm') (lt_irrefl 0)
  · exact absurd (hzero ▸ hv.pos hm) (lt_irrefl 0)
  · exact hv.unique hw hm hm' hc hc'

end FloatLayout

namespace Binary64

open Float.Model

/-- The unpacked double that says what is given. -/
def toUnpacked : Binary64 → UnpackedFloat
  | .nan => .notANumber
  | .infinite negative => .infinity (if negative then .negative else .positive)
  | .finite negative m q =>
    if hm : 0 < m then .finite (if negative then .negative else .positive) m q hm
    else .zero (if negative then .negative else .positive)

theorem toUnpacked_ofUnpacked (a : UnpackedFloat) : (ofUnpacked a).toUnpacked = a := by
  cases a with
  | notANumber => rfl
  | infinity s => cases s <;> rfl
  | zero s => cases s <;> rfl
  | finite s m q hm =>
    rw [ofUnpacked, toUnpacked, dif_pos hm]
    cases s <;> rfl

/-- A double is what its bits say. -/
theorem ofFloat_injective : Function.Injective ofFloat := by
  have hpack (x : Float) : Float.ofModel (Float.Model.pack x.toModel.unpack) = x :=
    Float.ofBits_toBits x
  intro x y h
  rw [ofFloat_eq, ofFloat_eq] at h
  have hunpack := Function.LeftInverse.injective toUnpacked_ofUnpacked h
  rw [← hpack x, hunpack, hpack y]

end Binary64

namespace FloatLayout

open Text

/-- A minus sign tells the negative doubles from the others. -/
theorem signed_inj {negative negative' : Bool} {s t : Text}
    (hs : ∃ b rest, s = b :: rest ∧ isDigitByte b = true)
    (ht : ∃ b rest, t = b :: rest ∧ isDigitByte b = true)
    (h : lit (if negative then "-" else "") ++ s = lit (if negative' then "-" else "") ++ t) :
    negative = negative' ∧ s = t := by
  have hminus : isDigitByte '-'.toUInt8 = false := rfl
  obtain ⟨b, rest, rfl, hb⟩ := hs
  obtain ⟨b', rest', rfl, hb'⟩ := ht
  cases negative <;> cases negative'
  · exact ⟨rfl, h⟩
  · obtain ⟨rfl, -⟩ := List.cons.inj h
    exact absurd hb (Bool.eq_false_iff.mp hminus)
  · obtain ⟨rfl, -⟩ := List.cons.inj h
    exact absurd hb' (Bool.eq_false_iff.mp hminus)
  · exact ⟨rfl, (List.cons.inj h).2⟩

/-- Finite doubles are written as numerals with a sign, and the others with letters. -/
theorem all_format (layout : FloatLayout) (x : Float) :
    (layout.format x).all isNumeralByte = (Binary64.ofFloat x).isFinite := by
  cases hx : Binary64.ofFloat x with
  | finite negative m q =>
    obtain ⟨v, hv, -⟩ := layout.isNumeral_unsigned (Binary64.canonical_of_ofBits hx)
    rw [layout.format_of_finite hx, List.all_append, List.all_eq_true.mpr hv.bytes]
    cases negative <;> rfl
  | infinite negative =>
    rw [format, hx]
    cases negative <;> rfl
  | nan =>
    rw [format, hx]
    rfl

/-- **No two doubles are written alike**, in any layout. Infinities and signed zeros count as
doubles, and there is one NaN. -/
theorem format_injective (layout : FloatLayout) : Function.Injective layout.format := by
  intro x y h
  refine Binary64.ofFloat_injective ?_
  have hfinite : (Binary64.ofFloat x).isFinite = (Binary64.ofFloat y).isFinite := by
    rw [← layout.all_format, ← layout.all_format, h]
  cases hx : Binary64.ofFloat x with
  | finite negative m q =>
    cases hy : Binary64.ofFloat y with
    | finite negative' m' q' =>
      have hc := Binary64.canonical_of_ofBits hx
      have hc' := Binary64.canonical_of_ofBits hy
      obtain ⟨v, hv, -⟩ := layout.isNumeral_unsigned hc
      obtain ⟨w, hw, -⟩ := layout.isNumeral_unsigned hc'
      rw [layout.format_of_finite hx, layout.format_of_finite hy] at h
      obtain ⟨rfl, hsame⟩ := signed_inj hv.exists_cons hw.exists_cons h
      obtain ⟨rfl, rfl⟩ := layout.unsigned_inj hc hc' hsame
      rfl
    | infinite | nan =>
      rw [hx, hy] at hfinite
      cases hfinite
  | infinite negative =>
    cases hy : Binary64.ofFloat y with
    | finite =>
      rw [hx, hy] at hfinite
      cases hfinite
    | infinite negative' =>
      rw [format, format, hx, hy] at h
      cases negative <;> cases negative' <;> first | rfl | cases h
    | nan =>
      rw [format, format, hx, hy] at h
      cases negative <;> cases h
  | nan =>
    cases hy : Binary64.ofFloat y with
    | finite =>
      rw [hx, hy] at hfinite
      cases hfinite
    | infinite negative =>
      rw [format, format, hx, hy] at h
      cases negative <;> cases h
    | nan => rfl

end FloatLayout

/-! ### Results -/

namespace Number

/-- A float is written with a byte that no integer is written with. -/
theorem exists_mem_format (x : Float) :
    ∃ b ∈ FloatLayout.result.format x, Text.isDigitByte b = false ∧ b ≠ '-'.toUInt8 := by
  cases hx : Binary64.ofFloat x with
  | finite negative m q =>
    have hmarked : '.'.toUInt8 ∈ FloatLayout.result.unsigned m q ∨
        'e'.toUInt8 ∈ FloatLayout.result.unsigned m q := FloatLayout.marked_unsigned rfl m q
    rw [FloatLayout.result.format_of_finite hx]
    rcases hmarked with hpoint | hexponent
    · exact ⟨_, List.mem_append_right _ hpoint, by decide⟩
    · exact ⟨_, List.mem_append_right _ hexponent, by decide⟩
  | infinite negative =>
    refine ⟨'I'.toUInt8, ?_, by decide⟩
    rw [FloatLayout.format, hx]
    cases negative <;> decide
  | nan =>
    refine ⟨'N'.toUInt8, ?_, by decide⟩
    rw [FloatLayout.format, hx]
    decide

theorem text_int_ne_text_float (n : Int64) (x : Float) : (int n).text ≠ (float x).text := by
  intro h
  obtain ⟨b, hmem, hdigit, hminus⟩ := exists_mem_format x
  have hdigits := (Text.isDigits_ofNat n.toInt.natAbs).not_mem hdigit
  rw [text, text] at h
  rw [← h, Text.ofInt] at hmem
  split at hmem
  · rcases List.mem_cons.mp hmem with heq | hmem
    · exact hminus heq
    · exact hdigits hmem
  · exact hdigits hmem

/-- **No two numbers are written alike**, be they integers or floats. -/
theorem text_injective : Function.Injective text := by
  intro a b h
  cases a with
  | int n =>
    cases b with
    | int k => rw [Int64.toInt_inj.mp (Text.ofInt_injective h)]
    | float y => exact absurd h (text_int_ne_text_float n y)
  | float x =>
    cases b with
    | int k => exact absurd h.symm (text_int_ne_text_float k x)
    | float y => rw [FloatLayout.result.format_injective h]

end Number

end Reckon
