import Reckon.Proofs.Decimal.Value

/-!
# Integers among the doubles

A double is cut to its integer part by clearing bits, and turned into an integer by shifting its
significand. Both are the rounding toward zero of the number that it denotes
(`Binary64.value_truncated`, `Binary64.roundToInt_eq`), so a double is an integer just if it is its
own integer part (`Binary64.beq_truncated_iff`).

Conversely an integer is rounded on its way to a double, but not if there is a double that denotes
it (`Binary64.value_ofInt`): then only zeros are shifted out.
-/

namespace Reckon

open Float.Model

namespace Binary64

/-! ### Integer parts -/

/-- The integer part of the number that a sign, a significand and an exponent stand for. -/
def integerPart (negative : Bool) (m : Nat) (q : Int) : ℤ :=
  if negative then -⌊(m * 2 ^ q : ℚ)⌋ else ⌊(m * 2 ^ q : ℚ)⌋

theorem dyadic_of_nat {negative : Bool} {m n : Nat} {q : Int} (h : (m * 2 ^ q : ℚ) = n) :
    dyadic negative m q = integerPart negative m q := by
  unfold dyadic integerPart
  rw [h]
  split <;> simp

theorem integerPart_of_dyadic_eq {negative : Bool} {m : Nat} {q z : Int}
    (h : dyadic negative m q = z) : integerPart negative m q = z := by
  unfold dyadic integerPart at *
  cases negative with
  | true =>
    have hvalue : (m * 2 ^ q : ℚ) = ((-z : ℤ) : ℚ) := by
      rw [if_pos rfl] at h
      rw [Int.cast_neg, ← h, neg_neg]
    rw [if_pos rfl, hvalue, Int.floor_intCast, neg_neg]
  | false =>
    rw [if_neg Bool.false_ne_true] at h ⊢
    rw [h, Int.floor_intCast]

theorem floor_of_neg {m k : Nat} : ⌊(m * 2 ^ (-(k : Int)) : ℚ)⌋ = (m / 2 ^ k : Nat) := by
  rw [zpow_neg, ← div_eq_mul_inv, zpow_natCast]
  exact_mod_cast Rat.floor_natCast_div_natCast m (2 ^ k)

theorem floor_of_nonneg {m k : Nat} : ⌊(m * 2 ^ (k : Int) : ℚ)⌋ = (m * 2 ^ k : Nat) := by
  rw [zpow_natCast]
  exact_mod_cast Int.floor_natCast (R := ℚ) (m * 2 ^ k)

/-! ### Cutting the bits -/

theorem toNat_cleared {n k : Nat} (h : n < 2 ^ 64) :
    (UInt64.ofNat (n / Nat.pow 2 k * Nat.pow 2 k)).toNat = n - n % 2 ^ k := by
  rw [UInt64.toNat_ofNat_of_lt' ((Nat.div_mul_le_self n _).trans_lt h)]
  exact Nat.div_mul_self_eq_mod_sub_self

section Truncated

variable {x : Float} {negative : Bool} {m : Nat} {q : Int}

theorem bitsAfterPoint_eq {bits : UInt64} (h : ofBits bits = .finite negative m q) :
    bitsAfterPoint bits = if q < -52 then 63 else (-q).toNat := by
  unfold bitsAfterPoint
  dsimp only
  obtain ⟨-, ⟨hfirst, -, rfl⟩ | ⟨hfirst, -, -, rfl⟩⟩ := fields_of_ofBits h
  · rw [hfirst]
    rfl
  · split <;> split <;> omega

/-- Below one, only the sign is left. -/
theorem ofFloat_truncated_of_small (h : ofFloat x = .finite negative m q) (hsmall : q < -52) :
    ofFloat (truncated x) = .finite negative 0 (-1074) := by
  obtain ⟨rfl, -⟩ := fields_of_ofBits h
  have hbits : (UInt64.ofNat (x.toBits.toNat / Nat.pow 2 63 * Nat.pow 2 63)).toNat =
      0x10000000000000 * (2048 * (x.toBits.toNat / 0x8000000000000000)) + 0 := by
    rw [toNat_cleared x.toBits.toNat_lt]
    omega
  rw [truncated, bitsAfterPoint_eq h, if_pos hsmall, ofFloat_ofBits,
    ofBits_of_fields hbits (by decide) (by omega), if_pos (Nat.mul_mod_right _ _),
    Nat.mul_div_cancel_left _ (by decide)]

/-- Between one and `2 ^ 53`, the bits after the point are gone. -/
theorem ofFloat_truncated_of_mixed {k : Nat} (h : ofFloat x = .finite negative m (-(k : Int)))
    (hk : k ≤ 52) :
    ofFloat (truncated x) = .finite negative (m / 2 ^ k * 2 ^ k) (-(k : Int)) := by
  obtain ⟨rfl, ⟨-, -, hq⟩ | ⟨hfirst, hlast, hm, hq⟩⟩ := fields_of_ofBits h
  · omega
  have hdvd : 2 ^ k ∣ 2 ^ 52 := Nat.pow_dvd_pow 2 hk
  -- the bits after the point are the same ones in the whole word, in the fraction and in `m`
  have hfraction : x.toBits.toNat % 2 ^ 52 % 2 ^ k = x.toBits.toNat % 2 ^ k :=
    Nat.mod_mod_of_dvd _ hdvd
  have hrest : m % 2 ^ k = x.toBits.toNat % 2 ^ k := by
    rw [hm, ← hfraction, Nat.add_mod,
      Nat.mod_eq_zero_of_dvd (show 2 ^ k ∣ 0x10000000000000 from hdvd), Nat.zero_add, Nat.mod_mod]
    rfl
  have hle : x.toBits.toNat % 2 ^ k ≤ x.toBits.toNat % 2 ^ 52 := hfraction ▸ Nat.mod_le _ _
  have hbits : (UInt64.ofNat (x.toBits.toNat / Nat.pow 2 k * Nat.pow 2 k)).toNat =
      0x10000000000000 * (x.toBits.toNat / 0x10000000000000) +
        (x.toBits.toNat % 0x10000000000000 - x.toBits.toNat % 2 ^ k) := by
    rw [toNat_cleared x.toBits.toNat_lt]
    omega
  have hkept : 0x10000000000000 + (x.toBits.toNat % 0x10000000000000 - x.toBits.toNat % 2 ^ k) =
      m / 2 ^ k * 2 ^ k := by
    rw [Nat.div_mul_self_eq_mod_sub_self, hrest]
    omega
  rw [truncated, bitsAfterPoint_eq h, if_neg (by omega), neg_neg, Int.toNat_natCast,
    ofFloat_ofBits, ofBits_of_fields hbits (by omega) hlast, if_neg hfirst, hkept, ← hq,
    Nat.div_div_eq_div_mul]

/-- From `2 ^ 52` on there is nothing to cut. -/
theorem truncated_of_large (h : ofFloat x = .finite negative m q) (hq : 0 ≤ q) :
    truncated x = x := by
  have hzero : (-q).toNat = 0 := by omega
  rw [truncated, bitsAfterPoint_eq h, if_neg (by omega), hzero]
  exact (congrArg Float.ofBits (by simp)).trans (Float.ofBits_toBits x)

/-- **Cutting the bits rounds toward zero.** -/
theorem value_truncated (h : ofFloat x = .finite negative m q) :
    (ofFloat (truncated x)).value? = some (integerPart negative m q : ℚ) := by
  obtain ⟨hm, -, -⟩ := canonical_of_ofBits h
  rcases lt_or_ge q (-52) with hsmall | hq
  · have hone : (m * 2 ^ q : ℚ) < 1 :=
      calc (m * 2 ^ q : ℚ) < 2 ^ 53 * 2 ^ q := by gcongr; exact_mod_cast hm
        _ ≤ 2 ^ 53 * 2 ^ (-53 : ℤ) := by gcongr <;> norm_num; omega
        _ = 1 := by norm_num
    have hfloor : ⌊(m * 2 ^ q : ℚ)⌋ = 0 := Int.floor_eq_zero_iff.mpr ⟨by positivity, hone⟩
    rw [ofFloat_truncated_of_small h hsmall]
    simp [value?, integerPart, hfloor]
  rcases le_total q 0 with hneg | hpos
  · obtain ⟨k, rfl⟩ := Int.exists_eq_neg_ofNat hneg
    have hcancel : ((m / 2 ^ k * 2 ^ k : Nat) * 2 ^ (-(k : Int)) : ℚ) = (m / 2 ^ k : Nat) := by
      push_cast
      rw [zpow_neg, zpow_natCast, mul_assoc, mul_inv_cancel₀ (by positivity), mul_one]
    rw [ofFloat_truncated_of_mixed h (by omega)]
    refine congrArg some ((dyadic_of_nat hcancel).trans ?_)
    unfold integerPart
    rw [hcancel, floor_of_neg]
    rfl
  · obtain ⟨k, rfl⟩ := Int.eq_ofNat_of_zero_le hpos
    rw [truncated_of_large h hpos, h]
    refine congrArg some (dyadic_of_nat (n := m * 2 ^ k) ?_)
    push_cast
    rw [zpow_natCast]

/-- A finite double is an integer just if it is its own integer part. -/
theorem beq_truncated_iff {v : ℚ} (h : (ofFloat x).value? = some v) :
    (x == truncated x) = true ↔ ∃ z : ℤ, v = z := by
  obtain ⟨negative, m, q, hx, rfl⟩ := exists_of_value h
  rw [beq_iff h (value_truncated hx)]
  constructor
  · intro heq
    exact ⟨_, heq⟩
  · rintro ⟨z, hz⟩
    rw [integerPart_of_dyadic_eq hz, hz]

end Truncated

/-! ### From doubles to integers -/

theorem mantissa_repeat (em : UnpackedFloat.ExtendedMantissa) (k : Nat) :
    (k.repeat UnpackedFloat.ExtendedMantissa.shiftRightOne em).mantissa = em.mantissa / 2 ^ k := by
  induction k with
  | zero => simp [Nat.repeat]
  | succ k ih =>
    have hone : (Nat.repeat UnpackedFloat.ExtendedMantissa.shiftRightOne (k + 1) em).mantissa =
        (k.repeat UnpackedFloat.ExtendedMantissa.shiftRightOne em).mantissa / 2 := rfl
    rw [hone, ih, Nat.div_div_eq_div_mul, Nat.pow_succ]

theorem roundToInt_eq (s : UnpackedFloat.Sign) (m : Nat) (q : Int) :
    UnpackedFloat.roundToInt s m q = integerPart (isMinus s) m q := by
  have hround : UnpackedFloat.roundToInt s m q =
      s.apply ((m <<< (q - 0).toNat / 2 ^ (0 - (q - (q - 0).toNat)).toNat : Nat) : Int) :=
    congrArg (fun n : Nat => s.apply n) (mantissa_repeat _ _)
  have hfloor : ((m <<< (q - 0).toNat / 2 ^ (0 - (q - (q - 0).toNat)).toNat : Nat) : Int) =
      ⌊(m * 2 ^ q : ℚ)⌋ := by
    rcases le_total q 0 with hq | hq
    · obtain ⟨k, rfl⟩ := Int.exists_eq_neg_ofNat hq
      rw [floor_of_neg, show (-(k : Int) - 0).toNat = 0 by omega, Nat.shiftLeft_zero,
        show (0 - (-(k : Int) - (0 : Nat))).toNat = k by omega]
    · obtain ⟨k, rfl⟩ := Int.eq_ofNat_of_zero_le hq
      rw [floor_of_nonneg, show ((k : Int) - 0).toNat = k by omega, Nat.shiftLeft_eq,
        show (0 - ((k : Int) - k)).toNat = 0 by omega, Nat.pow_zero, Nat.div_one]
  rw [hround, hfloor]
  cases s <;> rfl

/-- An integral double within 64 bits is converted exactly. -/
theorem toInt_toInt64 {x : Float} {z : ℤ} (h : (ofFloat x).value? = some (z : ℚ))
    (hleast : -2 ^ 63 ≤ z) (hbound : z < 2 ^ 63) : x.toModel.toInt64.toInt = z := by
  have hz : x.toModel.unpack.toInt Int64.minValue.toInt Int64.maxValue.toInt = z := by
    rw [ofFloat_eq] at h
    cases hu : x.toModel.unpack with
    | notANumber | infinity => rw [hu] at h; cases h
    | zero s =>
      rw [hu] at h
      have hzero := Option.some.inj h
      rw [dyadic_zero] at hzero
      exact_mod_cast hzero
    | finite s m q hm =>
      rw [hu] at h
      exact (roundToInt_eq s m q).trans (integerPart_of_dyadic_eq (Option.some.inj h))
  have hconversion : x.toModel.toInt64 = Int64.ofIntClamp
      (x.toModel.unpack.toInt Int64.minValue.toInt Int64.maxValue.toInt) := rfl
  rw [hconversion, hz]
  exact Int64.toInt_ofIntClamp hleast (Int.le_of_lt_add_one hbound)

/-! ### From integers to doubles -/

section Rounding

variable {m : Nat} {q : Int}

/-- Zeros at the end of a significand do not change where its first bit stands. -/
theorem totalExponent_mul_two_pow (hm : 0 < m) (k : Nat) (q : Int) :
    totalExponent (m * 2 ^ k) (q - k) = totalExponent m q := by
  have hlog : (m * 2 ^ k).log2 = m.log2 + k := by
    refine (Nat.log2_eq_iff (by positivity)).mpr ⟨?_, ?_⟩
    · rw [Nat.pow_add]
      exact Nat.mul_le_mul_right _ (Nat.log2_self_le hm.ne')
    · rw [Nat.add_right_comm, Nat.pow_add]
      exact Nat.mul_lt_mul_of_pos_right Nat.lt_log2_self (by positivity)
  unfold totalExponent
  rw [hlog]
  push_cast
  ring

/-- The exponent of a double is the one that rounding aims at. -/
theorem targetExponent_of_canonical (hm : 0 < m) (h : Canonical m q) :
    Format.binary64.targetExponent (totalExponent m q) = q := by
  obtain ⟨hbits, hleast, hfirst⟩ := h
  have hlog : m.log2 < 53 := (Nat.log2_lt hm.ne').mpr hbits
  have hmin : Format.binary64.minExponent = -1074 := by decide
  have hsize : (Format.binary64.mantissaBits : Int) = 53 := rfl
  unfold Format.targetExponent totalExponent
  rw [hmin, hsize]
  rcases hfirst with hfirst | rfl
  · have hlog' : 52 ≤ m.log2 := (Nat.le_log2 hm.ne').mpr hfirst
    omega
  · omega

theorem repeat_shiftRightOne (m k : Nat) :
    k.repeat UnpackedFloat.ExtendedMantissa.shiftRightOne ⟨m * 2 ^ k, false, false⟩ =
      ⟨m, false, false⟩ := by
  induction k generalizing m with
  | zero => simp [Nat.repeat]
  | succ k ih =>
    have hdouble : m * 2 ^ (k + 1) = (2 * m) * 2 ^ k := by ring
    rw [hdouble, Nat.repeat, ih]
    simp [UnpackedFloat.ExtendedMantissa.shiftRightOne]

/-- Nothing is lost where only zeros are shifted out. -/
theorem shiftToTargetExponent_eq (hm : 0 < m) (h : Canonical m q) (k : Nat) :
    UnpackedFloat.shiftToTargetExponent .binary64 (m * 2 ^ k) (q - k) .exact =
      (⟨m, false, false⟩, q) := by
  have hshift : (q - (q - k)).toNat = k := by omega
  have hback : q - k + k = q := by omega
  unfold UnpackedFloat.shiftToTargetExponent UnpackedFloat.shiftToExponent
  dsimp only
  rw [totalExponent_mul_two_pow hm, targetExponent_of_canonical hm h, hshift, hback]
  exact congrArg (·, q) (repeat_shiftRightOne m k)

theorem roundWithAccuracy_eq (s : UnpackedFloat.Sign) (hm : 0 < m) (h : Canonical m q) (k : Nat) :
    UnpackedFloat.roundWithAccuracy .binary64 s (m * 2 ^ k) (q - k) .exact =
      .finite s m q hm := by
  have hagain := shiftToTargetExponent_eq hm h 0
  rw [Nat.pow_zero, Nat.mul_one, Nat.cast_zero, sub_zero] at hagain
  have hrounded : (⟨m, false, false⟩ : UnpackedFloat.ExtendedMantissa).roundedMantissa = m := rfl
  unfold UnpackedFloat.roundWithAccuracy
  rw [shiftToTargetExponent_eq hm h k]
  dsimp only
  simp only [hrounded, hagain]
  exact dif_neg hm.ne'

theorem round_natCast (s : UnpackedFloat.Sign) {n : Nat} (hm : 0 < m) (h : Canonical m q)
    (heq : (n : ℚ) = m * 2 ^ q) : UnpackedFloat.round .binary64 s n 0 = .finite s m q hm := by
  have hround : UnpackedFloat.round .binary64 s n 0 =
      let t := Format.binary64.targetExponent (totalExponent n 0)
      UnpackedFloat.roundWithAccuracy .binary64 s (n <<< (0 - t).toNat)
        (0 - ((0 - t).toNat : Int)) .exact := rfl
  rw [hround]
  dsimp only
  rcases le_total q 0 with hq | hq
  · -- the significand is the integer with zeros after it
    obtain ⟨k, rfl⟩ := Int.exists_eq_neg_ofNat hq
    obtain rfl : m = n * 2 ^ k := by
      rw [zpow_neg, zpow_natCast, eq_mul_inv_iff_mul_eq₀ (by positivity)] at heq
      exact_mod_cast heq.symm
    have hn : 0 < n := Nat.pos_of_mul_pos_right hm
    have htarget := targetExponent_of_canonical hm h
    rw [← zero_sub, totalExponent_mul_two_pow hn, zero_sub] at htarget
    have hshift : (0 - -(k : Int)).toNat = k := by omega
    rw [htarget, hshift, Nat.shiftLeft_eq, zero_sub]
    have hrounded := roundWithAccuracy_eq s hm h 0
    rwa [Nat.pow_zero, Nat.mul_one, Nat.cast_zero, sub_zero] at hrounded
  · -- the integer is the significand with zeros after it
    obtain ⟨k, rfl⟩ := Int.eq_ofNat_of_zero_le hq
    obtain rfl : n = m * 2 ^ k := by
      rw [zpow_natCast] at heq
      exact_mod_cast heq
    have htotal := totalExponent_mul_two_pow hm k k
    rw [sub_self] at htotal
    have hshift : (0 - (k : Int)).toNat = 0 := by omega
    rw [htotal, targetExponent_of_canonical hm h, hshift, Nat.shiftLeft_zero]
    have hrounded := roundWithAccuracy_eq s hm h k
    rwa [sub_self] at hrounded

end Rounding

/-- Rounding an integer that a finite double denotes gives that double. -/
theorem ofInt_eq {n : Int} {s : UnpackedFloat.Sign} {m : Nat} {q : Int} (hm : 0 < m)
    (hcanonical : Canonical m q) (h : dyadic (isMinus s) m q = n) :
    UnpackedFloat.ofInt .binary64 n = .finite s m q hm := by
  unfold UnpackedFloat.ofInt UnpackedFloat.normalize
  cases s with
  | positive =>
    have hpos : 0 < n := by exact_mod_cast h ▸ dyadic_pos hm q
    have hvalue : ((n.toNat : Nat) : ℚ) = m * 2 ^ q := by
      have hn : ((n.toNat : Int) : ℚ) = n := by rw [Int.toNat_of_nonneg hpos.le]
      exact_mod_cast hn.trans h.symm
    rw [compare_gt_iff_gt.mpr hpos]
    exact round_natCast _ hm hcanonical hvalue
  | negative =>
    have hneg : n < 0 := by exact_mod_cast h ▸ dyadic_neg hm q
    have hvalue : (((-n).toNat : Nat) : ℚ) = m * 2 ^ q := by
      have hn : (((-n).toNat : Int) : ℚ) = -n := by
        rw [Int.toNat_of_nonneg (by omega), Int.cast_neg]
      have hd : (m * 2 ^ q : ℚ) = -n := by
        rw [← h]
        exact (neg_neg _).symm
      exact_mod_cast hn.trans hd.symm
    rw [compare_lt_iff_lt.mpr hneg]
    exact round_natCast _ hm hcanonical hvalue

/-- **An integer that a double denotes is not rounded.** -/
theorem value_ofInt {n : Int} {x : Float} (h : (ofFloat x).value? = some (n : ℚ)) :
    (ofFloat (.ofModel (.ofInt n))).value? = some (n : ℚ) := by
  have hcanonical := isCanonical_ofFloat x
  have hu := ofFloat_eq x
  cases hx : x.toModel.unpack with
  | infinity | notANumber => rw [hu, hx] at h; cases h
  | zero s =>
    have hn : n = 0 := by
      rw [hu, hx] at h
      exact_mod_cast (Option.some.inj h).symm.trans (dyadic_zero _ _)
    have hzero : ofFloat (.ofModel (.ofInt 0)) = .finite false 0 (-1074) := by decide
    rw [hn, hzero, value?, dyadic_zero, Int.cast_zero]
  | finite s m q hm =>
    rw [hu, hx] at hcanonical
    have hunpack : UnpackedFloat.ofInt .binary64 n = x.toModel.unpack := by
      rw [hx]
      exact ofInt_eq hm hcanonical (Option.some.inj (by rw [← h, hu, hx]; rfl))
    have hself : Float.ofModel (.ofInt n) = x :=
      (congrArg (fun u => Float.ofModel (Float.Model.pack u)) hunpack).trans
        (Float.ofBits_toBits x)
    rw [hself, h]

end Binary64

end Reckon
