import Mathlib
import Reckon.Decimal.Binary64

/-!
# The numbers that doubles denote

A finite double denotes the dyadic number of its sign, significand and exponent
(`Binary64.value?`). The arithmetic on doubles works on another reading of the same bits, in which
zeros are told apart from other finite numbers. The two readings are one (`Binary64.ofBits_eq`).

Doubles are compared by exponent first and significand second. That is the order of the numbers,
because every significand has its first bit set unless the exponent is the least one
(`Binary64.Canonical`):

* `Binary64.lt_iff`, `Binary64.le_iff`: finite doubles are ordered as the numbers;
* `Binary64.beq_iff_same`: doubles are equal if they denote the same number or are the same
  infinity;
* `Binary64.abs_sub_eq_zero`: doubles that denote the same number have no distance, whereas that of
  an infinity from itself is not a number.
-/

namespace Reckon

open Float.Model

namespace Binary64

/-! ### Bits -/

/-- Whether a sign is a minus sign. -/
def isMinus : UnpackedFloat.Sign → Bool
  | .negative => true
  | .positive => false

/-- What an unpacked double says. -/
def ofUnpacked : UnpackedFloat → Binary64
  | .infinity sign => .infinite (isMinus sign)
  | .notANumber => .nan
  | .zero sign => .finite (isMinus sign) 0 (-1074)
  | .finite sign m e _ => .finite (isMinus sign) m e

theorem toNat_unpackExponent (bits : UInt64) :
    (@UnpackedFloat.unpackExponent .binary64 bits.toBitVec).toNat =
      bits.toNat / 0x10000000000000 % 2048 := by
  rw [UnpackedFloat.unpackExponent_def]
  refine (BitVec.extractLsb'_toNat ..).trans ?_
  rw [Nat.shiftRight_eq_div_pow]
  rfl

theorem toNat_unpackMantissa (bits : UInt64) :
    (@UnpackedFloat.unpackMantissa .binary64 bits.toBitVec).toNat =
      bits.toNat % 0x10000000000000 := by
  rw [UnpackedFloat.unpackMantissa_def]
  exact BitVec.extractLsb'_toNat ..

theorem toNat_unpackSign (bits : UInt64) :
    (@UnpackedFloat.unpackSign .binary64 bits.toBitVec).toNat =
      bits.toNat / 0x8000000000000000 := by
  have hlt := bits.toNat_lt
  rw [UnpackedFloat.unpackSign_def]
  refine (BitVec.extractLsb'_toNat ..).trans ?_
  rw [Nat.shiftRight_eq_div_pow]
  exact Nat.mod_eq_of_lt (Nat.div_lt_of_lt_mul hlt)

theorem isMinus_ofBitVec (s : BitVec 1) :
    isMinus (.ofBitVec s) = (s.toNat == 1) := by
  revert s
  decide

theorem beq_toNat {w : Nat} (x y : BitVec w) : (x.toNat == y.toNat) = decide (x = y) := by
  rw [beq_eq_decide, decide_eq_decide]
  exact BitVec.toNat_inj

/-- The first bit of the significand of a normal number is not stored. -/
theorem toNat_one_append (m : BitVec 52) : (1#1 ++ m).toNat = 0x10000000000000 + m.toNat := by
  rw [BitVec.toNat_append]
  exact (Nat.two_pow_add_eq_or_of_lt m.isLt 1).symm

/-- **The two readings of a double are one.** -/
theorem ofBits_eq (bits : UInt64) :
    ofBits bits = ofUnpacked (UnpackedFloat.unpack .binary64 bits.toBitVec) := by
  have hlast : (bits.toNat / 0x10000000000000 % 2048 == 2047) =
      decide (@UnpackedFloat.unpackExponent .binary64 bits.toBitVec = -1#11) :=
    toNat_unpackExponent bits ▸ beq_toNat (w := 11) _ (-1#11)
  have hfirst : (bits.toNat / 0x10000000000000 % 2048 == 0) =
      decide (@UnpackedFloat.unpackExponent .binary64 bits.toBitVec = 0#11) :=
    toNat_unpackExponent bits ▸ beq_toNat (w := 11) _ 0#11
  have hzero : (bits.toNat % 0x10000000000000 == 0) =
      decide (@UnpackedFloat.unpackMantissa .binary64 bits.toBitVec = 0#52) :=
    toNat_unpackMantissa bits ▸ beq_toNat (w := 52) _ 0#52
  have hsign := isMinus_ofBitVec (@UnpackedFloat.unpackSign .binary64 bits.toBitVec)
  rw [toNat_unpackSign] at hsign
  have hbias : ((Format.binary64.exponentBias : Int) + (52 : Nat)) = 1075 := rfl
  unfold UnpackedFloat.unpack ofBits
  dsimp only
  rw [hlast, hfirst, hzero, ← hsign, hbias]
  simp only [decide_eq_true_eq]
  split_ifs with h1 h2 h3 h4
  · rfl
  · rfl
  · rw [← toNat_unpackMantissa, h4]
    rfl
  · rw [← toNat_unpackMantissa, h3]
    rfl
  · rw [← toNat_unpackExponent, ← toNat_unpackMantissa, ← toNat_one_append]
    rfl

theorem ofFloat_eq (x : Float) : ofFloat x = ofUnpacked x.toModel.unpack := ofBits_eq x.toBits

/-- A double made of bits says what they say, although all kinds of NaN become one. -/
theorem ofFloat_ofBits (bits : UInt64) : ofFloat (Float.ofBits bits) = ofBits bits := by
  have h : ofFloat (Float.ofBits bits) = ofUnpacked (UnpackedFloat.unpack .binary64
      (UnpackedFloat.pack .binary64 (UnpackedFloat.unpack .binary64 bits.toBitVec))) :=
    ofBits_eq _
  rw [h, ofBits_eq, UnpackedFloat.pack_unpack]
  split
  · rename_i hnan
    simp only [UnpackedFloat.isNaNBits, decide_eq_true_eq] at hnan
    have hunpack : UnpackedFloat.unpack .binary64 bits.toBitVec = .notANumber := by
      simp [UnpackedFloat.unpack, hnan]
    rw [UnpackedFloat.unpack_packedNaN, hunpack]
  · rfl

/-- The fields of the bits of a finite double. -/
theorem fields_of_ofBits {bits : UInt64} {negative : Bool} {m : Nat} {q : Int}
    (h : ofBits bits = .finite negative m q) :
    negative = (bits.toNat / 0x8000000000000000 == 1) ∧
      ((bits.toNat / 0x10000000000000 % 2048 = 0 ∧ m = bits.toNat % 0x10000000000000 ∧
          q = -1074) ∨
        (bits.toNat / 0x10000000000000 % 2048 ≠ 0 ∧
          bits.toNat / 0x10000000000000 % 2048 ≠ 2047 ∧
          m = 0x10000000000000 + bits.toNat % 0x10000000000000 ∧
          q = (bits.toNat / 0x10000000000000 % 2048 : Nat) - 1075)) := by
  unfold ofBits at h
  dsimp only at h
  split_ifs at h with hlast hzero hfirst
  · obtain ⟨rfl, rfl, rfl⟩ := Binary64.finite.inj h
    exact ⟨rfl, .inl ⟨eq_of_beq hfirst, rfl, rfl⟩⟩
  · obtain ⟨rfl, rfl, rfl⟩ := Binary64.finite.inj h
    exact ⟨rfl, .inr ⟨by simpa using hfirst, by simpa using hlast, rfl, rfl⟩⟩

/-- The finite double of a first part `D`, which is the sign and the exponent, and a fraction. -/
theorem ofBits_of_fields {bits : UInt64} {D fraction : Nat}
    (h : bits.toNat = 0x10000000000000 * D + fraction) (hfraction : fraction < 0x10000000000000)
    (hlast : D % 2048 ≠ 2047) :
    ofBits bits = if D % 2048 = 0 then .finite (D / 2048 == 1) fraction (-1074)
      else .finite (D / 2048 == 1) (0x10000000000000 + fraction) ((D % 2048 : Nat) - 1075) := by
  have h1 : bits.toNat / 0x10000000000000 = D := by omega
  have h2 : bits.toNat % 0x10000000000000 = fraction := by omega
  have h3 : bits.toNat / 0x8000000000000000 = D / 2048 := by omega
  unfold ofBits
  dsimp only
  rw [h1, h2, h3, if_neg (by simpa using hlast)]
  simp only [beq_iff_eq]

/-! ### Values -/

/-- The number that a sign, a significand and an exponent stand for. -/
def dyadic (negative : Bool) (m : Nat) (q : Int) : ℚ :=
  if negative then -(m * 2 ^ q) else m * 2 ^ q

/-- The number that a double denotes, if it is finite. -/
def value? : Binary64 → Option ℚ
  | .finite negative m q => some (dyadic negative m q)
  | _ => none

@[simp] theorem dyadic_zero (negative : Bool) (q : Int) : dyadic negative 0 q = 0 := by
  simp [dyadic]

theorem dyadic_pos {m : Nat} (hm : 0 < m) (q : Int) : 0 < dyadic false m q := by
  have h : (0 : ℚ) < m * 2 ^ q := by positivity
  exact h

theorem dyadic_neg {m : Nat} (hm : 0 < m) (q : Int) : dyadic true m q < 0 :=
  neg_lt_zero.mpr (dyadic_pos hm q)

theorem exists_of_value {b : Binary64} {v : ℚ} (h : b.value? = some v) :
    ∃ negative m q, b = .finite negative m q ∧ v = dyadic negative m q := by
  cases b with
  | finite negative m q => exact ⟨negative, m, q, rfl, (Option.some.inj h).symm⟩
  | infinite negative => cases h
  | nan => cases h

/-- A significand of 53 bits, the first of which is set unless the exponent is the least one. -/
def Canonical (m : Nat) (q : Int) : Prop :=
  m < 2 ^ 53 ∧ -1074 ≤ q ∧ (2 ^ 52 ≤ m ∨ q = -1074)

/-- A finite double has a canonical significand. -/
def IsCanonical : Binary64 → Prop
  | .finite _ m q => Canonical m q
  | _ => True

theorem canonical_of_ofBits {bits : UInt64} {negative : Bool} {m : Nat} {q : Int}
    (h : ofBits bits = .finite negative m q) : Canonical m q := by
  have hfraction := Nat.mod_lt bits.toNat (by decide : 0 < 0x10000000000000)
  unfold Canonical
  obtain ⟨-, ⟨-, rfl, rfl⟩ | ⟨hfirst, -, rfl, rfl⟩⟩ := fields_of_ofBits h
  · omega
  · omega

theorem isCanonical_ofFloat (x : Float) : (ofFloat x).IsCanonical := by
  cases h : ofFloat x with
  | finite negative m q => exact canonical_of_ofBits h
  | infinite negative => trivial
  | nan => trivial

/-! ### Order -/

section Order

variable {m₁ m₂ : Nat} {q₁ q₂ : Int}

/-- Of two numbers without sign, the one with the larger exponent is the larger one. -/
theorem Canonical.lt_of_exponent_lt (h₁ : Canonical m₁ q₁) (h₂ : Canonical m₂ q₂) (h : q₁ < q₂) :
    (m₁ * 2 ^ q₁ : ℚ) < m₂ * 2 ^ q₂ := by
  have hm₁ : (m₁ : ℚ) < 2 ^ 53 := by exact_mod_cast h₁.1
  have hm₂ : (2 ^ 52 : ℚ) ≤ m₂ := by
    -- the larger exponent is not the least one, so the first bit is set
    have hfirst := h₂.2.2.resolve_right (by have := h₁.2.1; omega)
    exact_mod_cast hfirst
  calc (m₁ * 2 ^ q₁ : ℚ) < 2 ^ 53 * 2 ^ q₁ := by gcongr
    _ = 2 ^ 52 * 2 ^ (q₁ + 1) := by rw [zpow_add₀ two_ne_zero]; ring
    _ ≤ 2 ^ 52 * 2 ^ q₂ := by gcongr <;> norm_num; omega
    _ ≤ m₂ * 2 ^ q₂ := by gcongr

theorem compare_magnitudes (h₁ : Canonical m₁ q₁) (h₂ : Canonical m₂ q₂) :
    compare (m₁ * 2 ^ q₁ : ℚ) (m₂ * 2 ^ q₂) = (compare q₁ q₂).then (compare m₁ m₂) := by
  rcases lt_trichotomy q₁ q₂ with h | rfl | h
  · rw [compare_lt_iff_lt.mpr h, compare_lt_iff_lt.mpr (h₁.lt_of_exponent_lt h₂ h)]
    rfl
  · have hpow : (0 : ℚ) < 2 ^ q₁ := by positivity
    rw [compare_eq_iff_eq.mpr rfl, Ordering.eq_then]
    rcases lt_trichotomy m₁ m₂ with h | rfl | h
    · rw [compare_lt_iff_lt.mpr h, compare_lt_iff_lt]
      gcongr
    · rw [compare_eq_iff_eq.mpr rfl, compare_eq_iff_eq.mpr rfl]
    · rw [compare_gt_iff_gt.mpr h, compare_gt_iff_gt]
      gcongr
  · rw [compare_gt_iff_gt.mpr h, compare_gt_iff_gt.mpr (h₂.lt_of_exponent_lt h₁ h)]
    rfl

theorem compare_negatives (a b : ℚ) : compare (-a) (-b) = (compare a b).swap := by
  rcases lt_trichotomy a b with h | rfl | h
  · rw [compare_lt_iff_lt.mpr h, compare_gt_iff_gt.mpr (neg_lt_neg h)]
    rfl
  · rw [compare_eq_iff_eq.mpr rfl, compare_eq_iff_eq.mpr rfl]
    rfl
  · rw [compare_gt_iff_gt.mpr h, compare_lt_iff_lt.mpr (neg_lt_neg h)]
    rfl

end Order

section Unpacked

variable {a b : UnpackedFloat} {v w : ℚ}

/-- Finite floats are compared as the numbers that they denote. -/
theorem compare_unpacked (hca : (ofUnpacked a).IsCanonical) (hcb : (ofUnpacked b).IsCanonical)
    (ha : (ofUnpacked a).value? = some v) (hb : (ofUnpacked b).value? = some w) :
    a.compare b = some (compare v w) := by
  rcases a with _ | _ | s | ⟨s, m, q, hm⟩ <;> cases ha <;>
    rcases b with _ | _ | s' | ⟨s', m', q', hm'⟩ <;> cases hb
  · -- two zeros
    simp [UnpackedFloat.compare]
  · -- a zero on the left
    rw [dyadic_zero]
    cases s' with
    | negative => exact congrArg some (compare_gt_iff_gt.mpr (dyadic_neg hm' q')).symm
    | positive => exact congrArg some (compare_lt_iff_lt.mpr (dyadic_pos hm' q')).symm
  · -- a zero on the right
    rw [dyadic_zero]
    cases s with
    | negative => exact congrArg some (compare_lt_iff_lt.mpr (dyadic_neg hm q)).symm
    | positive => exact congrArg some (compare_gt_iff_gt.mpr (dyadic_pos hm q)).symm
  · -- no zero
    cases s <;> cases s'
    · refine congrArg some ((compare_negatives _ _).trans ?_).symm
      rw [compare_magnitudes hca hcb]
    · have hlt := (dyadic_neg hm q).trans (dyadic_pos hm' q')
      exact congrArg some (compare_lt_iff_lt.mpr hlt).symm
    · have hgt := (dyadic_neg hm' q').trans (dyadic_pos hm q)
      exact congrArg some (compare_gt_iff_gt.mpr hgt).symm
    · exact congrArg some (compare_magnitudes hca hcb).symm

theorem beq_unpacked (hca : (ofUnpacked a).IsCanonical) (hcb : (ofUnpacked b).IsCanonical) :
    (a.compare b == some .eq) = true ↔
      (∃ v, (ofUnpacked a).value? = some v ∧ (ofUnpacked b).value? = some v) ∨
        ∃ negative, ofUnpacked a = .infinite negative ∧ ofUnpacked b = .infinite negative := by
  have hfinite (v w : ℚ) (ha : (ofUnpacked a).value? = some v)
      (hb : (ofUnpacked b).value? = some w)
      (hinfinite : ∀ negative, ofUnpacked a ≠ .infinite negative) :
      (a.compare b == some .eq) = true ↔
        (∃ v, (ofUnpacked a).value? = some v ∧ (ofUnpacked b).value? = some v) ∨
          ∃ negative, ofUnpacked a = .infinite negative ∧ ofUnpacked b = .infinite negative := by
    rw [compare_unpacked hca hcb ha hb, ha, hb]
    simpa [hinfinite] using eq_comm
  cases a with
  | notANumber => simp [UnpackedFloat.compare, ofUnpacked, value?]
  | infinity s =>
    cases b with
    | infinity s' => cases s <;> cases s' <;> decide
    | _ => cases s <;> simp [UnpackedFloat.compare, ofUnpacked, value?]
  | zero | finite =>
    cases b with
    | notANumber => simp [UnpackedFloat.compare, ofUnpacked, value?]
    | infinity s' => cases s' <;> simp [UnpackedFloat.compare, ofUnpacked, value?]
    | _ => exact hfinite _ _ rfl rfl fun _ => nofun

theorem eq_infinity {negative : Bool} (h : ofUnpacked a = .infinite negative) :
    ∃ s, a = .infinity s ∧ isMinus s = negative := by
  cases a with
  | infinity s => exact ⟨s, rfl, Binary64.infinite.inj h⟩
  | notANumber | zero | finite => cases h

end Unpacked

/-! ### Comparisons of doubles -/

variable {x y t : Float} {v w : ℚ}

theorem lt_iff_compare :
    x < y ↔ (x.toModel.unpack.compare y.toModel.unpack == some .lt) = true :=
  decide_eq_true_iff

theorem le_iff_compare :
    x ≤ y ↔ (x.toModel.unpack.compare y.toModel.unpack).any (·.isLE) = true :=
  decide_eq_true_iff

theorem compare_eq (hx : (ofFloat x).value? = some v) (hy : (ofFloat y).value? = some w) :
    x.toModel.unpack.compare y.toModel.unpack = some (compare v w) := by
  have hcx := isCanonical_ofFloat x
  have hcy := isCanonical_ofFloat y
  rw [ofFloat_eq] at hx hy hcx hcy
  exact compare_unpacked hcx hcy hx hy

theorem lt_iff (hx : (ofFloat x).value? = some v) (hy : (ofFloat y).value? = some w) :
    x < y ↔ v < w := by
  rw [lt_iff_compare, compare_eq hx hy]
  simp [compare_lt_iff_lt]

theorem le_iff (hx : (ofFloat x).value? = some v) (hy : (ofFloat y).value? = some w) :
    x ≤ y ↔ v ≤ w := by
  rw [le_iff_compare, compare_eq hx hy, Option.any_some]
  exact Ordering.isLE_iff_ne_gt.trans compare_le_iff_le

/-- **Doubles are equal if they are the same number, or the same infinity.** -/
theorem beq_iff_same :
    (x == y) = true ↔
      (∃ v, (ofFloat x).value? = some v ∧ (ofFloat y).value? = some v) ∨
        ∃ negative, ofFloat x = .infinite negative ∧ ofFloat y = .infinite negative := by
  have hcx := isCanonical_ofFloat x
  have hcy := isCanonical_ofFloat y
  rw [ofFloat_eq] at hcx hcy
  rw [ofFloat_eq, ofFloat_eq]
  exact beq_unpacked hcx hcy

theorem beq_iff (hx : (ofFloat x).value? = some v) (hy : (ofFloat y).value? = some w) :
    (x == y) = true ↔ v = w := by
  obtain ⟨negative, m, q, hfinite, -⟩ := exists_of_value hx
  rw [beq_iff_same, hx, hy, hfinite]
  simpa using eq_comm

theorem le_of_lt (h : x < y) : x ≤ y := by
  rw [le_iff_compare, eq_of_beq (lt_iff_compare.mp h)]
  rfl

theorem lt_of_infinite (hx : ofFloat x = .infinite true) (hy : (ofFloat y).value? = some v) :
    x < y := by
  rw [ofFloat_eq] at hx hy
  obtain ⟨s, hs, hminus⟩ := eq_infinity hx
  rw [lt_iff_compare, hs]
  cases s with
  | positive => cases hminus
  | negative => cases hu : y.toModel.unpack <;> rw [hu] at hy <;> first | rfl | cases hy

theorem le_of_infinite (hx : (ofFloat x).value? = some v) (hy : ofFloat y = .infinite false) :
    x ≤ y := by
  rw [ofFloat_eq] at hx hy
  obtain ⟨s, hs, hminus⟩ := eq_infinity hy
  rw [le_iff_compare, hs]
  cases s with
  | negative => cases hminus
  | positive => cases hu : x.toModel.unpack <;> rw [hu] at hx <;> first | rfl | cases hx

theorem isNaN_iff : x.isNaN = true ↔ ofFloat x = .nan := by
  have h : x.isNaN = x.toModel.unpack.isNaN := rfl
  rw [h, ofFloat_eq]
  cases x.toModel.unpack <;> simp [UnpackedFloat.isNaN, ofUnpacked]

/-! ### Distances -/

/-- Finite floats that are equal have the difference zero. -/
theorem sub_eq_zero {a b : UnpackedFloat} (heq : a.beq b = true) (hfinite : a.isFinite = true) :
    ∃ s, UnpackedFloat.sub .binary64 a b = .zero s := by
  obtain ⟨-, -, rfl | ⟨rfl, rfl⟩ | ⟨rfl, rfl⟩⟩ :=
    (UnpackedFloat.beq_iff_ne_notANumber_and_eq a b).mp heq
  · cases a with
    | infinity | notANumber => cases hfinite
    | zero s => exact ⟨.positive, by cases s <;> rfl⟩
    | finite s m q hm =>
      refine ⟨.positive, ?_⟩
      unfold UnpackedFloat.sub
      dsimp only
      rw [sub_self]
      rfl
  · exact ⟨_, rfl⟩
  · exact ⟨_, rfl⟩

theorem abs_sub_eq : (x - y).abs = .ofModel (Float.Model.pack (UnpackedFloat.unpack .binary64
    (UnpackedFloat.pack .binary64
      (UnpackedFloat.sub .binary64 x.toModel.unpack y.toModel.unpack))).abs) := rfl

/-- **Doubles that denote the same number have no distance.** -/
theorem abs_sub_eq_zero (hx : (ofFloat x).value? = some v) (hy : (ofFloat y).value? = some v) :
    (x - y).abs = 0 := by
  have hfinite : x.toModel.unpack.isFinite = true := by
    rw [ofFloat_eq] at hx
    cases hu : x.toModel.unpack <;> rw [hu] at hx <;> first | rfl | cases hx
  obtain ⟨s, hs⟩ := sub_eq_zero ((beq_iff hx hy).mpr rfl) hfinite
  have hpack : UnpackedFloat.pack .binary64 (.zero s) = UnpackedFloat.packedZero .binary64 s := rfl
  have hzero : Float.ofModel (Float.Model.pack (.zero .positive)) = 0 := by decide
  rw [abs_sub_eq, hs, hpack, UnpackedFloat.unpack_packedZero]
  exact hzero

/-- A distance that is not a number is below no bound. -/
theorem not_abs_sub_le (h : UnpackedFloat.sub .binary64 x.toModel.unpack y.toModel.unpack =
    .notANumber) : ¬ (x - y).abs ≤ t := by
  have hpack : UnpackedFloat.pack .binary64 .notANumber = UnpackedFloat.packedNaN .binary64 := rfl
  have hnan : (Float.Model.pack .notANumber).unpack = .notANumber :=
    UnpackedFloat.unpack_packedNaN
  have habs : (x - y).abs.toModel.unpack = .notANumber := by
    rw [abs_sub_eq, h, hpack, UnpackedFloat.unpack_packedNaN]
    exact hnan
  rw [le_iff_compare, habs]
  exact Bool.false_ne_true

theorem sub_of_infinite {negative : Bool} (hx : ofFloat x = .infinite negative)
    (hy : ofFloat y = .infinite negative) :
    UnpackedFloat.sub .binary64 x.toModel.unpack y.toModel.unpack = .notANumber := by
  rw [ofFloat_eq] at hx hy
  obtain ⟨s, hs, rfl⟩ := eq_infinity hx
  obtain ⟨s', hs', hminus⟩ := eq_infinity hy
  rw [hs, hs']
  cases s <;> cases s' <;> first | rfl | cases hminus

theorem sub_of_nan (hx : ofFloat x = .nan) :
    UnpackedFloat.sub .binary64 x.toModel.unpack y.toModel.unpack = .notANumber := by
  rw [ofFloat_eq] at hx
  cases hu : x.toModel.unpack <;> rw [hu] at hx <;> first | rfl | cases hx

end Binary64

end Reckon
