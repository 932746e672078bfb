import Reckon.Proofs.Decimal.Integral

/-!
# The nearest double

The numbers that round to a double lie between the points half way to its neighbours, and the points
themselves belong to the doubles with an even significand (`Binary64.RoundsTo`). Below a power of
two the doubles are twice as dense, so the lower point is nearer there.

The arithmetic on doubles cuts a number off and keeps two bits of what it cut: whether the rest is
one half at least, and whether it is anything else than zero and one half (`Binary64.Truncates`).
These are kept when more is cut off, and enough to round in the end, so:

* `Binary64.roundWithAccuracy_of_roundsTo`: a number is rounded to the double that it rounds to;
* `Binary64.RoundsTo.unique`: there is only one such double;
* `Binary64.ofScientific_of_roundsTo`: a decimal with digits after the point is read as this double,
  whether it is short and read by one division of doubles, or long and read in one rounding of the
  exact fraction.
-/

namespace Reckon

open Float.Model

namespace Binary64

/-! ### Cut off bits -/

theorem mantissa_ofMantissaAndAccuracy (n : Nat) (accuracy : UnpackedFloat.Accuracy) :
    (UnpackedFloat.ExtendedMantissa.ofMantissaAndAccuracy n accuracy).mantissa = n := by
  rcases accuracy with _ | _ | _ | _ <;> rfl

/-- A number whose integer part is the significand: the first bit says whether it is half way to
the next integer at least, and the second one whether it is anything but an integer or half way
between two. -/
structure Truncates (em : UnpackedFloat.ExtendedMantissa) (w : ℚ) : Prop where
  le : (em.mantissa : ℚ) ≤ w
  lt : w < em.mantissa + 1
  roundBit : em.roundBit = true ↔ (em.mantissa : ℚ) + 1 / 2 ≤ w
  stickyBit : em.stickyBit = false ↔ w = em.mantissa ∨ w = em.mantissa + 1 / 2

namespace Truncates

variable {em : UnpackedFloat.ExtendedMantissa} {w : ℚ}

/-- Neither bit is set just if the number is an integer. -/
theorem eq_iff (h : Truncates em w) :
    w = em.mantissa ↔ em.roundBit = false ∧ em.stickyBit = false := by
  have hround : em.roundBit = false ↔ w < em.mantissa + 1 / 2 := by
    rw [← Bool.not_eq_true, h.roundBit, not_le]
  rw [hround, h.stickyBit]
  constructor
  · intro heq
    exact ⟨by linarith, .inl heq⟩
  · rintro ⟨hlt, heq | heq⟩
    · exact heq
    · linarith

/-- A bit that is shifted out is kept in the bits after the significand. -/
theorem shiftRightOne (h : Truncates em w) : Truncates em.shiftRightOne (w / 2) := by
  have hhalves : ((em.mantissa / 2 : Nat) : ℚ) * 2 + (em.mantissa % 2 : Nat) = em.mantissa := by
    exact_mod_cast Nat.div_add_mod' em.mantissa 2
  have hsticky : (em.roundBit || em.stickyBit) = false ↔ w = em.mantissa := by
    rw [Bool.or_eq_false_iff, h.eq_iff]
  have hle := h.le
  have hlt := h.lt
  have hround : (em.mantissa % 2 != 0) = true ↔ em.mantissa % 2 = 1 := by
    rw [bne_iff_ne]
    omega
  rcases Nat.mod_two_eq_zero_or_one em.mantissa with heven | hodd
  · rw [heven, Nat.cast_zero, add_zero] at hhalves
    refine ⟨?_, ?_, ?_, ?_⟩ <;> simp only [UnpackedFloat.ExtendedMantissa.shiftRightOne]
    · linarith
    · linarith
    · rw [hround, heven]
      exact iff_of_false zero_ne_one (by linarith)
    · rw [hsticky]
      constructor
      · intro heq
        exact .inl (by linarith)
      · rintro (heq | heq)
        · linarith
        · linarith
  · rw [hodd, Nat.cast_one] at hhalves
    refine ⟨?_, ?_, ?_, ?_⟩ <;> simp only [UnpackedFloat.ExtendedMantissa.shiftRightOne]
    · linarith
    · linarith
    · rw [hround]
      exact iff_of_true hodd (by linarith)
    · rw [hsticky]
      constructor
      · intro heq
        exact .inr (by linarith)
      · rintro (heq | heq)
        · linarith
        · linarith

theorem shiftRight (h : Truncates em w) (k : Nat) : Truncates (em >>> k) (w / 2 ^ k) := by
  have hrepeat : em >>> k = k.repeat UnpackedFloat.ExtendedMantissa.shiftRightOne em := rfl
  rw [hrepeat]
  induction k with
  | zero =>
    rw [pow_zero, div_one]
    exact h
  | succ k ih =>
    have hnext := (ih rfl).shiftRightOne
    rwa [div_div, ← pow_succ] at hnext

/-- **The bits are enough to round to the nearest integer**, and to the even one half way between
two. -/
theorem roundedMantissa_eq (h : Truncates em w) {m : Nat} (hlow : (m : ℚ) - 1 / 2 ≤ w)
    (hhigh : w ≤ m + 1 / 2) (hodd : m % 2 = 1 → (m : ℚ) - 1 / 2 < w ∧ w < m + 1 / 2) :
    em.roundedMantissa = m := by
  obtain ⟨n, round, sticky⟩ := em
  obtain ⟨hle, hlt, hround, hsticky⟩ := h
  dsimp only at hle hlt hround hsticky
  -- the integer part is the nearest integer or the one before it
  have hcases : m = n ∨ m = n + 1 := by
    have hup : (m : ℚ) < n + 2 := by linarith
    have hdown : (n : ℚ) < m + 1 := by linarith
    have hup' : m < n + 2 := by exact_mod_cast hup
    have hdown' : n < m + 1 := by exact_mod_cast hdown
    omega
  have hne : w = n + 1 / 2 → m % 2 = 0 := by
    intro htie
    by_contra hm
    obtain ⟨hlow', hhigh'⟩ := hodd (by omega)
    rcases hcases with rfl | rfl
    · linarith
    · push_cast at hlow'
      linarith
  have hfirst : round = false → m = n := by
    intro hbit
    have hless : w < n + 1 / 2 := by
      rw [← not_le, ← hround, hbit]
      exact Bool.false_ne_true
    rcases hcases with rfl | rfl
    · rfl
    · push_cast at hlow
      linarith
  cases round with
  | false =>
    have hm := hfirst rfl
    cases sticky <;> exact hm.symm
  | true =>
    have hmore : n + 1 / 2 ≤ w := hround.mp rfl
    cases sticky with
    | false =>
      -- half way, so that the even one of the two is taken
      have htie : w = n + 1 / 2 := (hsticky.mp rfl).resolve_left (by intro heq; linarith)
      have hm := hne htie
      have hrounded : UnpackedFloat.ExtendedMantissa.roundedMantissa ⟨n, true, false⟩ =
          n + n % 2 := rfl
      rw [hrounded]
      omega
    | true =>
      have hoff : w ≠ n + 1 / 2 := fun htie => nomatch hsticky.mpr (.inr htie)
      rcases hcases with rfl | rfl
      · exact absurd (le_antisymm hhigh hmore) hoff
      · rfl

/-- An integer and a fraction, with the bits that the fraction calls for. -/
theorem of_parts (n : Nat) {f : ℚ} {round sticky : Bool} (hnonneg : 0 ≤ f) (hlt : f < 1)
    (hround : round = true ↔ 1 / 2 ≤ f) (hsticky : sticky = false ↔ f = 0 ∨ f = 1 / 2) :
    Truncates ⟨n, round, sticky⟩ (n + f) := by
  refine ⟨by linarith, by linarith, ?_, ?_⟩
  · rw [hround, add_le_add_iff_left]
  · rw [hsticky, add_eq_left, add_right_inj]

/-- The quotient of two integers is cut off with its accuracy. -/
theorem of_fraction (n : Nat) {d : Nat} (hd : 0 < d) :
    Truncates (.ofMantissaAndAccuracy (n / d) (UnpackedFloat.accuracyOfFraction (n % d) d))
      (n / d) := by
  have hpos : (0 : ℚ) < d := by exact_mod_cast hd
  have hsplit : (n : ℚ) / d = (n / d : Nat) + (n % d : Nat) / d := by
    have hdiv : (d : ℚ) * (n / d : Nat) + (n % d : Nat) = n := by
      exact_mod_cast Nat.div_add_mod n d
    rw [div_eq_iff hpos.ne', add_mul, div_mul_cancel₀ _ hpos.ne', mul_comm, hdiv]
  have hlt : ((n % d : Nat) : ℚ) / d < 1 := by
    rw [div_lt_one hpos]
    exact_mod_cast Nat.mod_lt n hd
  have hzero : ((n % d : Nat) : ℚ) / d = 0 ↔ n % d = 0 := by
    rw [div_eq_zero_iff, or_iff_left hpos.ne']
    exact_mod_cast Iff.rfl
  have hhalf : ((n % d : Nat) : ℚ) / d = 1 / 2 ↔ 2 * (n % d) = d := by
    rw [div_eq_div_iff hpos.ne' two_ne_zero, one_mul, mul_comm]
    exact_mod_cast Iff.rfl
  have hmore : 1 / 2 ≤ ((n % d : Nat) : ℚ) / d ↔ d ≤ 2 * (n % d) := by
    rw [div_le_div_iff₀ two_pos hpos, one_mul, mul_comm]
    exact_mod_cast Iff.rfl
  have hparts {round sticky : Bool} (hround : round = true ↔ d ≤ 2 * (n % d))
      (hsticky : sticky = false ↔ n % d = 0 ∨ 2 * (n % d) = d) :
      Truncates ⟨n / d, round, sticky⟩ (n / d) := by
    rw [← hmore] at hround
    rw [← hzero, ← hhalf] at hsticky
    exact hsplit ▸ of_parts _ (by positivity) hlt hround hsticky
  unfold UnpackedFloat.accuracyOfFraction
  split_ifs with hexact
  · exact hparts (by simp; omega) (by simp [hexact])
  rcases hcompare : compare (2 * (n % d)) d with _ | _ | _
  · have hless := compare_lt_iff_lt.mp hcompare
    exact hparts (by simpa using hless) (by simp; omega)
  · have heq := compare_eq_iff_eq.mp hcompare
    exact hparts (by simpa using heq.ge) (by simp [heq])
  · have hgreater := compare_gt_iff_gt.mp hcompare
    exact hparts (by simpa using hgreater.le) (by simp; omega)

end Truncates

/-! ### Rounding -/

/-- How far below a double the numbers reach that round to it, in units of its last place: half way
to the next double, which is nearer below a power of two. -/
def reach (m : Nat) (q : Int) : ℚ := if m = 0x10000000000000 ∧ -1074 < q then 1 / 4 else 1 / 2

/-- A number between the two half-way points around `m · 2 ^ q`, which are included if `m` is
even. -/
structure RoundsTo (v : ℚ) (m : Nat) (q : Int) : Prop where
  low : (m - reach m q) * 2 ^ q < v ∨ m % 2 = 0 ∧ (m - reach m q) * 2 ^ q = v
  high : v < (m + 1 / 2) * 2 ^ q ∨ m % 2 = 0 ∧ v = (m + 1 / 2) * 2 ^ q

section Rounding

variable {m : Nat} {q : Int} {v : ℚ}

theorem reach_pos (m : Nat) (q : Int) : 0 < reach m q := by
  unfold reach
  split_ifs <;> norm_num

theorem reach_le (m : Nat) (q : Int) : reach m q ≤ 1 / 2 := by
  unfold reach
  split_ifs <;> norm_num

namespace RoundsTo

theorem low_le (h : RoundsTo v m q) : (m - reach m q) * 2 ^ q ≤ v :=
  h.low.elim LT.lt.le fun heq => heq.2.le

theorem le_high (h : RoundsTo v m q) : v ≤ (m + 1 / 2) * 2 ^ q :=
  h.high.elim LT.lt.le fun heq => heq.2.le

theorem pos (h : RoundsTo v m q) (hm : 0 < m) : 0 < v := by
  refine lt_of_lt_of_le ?_ h.low_le
  have hone : (1 : ℚ) ≤ m := by exact_mod_cast hm
  have hreach := reach_le m q
  have hfactor : 0 < (m : ℚ) - reach m q := by linarith
  positivity

/-- In units of the last place, a number is at most half of one off, and less if the significand
is odd. -/
theorem units (h : RoundsTo v m q) :
    (m : ℚ) - 1 / 2 ≤ v / 2 ^ q ∧ v / 2 ^ q ≤ m + 1 / 2 ∧
      (m % 2 = 1 → (m : ℚ) - 1 / 2 < v / 2 ^ q ∧ v / 2 ^ q < m + 1 / 2) := by
  have hpow : (0 : ℚ) < 2 ^ q := by positivity
  have hreach := reach_le m q
  refine ⟨?_, ?_, fun hodd => ⟨?_, ?_⟩⟩
  · have hle := (le_div_iff₀ hpow).mpr h.low_le
    linarith
  · exact (div_le_iff₀ hpow).mpr h.le_high
  · have hlt := (lt_div_iff₀ hpow).mpr (h.low.resolve_right fun heven => by omega)
    linarith
  · exact (div_lt_iff₀ hpow).mpr (h.high.resolve_right fun heven => by omega)

/-- A number that rounds to a double is below the first one with a larger exponent. -/
theorem lt_two_zpow (h : RoundsTo v m q) (hc : Canonical m q) : v < 2 ^ (53 + q) := by
  have hm : (m : ℚ) + 1 ≤ 2 ^ 53 := by exact_mod_cast hc.1
  calc v ≤ (m + 1 / 2) * 2 ^ q := h.le_high
    _ < 2 ^ 53 * 2 ^ q := by gcongr; linarith
    _ = 2 ^ (53 + q) := by rw [zpow_add₀ two_ne_zero]; norm_num

/-- A number that rounds to a double has its exponent, except below a power of two. -/
theorem two_zpow_lt (h : RoundsTo v m q) (hc : Canonical m q) (hq : -1074 < q) :
    2 ^ (52 + q) < v ∨ m = 0x10000000000000 ∧ 2 ^ (51 + q) < v := by
  have hfirst : 0x10000000000000 ≤ m := hc.2.2.resolve_right hq.ne'
  rcases hfirst.eq_or_lt with rfl | hmore
  · refine .inr ⟨rfl, lt_of_lt_of_le ?_ h.low_le⟩
    have hreach := reach_le 0x10000000000000 q
    calc (2 : ℚ) ^ (51 + q) = 2 ^ 51 * 2 ^ q := by rw [zpow_add₀ two_ne_zero]; norm_num
      _ < ((0x10000000000000 : Nat) - reach 0x10000000000000 q) * 2 ^ q := by
        gcongr
        norm_num
        linarith
  · refine .inl (lt_of_lt_of_le ?_ h.low_le)
    have hreach := reach_le m q
    have hm : (2 : ℚ) ^ 52 + 1 ≤ m := by exact_mod_cast hmore
    calc (2 : ℚ) ^ (52 + q) = 2 ^ 52 * 2 ^ q := by rw [zpow_add₀ two_ne_zero]; norm_num
      _ < (m - reach m q) * 2 ^ q := by
        gcongr
        linarith

end RoundsTo

theorem targetExponent_eq (e : Int) : Format.binary64.targetExponent e = max (e - 53) (-1074) := by
  have hmin : Format.binary64.minExponent = -1074 := by decide
  have hsize : (Format.binary64.mantissaBits : Int) = 53 := rfl
  rw [Format.targetExponent, hmin, hsize]

/-- A significand that is cut off tells where the first bit of the number stands. -/
theorem Truncates.bounds {n : Nat} {accuracy : UnpackedFloat.Accuracy} {w : ℚ}
    (h : Truncates (.ofMantissaAndAccuracy n accuracy) w) (e : Int) :
    (0 < n → 2 ^ (n.log2 + e) ≤ w * 2 ^ e) ∧ w * 2 ^ e < 2 ^ (n.log2 + e + 1) := by
  have hle : (n : ℚ) ≤ w := mantissa_ofMantissaAndAccuracy n accuracy ▸ h.le
  have hlt : w < n + 1 := mantissa_ofMantissaAndAccuracy n accuracy ▸ h.lt
  constructor
  · intro hn
    have hlog : (2 : ℚ) ^ n.log2 ≤ n := by exact_mod_cast Nat.log2_self_le hn.ne'
    rw [zpow_add₀ two_ne_zero, zpow_natCast]
    gcongr
    linarith
  · have hlog : (n : ℚ) + 1 ≤ 2 ^ (n.log2 + 1) := by exact_mod_cast Nat.lt_log2_self (n := n)
    rw [add_right_comm, zpow_add₀ two_ne_zero, ← Nat.cast_add_one, zpow_natCast]
    gcongr
    linarith

/-- **Rounding aims at the exponent of the double**, or at the one before it if the number is below
a power of two that it rounds to. -/
theorem targetExponent_of_roundsTo {n : Nat} {accuracy : UnpackedFloat.Accuracy} {w : ℚ} {e : Int}
    (h : Truncates (.ofMantissaAndAccuracy n accuracy) w)
    (he : e ≤ Format.binary64.targetExponent (totalExponent n e))
    (hv : RoundsTo (w * 2 ^ e) m q) (hc : Canonical m q) :
    Format.binary64.targetExponent (totalExponent n e) = q ∨
      Format.binary64.targetExponent (totalExponent n e) = q - 1 ∧ m = 0x10000000000000 ∧
        -1074 < q ∧ w * 2 ^ e < 2 ^ (52 + q) := by
  have htarget : Format.binary64.targetExponent (totalExponent n e) =
      max (n.log2 + e - 52) (-1074) := by
    rw [targetExponent_eq, totalExponent]
    omega
  rw [htarget] at he ⊢
  obtain ⟨hlow, hhigh⟩ := h.bounds e
  have hle : max (n.log2 + e - 52 : Int) (-1074) ≤ q := by
    have hleast := hc.2.1
    rcases Nat.eq_zero_or_pos n with rfl | hn
    · rw [Nat.log2_zero] at he ⊢
      omega
    · have hlt := (zpow_lt_zpow_iff_right₀ one_lt_two).mp
        ((hlow hn).trans_lt (hv.lt_two_zpow hc))
      omega
  rcases hc.2.1.eq_or_lt with rfl | hq
  · exact .inl (le_antisymm hle (le_max_right _ _))
  · rcases hv.two_zpow_lt hc hq with hmore | ⟨hm, hmore⟩
    · have hlt := (zpow_lt_zpow_iff_right₀ one_lt_two).mp (hmore.trans hhigh)
      omega
    · have hlt := (zpow_lt_zpow_iff_right₀ one_lt_two).mp (hmore.trans hhigh)
      rcases eq_or_lt_of_le (show (51 + q : Int) ≤ n.log2 + e by omega) with heq | hgt
      · refine .inr ⟨by omega, hm, hq, ?_⟩
        rwa [← heq, add_right_comm] at hhigh
      · exact .inl (by omega)

/-- Below a power of two, half units of the last place count. -/
theorem RoundsTo.half_units (h : RoundsTo v 0x10000000000000 q) (hq : -1074 < q)
    (hless : v < 2 ^ (52 + q)) :
    2 ^ 53 - 1 / 2 ≤ v / 2 ^ (q - 1) ∧ v / 2 ^ (q - 1) < 2 ^ 53 := by
  have hpow : (2 : ℚ) ^ q = 2 * 2 ^ (q - 1) := by
    rw [zpow_sub_one₀ two_ne_zero]
    ring
  have hpos : (0 : ℚ) < 2 ^ (q - 1) := by positivity
  have hlow := h.low_le
  have hreach : reach 0x10000000000000 q = 1 / 4 := if_pos ⟨rfl, hq⟩
  rw [hreach, hpow] at hlow
  rw [zpow_add₀ two_ne_zero, hpow] at hless
  norm_num at hlow hless
  constructor
  · rw [le_div_iff₀ hpos]
    linarith
  · rw [div_lt_iff₀ hpos]
    linarith

/-- What is cut off further, down to the exponent that rounding aims at. -/
theorem Truncates.exists_shiftToTargetExponent {n : Nat} {accuracy : UnpackedFloat.Accuracy} {w : ℚ}
    {e t : Int} (h : Truncates (.ofMantissaAndAccuracy n accuracy) w)
    (ht : Format.binary64.targetExponent (totalExponent n e) = t) (he : e ≤ t) :
    ∃ em, UnpackedFloat.shiftToTargetExponent .binary64 n e accuracy = (em, t) ∧
      Truncates em (w * 2 ^ e / 2 ^ t) := by
  have hend : e + ((t - e).toNat : Int) = t := by omega
  have hpow : (2 : ℚ) ^ t = 2 ^ e * 2 ^ (t - e).toNat := by
    rw [← zpow_natCast, ← zpow_add₀ two_ne_zero, hend]
  refine ⟨UnpackedFloat.ExtendedMantissa.ofMantissaAndAccuracy n accuracy >>> (t - e).toNat,
    ?_, ?_⟩
  · unfold UnpackedFloat.shiftToTargetExponent UnpackedFloat.shiftToExponent
    dsimp only
    rw [ht, hend]
  · rw [hpow, mul_comm w, mul_div_mul_left _ _ (by positivity)]
    exact h.shiftRight (t - e).toNat

/-- **The nearest double is found.** A number that is cut off far enough is rounded to the double
that it rounds to. -/
theorem roundWithAccuracy_of_roundsTo (s : UnpackedFloat.Sign) {n : Nat}
    {accuracy : UnpackedFloat.Accuracy} {w : ℚ} {e : Int}
    (h : Truncates (.ofMantissaAndAccuracy n accuracy) w)
    (he : e ≤ Format.binary64.targetExponent (totalExponent n e))
    (hm : 0 < m) (hc : Canonical m q) (hv : RoundsTo (w * 2 ^ e) m q) :
    UnpackedFloat.roundWithAccuracy .binary64 s n e accuracy = .finite s m q hm := by
  obtain ⟨em, hshift, htruncates⟩ := h.exists_shiftToTargetExponent rfl he
  -- in units of the target, which are the last places of the double or half of them
  have hrounded : ∃ k : Nat, em.roundedMantissa = m * 2 ^ k ∧
      Format.binary64.targetExponent (totalExponent n e) = q - k := by
    rcases targetExponent_of_roundsTo h he hv hc with ht | ⟨ht, rfl, hq, hless⟩ <;>
      rw [ht] at htruncates
    · obtain ⟨hlow, hhigh, hodd⟩ := hv.units
      refine ⟨0, ?_, by rw [ht, Nat.cast_zero, sub_zero]⟩
      rw [pow_zero, mul_one]
      exact htruncates.roundedMantissa_eq hlow hhigh hodd
    · obtain ⟨hlow, hhigh⟩ := hv.half_units hq hless
      refine ⟨1, ?_, by rw [ht, Nat.cast_one]⟩
      refine htruncates.roundedMantissa_eq ?_ ?_ fun hodd => absurd hodd (by decide)
      · exact_mod_cast hlow
      · norm_num
        linarith
  obtain ⟨k, hrounded, ht⟩ := hrounded
  have hagain := shiftToTargetExponent_eq hm hc k
  rw [ht] at hshift
  unfold UnpackedFloat.roundWithAccuracy
  rw [hshift]
  dsimp only
  simp only [hrounded, hagain]
  exact dif_neg hm.ne'

/-! ### Quotients -/

/-- A quotient is cut off far enough. -/
theorem le_targetExponent_of_quotient {a b : Nat} {e₁ e₂ t : Int} (ha : 0 < a) (hb : 0 < b)
    (hle : t ≤ e₁ - e₂)
    (ht : t ≤ Format.binary64.targetExponent (totalExponent a e₁ - totalExponent b e₂)) :
    t ≤ Format.binary64.targetExponent
      (totalExponent (a * 2 ^ (e₁ - e₂ - t).toNat / b) t) := by
  rw [targetExponent_eq] at ht ⊢
  unfold totalExponent at ht ⊢
  rcases le_total t (-1074) with hleast | hmore
  · exact hleast.trans (le_max_right _ _)
  rcases hmore.eq_or_lt with rfl | hmore
  · exact le_max_right _ _
  -- there is room for the bits of the divisor and 53 more
  have hbits : b.log2 + 53 ≤ a.log2 + (e₁ - e₂ - t).toNat := by omega
  have hquotient : 2 ^ 52 ≤ a * 2 ^ (e₁ - e₂ - t).toNat / b := by
    rw [Nat.le_div_iff_mul_le hb]
    calc 2 ^ 52 * b ≤ 2 ^ 52 * 2 ^ (b.log2 + 1) := by gcongr; exact Nat.lt_log2_self.le
      _ = 2 ^ (b.log2 + 53) := by ring
      _ ≤ 2 ^ (a.log2 + (e₁ - e₂ - t).toNat) := Nat.pow_le_pow_right two_pos hbits
      _ = 2 ^ a.log2 * 2 ^ (e₁ - e₂ - t).toNat := Nat.pow_add ..
      _ ≤ a * 2 ^ (e₁ - e₂ - t).toNat := by gcongr; exact Nat.log2_self_le ha.ne'
  have hlog := (Nat.le_log2 (by omega)).mpr hquotient
  omega

/-- **A quotient is the nearest double.** -/
theorem div_of_roundsTo (s₁ s₂ : UnpackedFloat.Sign) {a b : Nat} {e₁ e₂ : Int} (ha : 0 < a)
    (hb : 0 < b) (hm : 0 < m) (hc : Canonical m q)
    (hv : RoundsTo (a * 2 ^ e₁ / (b * 2 ^ e₂)) m q) :
    UnpackedFloat.div .binary64 (.finite s₁ a e₁ ha) (.finite s₂ b e₂ hb) =
      .finite (s₁ / s₂) m q hm := by
  set t := min (e₁ - e₂)
    (Format.binary64.targetExponent (totalExponent a e₁ - totalExponent b e₂)) with ht
  have hdiv : UnpackedFloat.div .binary64 (.finite s₁ a e₁ ha) (.finite s₂ b e₂ hb) =
      UnpackedFloat.roundWithAccuracy .binary64 (s₁ / s₂) (a <<< (e₁ - e₂ - t).toNat / b) t
        (UnpackedFloat.accuracyOfFraction (a <<< (e₁ - e₂ - t).toNat % b) b) := rfl
  rw [hdiv, Nat.shiftLeft_eq]
  refine roundWithAccuracy_of_roundsTo _ (.of_fraction _ hb)
    (le_targetExponent_of_quotient ha hb (min_le_left _ _) (min_le_right _ _)) hm hc ?_
  convert hv using 1
  have hexponent : ((e₁ - e₂ - t).toNat : Int) + t = e₁ - e₂ := by
    have hle : t ≤ e₁ - e₂ := min_le_left _ _
    omega
  have hpow : (2 : ℚ) ^ (e₁ - e₂ - t).toNat * 2 ^ t = 2 ^ e₁ / 2 ^ e₂ := by
    rw [← zpow_natCast, ← zpow_add₀ two_ne_zero, hexponent, zpow_sub₀ two_ne_zero]
  push_cast
  rw [div_mul_eq_mul_div, mul_assoc, hpow, mul_div_assoc', div_div, mul_comm (2 ^ e₂ : ℚ)]

/-- A number rounds to one double only. -/
theorem RoundsTo.unique {m' : Nat} {q' : Int} (h : RoundsTo v m q) (h' : RoundsTo v m' q')
    (hm : 0 < m) (hm' : 0 < m') (hc : Canonical m q) (hc' : Canonical m' q') :
    m = m' ∧ q = q' := by
  have hpos := h.pos hm
  have hfraction : (v.num.toNat * 2 ^ (0 : Int) / (v.den * 2 ^ (0 : Int)) : ℚ) = v := by
    have hnum : ((v.num.toNat : Int) : ℚ) = v.num := by
      rw [Int.toNat_of_nonneg (Rat.num_nonneg.mpr hpos.le)]
    rw [zpow_zero, mul_one, mul_one, ← Int.cast_natCast, hnum, Rat.num_div_den]
  have hnum : 0 < v.num.toNat := by
    have := Rat.num_pos.mpr hpos
    omega
  have hfirst := div_of_roundsTo .positive .positive hnum v.den_pos hm hc (hfraction ▸ h)
  have hsecond := div_of_roundsTo .positive .positive hnum v.den_pos hm' hc' (hfraction ▸ h')
  injection hfirst.symm.trans hsecond with _ hsignificand hexponent
  exact ⟨hsignificand, hexponent⟩

/-! ### Decimals -/

theorem unpack_of_ofFloat {x : Float} (hm : 0 < m) (hx : ofFloat x = .finite false m q) :
    x.toModel.unpack = .finite .positive m q hm := by
  rw [ofFloat_eq] at hx
  cases hu : x.toModel.unpack with
  | infinity | notANumber => rw [hu] at hx; cases hx
  | zero s =>
    rw [hu] at hx
    obtain ⟨-, rfl, -⟩ := Binary64.finite.inj hx
    exact absurd hm (lt_irrefl 0)
  | finite s a e ha =>
    rw [hu] at hx
    obtain ⟨hs, rfl, rfl⟩ := Binary64.finite.inj hx
    cases s with
    | negative => cases hs
    | positive => rfl

/-- A double is put together again from its parts. -/
theorem pack_of_ofFloat {x : Float} (hm : 0 < m) (hx : ofFloat x = .finite false m q) :
    Float.ofModel (Float.Model.pack (.finite .positive m q hm)) = x := by
  rw [← unpack_of_ofFloat hm hx]
  exact Float.ofBits_toBits x

/-- There is a double for every canonical significand, unless the exponent is too large. -/
theorem exists_ofFloat_eq (hc : Canonical m q) (hq : q ≤ 971) :
    ∃ x, ofFloat x = .finite false m q := by
  obtain ⟨hbits, hleast, hfirst⟩ := hc
  have hofNat {D fraction : Nat} (hD : D < 2047) (hfraction : fraction < 0x10000000000000) :
      (UInt64.ofNat (0x10000000000000 * D + fraction)).toNat = 0x10000000000000 * D + fraction :=
    UInt64.toNat_ofNat_of_lt' (by unfold UInt64.size; omega)
  rcases lt_or_ge m 0x10000000000000 with hsmall | hlarge
  · obtain rfl : q = -1074 := hfirst.resolve_left (by omega)
    refine ⟨Float.ofBits (UInt64.ofNat (0x10000000000000 * 0 + m)), ?_⟩
    rw [ofFloat_ofBits, ofBits_of_fields (hofNat (by decide) hsmall) hsmall (by decide)]
    rfl
  · -- the exponent is stored with its bias, and the first bit of the significand is not
    obtain ⟨D, hD⟩ := Int.eq_ofNat_of_zero_le (show 0 ≤ q + 1075 by omega)
    have hrest : m - 0x10000000000000 < 0x10000000000000 := by omega
    refine ⟨Float.ofBits (UInt64.ofNat (0x10000000000000 * D + (m - 0x10000000000000))), ?_⟩
    have hmod : D % 2048 = D := Nat.mod_eq_of_lt (by omega)
    have hsign : (D / 2048 == 1) = false := by
      rw [Nat.div_eq_of_lt (by omega)]
      rfl
    rw [ofFloat_ofBits, ofBits_of_fields (hofNat (by omega) hrest) hrest (by omega), hmod, hsign,
      if_neg (by omega), Nat.add_sub_of_le hlarge, show ((D : Int) - 1075) = q by omega]

theorem div_eq_of_roundsTo {x y z : Float} {a b : Nat} {e₁ e₂ : Int}
    (hx : ofFloat x = .finite false a e₁) (hy : ofFloat y = .finite false b e₂)
    (hz : ofFloat z = .finite false m q) (ha : 0 < a) (hb : 0 < b) (hm : 0 < m)
    (hv : RoundsTo (a * 2 ^ e₁ / (b * 2 ^ e₂)) m q) : x / y = z := by
  have hdiv : x / y = .ofModel (Float.Model.pack
      (UnpackedFloat.div .binary64 x.toModel.unpack y.toModel.unpack)) := rfl
  rw [hdiv, unpack_of_ofFloat ha hx, unpack_of_ofFloat hb hy,
    div_of_roundsTo .positive .positive ha hb hm (canonical_of_ofBits hz) hv]
  exact pack_of_ofFloat hm hz

/-- An integer below `2 ^ 53` is a double. -/
theorem ofFloat_toFloat {n : Nat} (hn : 0 < n) (hbound : n < 2 ^ 53) :
    ∃ a e, ofFloat n.toUInt64.toFloat = .finite false a e ∧ 0 < a ∧ (a * 2 ^ e : ℚ) = n := by
  have hlog : n.log2 ≤ 52 := Nat.le_of_lt_succ ((Nat.log2_lt hn.ne').mpr hbound)
  have hlow : 2 ^ 52 ≤ n * 2 ^ (52 - n.log2) :=
    calc 2 ^ 52 = 2 ^ n.log2 * 2 ^ (52 - n.log2) := by rw [← Nat.pow_add]; congr 1; omega
      _ ≤ n * 2 ^ (52 - n.log2) := by gcongr; exact Nat.log2_self_le hn.ne'
  have hhigh : n * 2 ^ (52 - n.log2) < 2 ^ 53 :=
    calc n * 2 ^ (52 - n.log2) < 2 ^ (n.log2 + 1) * 2 ^ (52 - n.log2) := by
          gcongr; exact Nat.lt_log2_self
      _ = 2 ^ 53 := by rw [← Nat.pow_add]; congr 1; omega
  have hc : Canonical (n * 2 ^ (52 - n.log2)) (-(52 - n.log2 : Nat)) :=
    ⟨hhigh, by omega, .inl hlow⟩
  have hvalue : ((n * 2 ^ (52 - n.log2) : Nat) * 2 ^ (-((52 - n.log2 : Nat) : Int)) : ℚ) = n := by
    push_cast
    rw [zpow_neg, zpow_natCast, mul_assoc, mul_inv_cancel₀ (by positivity), mul_one]
  obtain ⟨x, hx⟩ := exists_ofFloat_eq hc (by omega)
  have hpos : 0 < n * 2 ^ (52 - n.log2) := by positivity
  have hfloat : n.toUInt64.toFloat = x := by
    have hmodel : n.toUInt64.toFloat = .ofModel (Float.Model.pack
        (UnpackedFloat.ofInt .binary64 n.toUInt64.toNat)) := rfl
    have hsize : n.toUInt64.toNat = n := UInt64.toNat_ofNat_of_lt' (by unfold UInt64.size; omega)
    rw [hmodel, hsize, ofInt_eq (s := .positive) hpos hc hvalue]
    exact pack_of_ofFloat hpos hx
  exact ⟨_, _, hfloat ▸ hx, hpos, hvalue⟩

/-- Whether a double denotes a given integer. -/
def isInteger (n : Nat) : Binary64 → Bool
  | .finite false m q =>
    if 0 ≤ q then m * Nat.pow 2 q.toNat == n else m == n * Nat.pow 2 (-q).toNat
  | _ => false

theorem exists_of_isInteger {n : Nat} {b : Binary64} (h : b.isInteger n = true) :
    ∃ a e, b = .finite false a e ∧ (a * 2 ^ e : ℚ) = n := by
  unfold isInteger at h
  split at h
  · rename_i a e
    refine ⟨a, e, rfl, ?_⟩
    split_ifs at h with he
    · obtain ⟨k, rfl⟩ := Int.eq_ofNat_of_zero_le he
      rw [zpow_natCast]
      exact_mod_cast eq_of_beq h
    · obtain ⟨k, rfl⟩ := Int.exists_eq_neg_ofNat (not_le.mp he).le
      have heq : (a : ℚ) = n * 2 ^ k := by
        have hnat := eq_of_beq h
        rw [neg_neg, Int.toNat_natCast] at hnat
        exact_mod_cast hnat
      rw [heq, zpow_neg, zpow_natCast, mul_assoc, mul_inv_cancel₀ (by positivity), mul_one]
  · cases h

theorem isInteger_powersOfTen :
    ∀ k : Fin Float.exactlyRepresentablePowersOfTen.size,
      (ofFloat Float.exactlyRepresentablePowersOfTen[k]).isInteger (10 ^ k.val) = true := by
  decide +kernel

/-- The least numbers that round to a double are not as small as that. -/
theorem RoundsTo.least (h : RoundsTo v m q) (hm : 0 < m) (hc : Canonical m q) :
    2 ^ (-1075 : Int) ≤ v := by
  have hone : (1 : ℚ) ≤ m := by exact_mod_cast hm
  have hreach := reach_le m q
  calc (2 : ℚ) ^ (-1075 : Int) = 1 / 2 * 2 ^ (-1074 : Int) := by
        rw [show (-1075 : Int) = -1074 - 1 by norm_num, zpow_sub_one₀ two_ne_zero]
        ring
    _ ≤ (m - reach m q) * 2 ^ q := by
        gcongr
        · linarith
        · linarith
        · norm_num
        · exact hc.2.1
    _ ≤ v := h.low_le

/-- A decimal that rounds to a positive double is not so small that it is taken for zero without
further ado. -/
theorem RoundsTo.places_le {n k : Nat} (h : RoundsTo (n / 10 ^ k) m q) (hm : 0 < m)
    (hc : Canonical m q) : k ≤ 2048 + n.log2 := by
  by_contra hmany
  have hn : (n : ℚ) < 2 ^ (n.log2 + 1) := by exact_mod_cast Nat.lt_log2_self (n := n)
  have hten : (2 : ℚ) ^ (3 * k) ≤ 10 ^ k := by
    rw [pow_mul]
    gcongr
    norm_num
  have hsmall : (n : ℚ) / 10 ^ k < 2 ^ (-1075 : Int) :=
    calc (n : ℚ) / 10 ^ k ≤ n / 2 ^ (3 * k) := by gcongr
      _ < 2 ^ (n.log2 + 1) / 2 ^ (3 * k) := by gcongr
      _ = 2 ^ ((n.log2 + 1 : Nat) - (3 * k : Nat) : Int) := by
        rw [zpow_sub₀ two_ne_zero, zpow_natCast, zpow_natCast]
      _ ≤ 2 ^ (-1075 : Int) := by
        gcongr
        · norm_num
        · omega
  exact absurd (h.least hm hc) (not_le.mpr hsmall)

theorem unpacked_ofScientific {n k : Nat} (hk : 0 < k) (hn : 0 < n) (hm : 0 < m)
    (hc : Canonical m q) (hv : RoundsTo (n / 10 ^ k) m q) :
    UnpackedFloat.ofScientific .binary64 n (-(k : Int)) = .finite .positive m q hm := by
  have hplaces := hv.places_le hm hc
  have hbits : (2 : Int) ^ Format.binary64.exponentBits = 2048 := rfl
  unfold UnpackedFloat.ofScientific
  rw [dif_neg hn.ne', hbits, if_neg (by omega), if_neg (by omega), if_neg (by omega)]
  refine div_of_roundsTo .positive .positive hn _ hm hc ?_
  rw [neg_neg, Int.toNat_natCast, zpow_zero, mul_one, mul_one]
  exact_mod_cast hv

/-- **A decimal is read as the nearest double.** -/
theorem ofScientific_of_roundsTo {x : Float} {n k : Nat} (hk : 0 < k) (hm : 0 < m)
    (hx : ofFloat x = .finite false m q) (hv : RoundsTo (n / 10 ^ k) m q) :
    Float.ofScientific n true k = x := by
  have hn : 0 < n := by
    rcases Nat.eq_zero_or_pos n with rfl | hn
    · have hpos := hv.pos hm
      simp at hpos
    · exact hn
  unfold Float.ofScientific
  split
  · -- few digits: an integer divided by a power of ten, both of which are doubles
    rename_i hfew
    have hsize : k < Float.exactlyRepresentablePowersOfTen.size := Nat.lt_succ_of_le hfew.2
    obtain ⟨a, e₁, hint, ha, hvalue⟩ := ofFloat_toFloat hn hfew.1
    obtain ⟨b, e₂, hten, hpower⟩ := exists_of_isInteger (isInteger_powersOfTen ⟨k, hsize⟩)
    have hb : 0 < b := by
      rcases Nat.eq_zero_or_pos b with rfl | hb
      · push_cast at hpower
        rw [zero_mul] at hpower
        exact absurd hpower.symm (by positivity)
      · exact hb
    refine div_eq_of_roundsTo hint hten hx ha hb hm ?_
    rw [hvalue, hpower]
    exact_mod_cast hv
  · have hmodel : Float.ofModel (Float.Model.ofScientific n (Int.negOfNat k)) =
        .ofModel (Float.Model.pack (UnpackedFloat.ofScientific .binary64 n (-(k : Int)))) := by
      rw [Int.negOfNat_eq]
      rfl
    refine hmodel.trans ?_
    rw [unpacked_ofScientific hk hn hm (canonical_of_ofBits hx) hv]
    exact pack_of_ofFloat hm hx

end Rounding

end Binary64

end Reckon
