import Reckon.Decimal.Shortest
import Reckon.Proofs.Decimal.Nearest

/-!
# Shortest decimals round to their doubles

`Decimal.shortest` looks for a decimal in the interval of the numbers that round to a double, on one
grid after another. The interval is that of `Binary64.RoundsTo` (`contains_interval_iff`), so what
is found there rounds to the double. And something is found: a grid whose step is less than the
width of the interval has a point in it next to the double (`exists_onGrid`), and the step of the
seventeenth grid is less than that, because a double has fewer than `10 ^ 16` units of its last
place (`step_lt`).

Taking zeros off the coefficient does not change the number, so the shortest decimal rounds to its
double (`roundsTo_shortest`).
-/

namespace Reckon

open Binary64

namespace Decimal

/-- The number that a decimal denotes. -/
def value (x : Decimal) : ℚ := x.coefficient * 10 ^ x.exponent

/-- Zeros at the end of the coefficient do not count. -/
theorem value_normalize (fuel : Nat) (x : Decimal) : (normalize fuel x).value = x.value := by
  induction fuel generalizing x with
  | zero => rfl
  | succ fuel ih =>
    rw [normalize]
    split
    · rename_i hzeros
      rw [Bool.and_eq_true, beq_iff_eq] at hzeros
      have hten : ((x.coefficient / 10 : Nat) : ℚ) * 10 = x.coefficient := by
        exact_mod_cast Nat.div_mul_cancel (Nat.dvd_of_mod_eq_zero hzeros.1)
      rw [ih, value, value, zpow_add_one₀ (by norm_num), mul_comm ((10 : ℚ) ^ _), ← mul_assoc,
        hten]
    · rfl

/-! ### The interval -/

section Interval

variable {m : Nat} {q : Int}

/-- A power is the quotient of two integers, one of which is one. -/
theorem scale_eq {b : Nat} (hb : 0 < b) (e : Int) :
    ((if 0 ≤ e then Nat.pow b e.toNat else 1 : Nat) : ℚ) =
      (b : ℚ) ^ e * (if 0 ≤ e then 1 else Nat.pow b (-e).toNat : Nat) := by
  have hb' : (b : ℚ) ≠ 0 := by exact_mod_cast hb.ne'
  split_ifs with he
  · obtain ⟨k, rfl⟩ := Int.eq_ofNat_of_zero_le he
    simp
  · obtain ⟨k, rfl⟩ := Int.exists_eq_neg_ofNat (not_le.mp he).le
    simp [hb']

theorem parts_pos {b : Nat} (hb : 0 < b) (e : Int) :
    0 < (if 0 ≤ e then 1 else Nat.pow b (-e).toNat) := by
  split
  · exact one_pos
  · exact Nat.pow_pos hb

theorem denominator_pos (m : Nat) (q : Int) : 0 < (interval m q).denominator :=
  Nat.mul_pos four_pos (parts_pos two_pos q)

theorem low_interval (hm : 0 < m) :
    ((interval m q).low : ℚ) = (m - reach m q) * 2 ^ q * (interval m q).denominator := by
  have hbelow : ((if m == 0x10000000000000 && -1074 < q then 1 else 2 : Nat) : ℚ) =
      4 * reach m q := by
    unfold reach
    simp only [Bool.and_eq_true, beq_iff_eq, decide_eq_true_eq]
    split_ifs <;> norm_num
  have hle : (if m == 0x10000000000000 && -1074 < q then 1 else 2) ≤ 4 * m := by
    split <;> omega
  unfold interval
  dsimp only
  rw [Nat.cast_mul, Nat.cast_sub hle, hbelow, scale_eq two_pos]
  push_cast
  ring

theorem value_interval (m : Nat) (q : Int) :
    ((interval m q).value : ℚ) = m * 2 ^ q * (interval m q).denominator := by
  unfold interval
  dsimp only
  rw [Nat.cast_mul, scale_eq two_pos]
  push_cast
  ring

theorem high_interval (m : Nat) (q : Int) :
    ((interval m q).high : ℚ) = (m + 1 / 2) * 2 ^ q * (interval m q).denominator := by
  unfold interval
  dsimp only
  rw [Nat.cast_mul, scale_eq two_pos]
  push_cast
  ring

/-- Fractions are compared by what is left of them without their denominators. -/
theorem cross_iff {a n d c : Nat} {v : ℚ} (ha : (a : ℚ) = v * c) (hd : 0 < d) (hc : 0 < c) :
    ((a * d < n * c ↔ v < n / d) ∧ (a * d = n * c ↔ v = n / d)) ∧
      (n * c < a * d ↔ n / d < v) ∧ (n * c = a * d ↔ n / d = v) := by
  have hdpos : (0 : ℚ) < d := by exact_mod_cast hd
  have hcpos : (0 : ℚ) < c := by exact_mod_cast hc
  have hleft : ((a * d : Nat) : ℚ) = v * d * c := by
    rw [Nat.cast_mul, ha]
    ring
  rw [lt_div_iff₀ hdpos, div_lt_iff₀ hdpos, eq_div_iff hdpos.ne', div_eq_iff hdpos.ne',
    ← mul_lt_mul_iff_left₀ hcpos, ← mul_lt_mul_iff_left₀ hcpos (b := (n : ℚ)),
    ← mul_left_inj' hcpos.ne', ← mul_left_inj' hcpos.ne' (a := (n : ℚ)), ← hleft,
    ← Nat.cast_mul, Nat.cast_lt, Nat.cast_lt, Nat.cast_inj, Nat.cast_inj]
  exact ⟨⟨Iff.rfl, Iff.rfl⟩, Iff.rfl, Iff.rfl⟩

/-- **The interval holds the numbers that round to the double.** -/
theorem contains_interval_iff (hm : 0 < m) (n : Nat) {d : Nat} (hd : 0 < d) :
    (interval m q).contains n d = true ↔ RoundsTo (n / d) m q := by
  obtain ⟨⟨hlow, hlow'⟩, -⟩ :=
    cross_iff (n := n) (low_interval (q := q) hm) hd (denominator_pos m q)
  obtain ⟨-, hhigh, hhigh'⟩ := cross_iff (n := n) (high_interval m q) hd (denominator_pos m q)
  have hclosed : (interval m q).closed = true ↔ m % 2 = 0 := beq_iff_eq
  unfold Interval.contains
  simp only [Bool.and_eq_true, Bool.or_eq_true, decide_eq_true_eq, beq_iff_eq, hclosed, hlow,
    hlow', hhigh, hhigh']
  exact ⟨fun h => ⟨h.1, h.2⟩, fun h => ⟨h.low, h.high⟩⟩

/-! ### One grid -/

/-- Whether a multiple of `10 ^ e` is in the interval. -/
def Interval.hasPoint (i : Interval) (e : Int) (n : Nat) : Bool :=
  i.contains (n * if 0 ≤ e then Nat.pow 10 e.toNat else 1)
    (if 0 ≤ e then 1 else Nat.pow 10 (-e).toNat)

/-- The last multiple of `10 ^ e` up to the value. -/
def Interval.pointBelow (i : Interval) (e : Int) : Nat :=
  i.value * (if 0 ≤ e then 1 else Nat.pow 10 (-e).toNat) /
    (i.denominator * if 0 ≤ e then Nat.pow 10 e.toNat else 1)

/-- What is found on a grid is in the interval, and nothing is found only if neither neighbour of
the value is. -/
theorem onGrid_cases (i : Interval) (e : Int) :
    (∃ n, i.onGrid e = some n ∧ i.hasPoint e n = true) ∨
      i.onGrid e = none ∧ i.hasPoint e (i.pointBelow e) = false ∧
        i.hasPoint e (i.pointBelow e + 1) = false := by
  have hgrid : ∃ nearer : Bool, i.onGrid e =
      if i.hasPoint e (i.pointBelow e) && i.hasPoint e (i.pointBelow e + 1) then
        if nearer then some (i.pointBelow e) else some (i.pointBelow e + 1)
      else if i.hasPoint e (i.pointBelow e) then some (i.pointBelow e)
      else if i.hasPoint e (i.pointBelow e + 1) then some (i.pointBelow e + 1)
      else none := ⟨_, rfl⟩
  obtain ⟨nearer, hgrid⟩ := hgrid
  rw [hgrid]
  cases hbelow : i.hasPoint e (i.pointBelow e) <;>
    cases habove : i.hasPoint e (i.pointBelow e + 1)
  · exact .inr ⟨rfl, rfl, rfl⟩
  · exact .inl ⟨_, rfl, habove⟩
  · exact .inl ⟨_, rfl, hbelow⟩
  · cases nearer
    · exact .inl ⟨_, rfl, habove⟩
    · exact .inl ⟨_, rfl, hbelow⟩

theorem hasPoint_iff (hm : 0 < m) (e : Int) (n : Nat) :
    (interval m q).hasPoint e n = true ↔ RoundsTo (n * 10 ^ e) m q := by
  have hparts : (0 : ℚ) < (if 0 ≤ e then 1 else Nat.pow 10 (-e).toNat : Nat) := by
    exact_mod_cast parts_pos (by norm_num : 0 < 10) e
  rw [Interval.hasPoint, contains_interval_iff hm _ (parts_pos (by norm_num) e), Nat.cast_mul,
    scale_eq (by norm_num : 0 < 10), ← mul_assoc, mul_div_assoc, div_self hparts.ne', mul_one]
  rfl

/-- What is found on a grid rounds to the double, also without the zeros at its end. -/
theorem roundsTo_of_onGrid (hm : 0 < m) {e : Int} {n fuel : Nat}
    (h : (interval m q).onGrid e = some n) : RoundsTo (normalize fuel ⟨n, e⟩).value m q := by
  rw [value_normalize]
  rcases onGrid_cases (interval m q) e with ⟨n', hn', hpoint⟩ | ⟨hnone, -⟩
  · obtain rfl := Option.some.inj (hn'.symm.trans h)
    exact (hasPoint_iff hm e _).mp hpoint
  · cases hnone.symm.trans h

/-- The value lies between two neighbours on a grid. -/
theorem pointBelow_bounds (m : Nat) (q e : Int) :
    ((interval m q).pointBelow e * 10 ^ e : ℚ) ≤ m * 2 ^ q ∧
      (m * 2 ^ q : ℚ) < ((interval m q).pointBelow e + 1 : Nat) * 10 ^ e := by
  have hparts := parts_pos (by norm_num : 0 < 10) e
  have hscale := scale_eq (by norm_num : 0 < 10) e
  unfold Interval.pointBelow
  generalize (if 0 ≤ e then Nat.pow 10 e.toNat else 1) = up at hscale ⊢
  generalize (if 0 ≤ e then 1 else Nat.pow 10 (-e).toNat) = down at hparts hscale ⊢
  have hcommon : (0 : ℚ) < (interval m q).denominator * down := by
    exact_mod_cast Nat.mul_pos (denominator_pos m q) hparts
  have hnum : (((interval m q).value * down : Nat) : ℚ) =
      m * 2 ^ q * ((interval m q).denominator * down) := by
    rw [Nat.cast_mul, value_interval, mul_assoc]
  have hden : (((interval m q).denominator * up : Nat) : ℚ) =
      10 ^ e * ((interval m q).denominator * down) := by
    rw [Nat.cast_mul, hscale]
    push_cast
    ring
  have hpos : 0 < (interval m q).denominator * up := by
    have hcast : (0 : ℚ) < ((interval m q).denominator * up : Nat) := by
      rw [hden]
      positivity
    exact_mod_cast hcast
  generalize (interval m q).value * down = n at hnum ⊢
  generalize (interval m q).denominator * up = d at hden hpos ⊢
  have hle : ((n / d : Nat) : ℚ) * d ≤ n := by exact_mod_cast Nat.div_mul_le_self n d
  have hlt : (n : ℚ) < (n / d + 1 : Nat) * d := by
    rw [mul_comm]
    exact_mod_cast Nat.lt_mul_div_succ n hpos
  rw [hnum, hden, ← mul_assoc] at hle
  rw [hnum, hden, ← mul_assoc ((n / d + 1 : Nat) : ℚ)] at hlt
  exact ⟨(mul_le_mul_iff_left₀ hcommon).mp hle, (mul_lt_mul_iff_left₀ hcommon).mp hlt⟩

/-- A grid that is finer than the interval is wide has a point next to the double in it. -/
theorem roundsTo_neighbour {k : Nat} {step : ℚ} (hlow : k * step ≤ m * 2 ^ q)
    (hhigh : m * 2 ^ q < (k + 1 : Nat) * step) (hstep : step < (1 / 2 + reach m q) * 2 ^ q) :
    RoundsTo (k * step) m q ∨ RoundsTo ((k + 1 : Nat) * step) m q := by
  have hpow : (0 : ℚ) < 2 ^ q := by positivity
  have hreach := reach_pos m q
  by_contra hnone
  rw [not_or] at hnone
  obtain ⟨hbelow, habove⟩ := hnone
  -- the point below can only be too low, and the point above only too high
  have htooLow : k * step ≤ (m - reach m q) * 2 ^ q := by
    by_contra hlt
    refine hbelow ⟨.inl (not_le.mp hlt), .inl (hlow.trans_lt ?_)⟩
    gcongr
    linarith
  have htooHigh : (m + 1 / 2) * 2 ^ q ≤ (k + 1 : Nat) * step := by
    by_contra hlt
    refine habove ⟨.inl (lt_trans ?_ hhigh), .inl (not_le.mp hlt)⟩
    gcongr
    linarith
  push_cast at htooHigh
  linarith

/-- **Something is found on a fine grid.** -/
theorem exists_onGrid (hm : 0 < m) {e : Int} (hstep : (10 : ℚ) ^ e < (1 / 2 + reach m q) * 2 ^ q) :
    ∃ n, (interval m q).onGrid e = some n := by
  rcases onGrid_cases (interval m q) e with ⟨n, hn, -⟩ | ⟨-, hbelow, habove⟩
  · exact ⟨n, hn⟩
  · obtain ⟨hlow, hhigh⟩ := pointBelow_bounds m q e
    rw [← Bool.not_eq_true, hasPoint_iff hm] at hbelow habove
    rcases roundsTo_neighbour hlow hhigh hstep with h | h
    · exact absurd h hbelow
    · exact absurd h habove

/-! ### The search -/

/-- A search that comes to a grid on which something is found ends with a decimal that rounds to
the double. -/
theorem roundsTo_search (hm : 0 < m) {lead : Int} {fuel digits : Nat}
    (hlast : ∃ n, (interval m q).onGrid (lead - (digits + fuel : Nat)) = some n) :
    RoundsTo ((interval m q).search lead (fuel + 1) digits).value m q := by
  induction fuel generalizing digits with
  | zero =>
    obtain ⟨n, hn⟩ := hlast
    rw [Nat.add_zero] at hn
    rw [Interval.search, hn]
    exact roundsTo_of_onGrid hm hn
  | succ fuel ih =>
    rw [Interval.search]
    split
    · rename_i n hn
      exact roundsTo_of_onGrid hm hn
    · refine ih ?_
      rwa [Nat.add_right_comm]

/-- A number has as many digits as there are powers of ten below it. -/
theorem ten_pow_le {n : Nat} (hn : 0 < n) : 10 ^ ((Nat.toDigits 10 n).length - 1) ≤ n := by
  by_contra hlt
  have hpos : 0 < (Nat.toDigits 10 n).length := Nat.length_toDigits_pos
  rcases Nat.eq_zero_or_pos ((Nat.toDigits 10 n).length - 1) with hone | hmore
  · rw [hone, pow_zero] at hlt
    omega
  · have hle := (Nat.length_toDigits_le_iff (by norm_num) hmore).mpr (not_le.mp hlt)
    omega

/-- The first digit of a fraction is looked for `p` places further up. -/
theorem ten_zpow_le {n d p : Nat} (hd : 0 < d) (hleast : d ≤ n * Nat.pow 10 p) :
    (10 : ℚ) ^ (((Nat.toDigits 10 (n * Nat.pow 10 p / d)).length : Int) - (p + 1 : Nat)) ≤
      n / d := by
  have hdpos : (0 : ℚ) < d := by exact_mod_cast hd
  have hlen : 0 < (Nat.toDigits 10 (n * Nat.pow 10 p / d)).length := Nat.length_toDigits_pos
  have hexponent : ((Nat.toDigits 10 (n * Nat.pow 10 p / d)).length : Int) - (p + 1 : Nat) =
      ((Nat.toDigits 10 (n * Nat.pow 10 p / d)).length - 1 : Nat) - p := by omega
  have hquotient : ((n * Nat.pow 10 p / d : Nat) : ℚ) ≤ n * 10 ^ p / d := by
    exact_mod_cast Nat.cast_div_le (α := ℚ) (m := n * Nat.pow 10 p) (n := d)
  rw [hexponent, zpow_sub₀ (by norm_num), zpow_natCast, zpow_natCast, div_le_iff₀ (by positivity),
    div_mul_eq_mul_div]
  refine le_trans ?_ hquotient
  exact_mod_cast ten_pow_le (Nat.div_pos hleast hd)

/-- The first digit of a double is looked for far enough up. -/
theorem exists_leadingExponent_eq :
    ∃ p : Nat, 358 ≤ p ∧ ∀ n d : Nat, leadingExponent n d =
      ((Nat.toDigits 10 (n * Nat.pow 10 p / d)).length : Int) - (p + 1 : Nat) := by
  refine ⟨400, by decide, fun n d => ?_⟩
  -- as a variable, so that the power is not computed
  generalize hp : 400 = p
  rw [leadingExponent, hp]
  omega

/-- No double is so small that its first digit would be missed. -/
theorem denominator_le (hm : 0 < m) (hc : Canonical m q) {p : Nat} (hp : 358 ≤ p) :
    (interval m q).denominator ≤ (interval m q).value * Nat.pow 10 p := by
  have hone : (1 : ℚ) ≤ m := by exact_mod_cast hm
  have hlarge : (1 : ℚ) ≤ m * 2 ^ q * 10 ^ p :=
    calc (1 : ℚ) = 2 ^ (-1074 : Int) * 2 ^ (1074 : Int) := by
          rw [← zpow_add₀ two_ne_zero]
          norm_num
      _ ≤ 2 ^ q * 2 ^ (3 * p : Nat) := by
          rw [← zpow_natCast]
          gcongr
          · norm_num
          · exact hc.2.1
          · norm_num
          · omega
      _ ≤ 2 ^ q * 10 ^ p := by
          rw [pow_mul]
          gcongr
          norm_num
      _ ≤ m * 2 ^ q * 10 ^ p := by
          rw [mul_assoc]
          exact le_mul_of_one_le_left (by positivity) hone
  have hcast : ((interval m q).denominator : ℚ) ≤
      ((interval m q).value : ℚ) * 10 ^ p := by
    rw [value_interval, mul_right_comm]
    exact le_mul_of_one_le_left (Nat.cast_nonneg _) hlarge
  exact_mod_cast hcast

/-- Seventeen digits are finer than a double. -/
theorem step_lt (hc : Canonical m q) {lead : Int} (hlead : (10 : ℚ) ^ lead ≤ m * 2 ^ q) :
    (10 : ℚ) ^ (lead - 16) < (1 / 2 + reach m q) * 2 ^ q := by
  have hpow : (0 : ℚ) < 2 ^ q := by positivity
  have hfine : (m : ℚ) < (1 / 2 + reach m q) * 10 ^ 16 := by
    unfold reach
    split_ifs with hpower
    · rw [hpower.1]
      norm_num
    · have hbits : (m : ℚ) < 2 ^ 53 := by exact_mod_cast hc.1
      norm_num at hbits ⊢
      linarith
  calc (10 : ℚ) ^ (lead - 16) = 10 ^ lead / 10 ^ 16 := by
        rw [zpow_sub₀ (by norm_num)]
        norm_num
    _ ≤ m * 2 ^ q / 10 ^ 16 := by gcongr
    _ < (1 / 2 + reach m q) * 10 ^ 16 * 2 ^ q / 10 ^ 16 := by gcongr
    _ = (1 / 2 + reach m q) * 2 ^ q := by ring

/-- **The shortest decimal rounds to its double.** -/
theorem roundsTo_shortest (hm : 0 < m) (hc : Canonical m q) :
    RoundsTo (shortest m q).value m q := by
  have hdpos : (0 : ℚ) < (interval m q).denominator := by exact_mod_cast denominator_pos m q
  have hfraction : ((interval m q).value : ℚ) / (interval m q).denominator = m * 2 ^ q := by
    rw [value_interval, mul_div_assoc, div_self hdpos.ne', mul_one]
  obtain ⟨p, hp, hlead⟩ := exists_leadingExponent_eq
  have hfirst := ten_zpow_le (denominator_pos m q) (denominator_le hm hc hp)
  rw [← hlead, hfraction] at hfirst
  exact roundsTo_search hm (exists_onGrid hm (step_lt hc hfirst))

end Interval

end Decimal

end Reckon
