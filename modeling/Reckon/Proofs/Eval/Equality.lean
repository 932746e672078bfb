import Reckon.Eval.Arith
import Reckon.Proofs.Decimal.Integral

/-!
# What equal numbers are

Without tolerance, an integer and a float are compared by making the float an integer, after it has
passed as one: it is its own integer part, and within 64 bits. This misses nothing and admits
nothing else (`Number.isExactly_iff`), so equality is that of the rational numbers, extended by the
two infinities (`Number.equality_is_exact`). In particular it is transitive between integers and floats,
also where integers are too large to be floats.

With a positive tolerance, integers are made floats and the distance of the floats is compared with
it. Numbers that are equal as rational numbers have the distance zero, so they stay equal
(`Number.tolerance_keeps_finite_equality`). The distance of an infinity from itself is not a number,
so under a tolerance the infinities, which a product can overflow to, are no longer equal to
themselves (`Number.infinity_differs_from_itself`).
-/

namespace Reckon

namespace Number

/-! ### Integers and floats -/

theorem value_leastInteger :
    (Binary64.ofFloat leastInteger).value? = some ((-2 ^ 63 : ℤ) : ℚ) := by
  have h : Binary64.ofFloat leastInteger = .finite true 0x10000000000000 11 := by
    rw [leastInteger, Binary64.ofFloat_ofBits]
    decide
  rw [h]
  norm_num [Binary64.value?, Binary64.dyadic]

theorem value_integerBound :
    (Binary64.ofFloat integerBound).value? = some ((2 ^ 63 : ℤ) : ℚ) := by
  have h : Binary64.ofFloat integerBound = .finite false 0x10000000000000 11 := by
    rw [integerBound, Binary64.ofFloat_ofBits]
    decide
  rw [h]
  norm_num [Binary64.value?, Binary64.dyadic]

theorem isExactly_eq_true {n : Int64} {x : Float} :
    isExactly n x = true ↔ x.isNaN = false ∧ (x == Binary64.truncated x) = true ∧
      ¬ x < leastInteger ∧ ¬ integerBound ≤ x ∧ x.toModel.toInt64 = n := by
  simp [isExactly, bne, and_assoc]

/-- **An integer is exactly a float** if the float denotes it. -/
theorem isExactly_iff {n : Int64} {x : Float} :
    isExactly n x = true ↔ (Binary64.ofFloat x).value? = some (n.toInt : ℚ) := by
  rw [isExactly_eq_true]
  constructor
  · rintro ⟨hnan, hint, hlow, hhigh, rfl⟩
    cases hx : Binary64.ofFloat x with
    | nan => exact absurd (Binary64.isNaN_iff.mpr hx) (Bool.eq_false_iff.mp hnan)
    | infinite negative =>
      -- an infinity passes as an integer, but is beyond one of the bounds
      cases negative with
      | true => exact absurd (Binary64.lt_of_infinite hx value_leastInteger) hlow
      | false => exact absurd (Binary64.le_of_infinite value_integerBound hx) hhigh
    | finite negative m q =>
      rw [← hx]
      obtain ⟨v, hv⟩ : ∃ v, (Binary64.ofFloat x).value? = some v :=
        ⟨_, congrArg Binary64.value? hx⟩
      obtain ⟨z, rfl⟩ := (Binary64.beq_truncated_iff hv).mp hint
      rw [Binary64.lt_iff hv value_leastInteger, Int.cast_lt, not_lt] at hlow
      rw [Binary64.le_iff value_integerBound hv, Int.cast_le, not_le] at hhigh
      rw [Binary64.toInt_toInt64 hv hlow hhigh, hv]
  · intro hv
    have hlow : -2 ^ 63 ≤ n.toInt := n.minValue_le_toInt
    have hhigh : n.toInt < 2 ^ 63 := Int.lt_add_one_of_le n.toInt_le
    refine ⟨?_, (Binary64.beq_truncated_iff hv).mpr ⟨_, rfl⟩, ?_, ?_, ?_⟩
    · rw [Bool.eq_false_iff]
      intro hnan
      rw [Binary64.isNaN_iff.mp hnan] at hv
      cases hv
    · rwa [Binary64.lt_iff hv value_leastInteger, Int.cast_lt, not_lt]
    · rwa [Binary64.le_iff value_integerBound hv, Int.cast_le, not_le]
    · exact Int64.toInt.inj (Binary64.toInt_toInt64 hv hlow hhigh)

/-! ### Meanings of numbers -/

/-- The rational number that a number denotes, if it is finite. -/
def value? : Number → Option ℚ
  | int n => some n.toInt
  | float x => (Binary64.ofFloat x).value?

/-- The infinity of a sign. -/
def IsInfinity (negative : Bool) : Number → Prop
  | int _ => False
  | float x => Binary64.ofFloat x = .infinite negative

/-- What results from operations that have no result. -/
def IsNaN : Number → Prop
  | int _ => False
  | float x => Binary64.ofFloat x = .nan

/-- The same rational number, or the same infinity. -/
def Same (a b : Number) : Prop :=
  (∃ v, a.value? = some v ∧ b.value? = some v) ∨
    ∃ negative, a.IsInfinity negative ∧ b.IsInfinity negative

variable {a b c : Number}

theorem finite_or_infinite_or_nan (a : Number) :
    (∃ v, a.value? = some v) ∨ (∃ negative, a.IsInfinity negative) ∨ a.IsNaN := by
  cases a with
  | int n => exact .inl ⟨_, rfl⟩
  | float x =>
    cases hx : Binary64.ofFloat x with
    | finite negative m q => exact .inl ⟨_, congrArg Binary64.value? hx⟩
    | infinite negative => exact .inr (.inl ⟨_, hx⟩)
    | nan => exact .inr (.inr hx)

theorem IsInfinity.value?_eq_none {negative : Bool} (h : a.IsInfinity negative) :
    a.value? = none := by
  cases a with
  | int n => cases h
  | float x => exact congrArg Binary64.value? h

theorem IsInfinity.unique {p q : Bool} (hp : a.IsInfinity p) (hq : a.IsInfinity q) : p = q := by
  cases a with
  | int n => cases hp
  | float x => exact Binary64.infinite.inj (hp.symm.trans hq)

theorem IsNaN.value?_eq_none (h : a.IsNaN) : a.value? = none := by
  cases a with
  | int n => cases h
  | float x => exact congrArg Binary64.value? h

theorem IsNaN.not_isInfinity (h : a.IsNaN) (negative : Bool) : ¬ a.IsInfinity negative := by
  cases a with
  | int n => cases h
  | float x => exact fun hinfinite => nomatch hinfinite.symm.trans h

theorem isZero_iff : a.isZero = true ↔ a.value? = some 0 := by
  cases a with
  | int n =>
    have h : n.toInt = 0 ↔ n = 0 := Int64.toInt_inj (y := 0)
    simp [isZero, value?, h]
  | float x =>
    have hzero : Binary64.ofFloat 0 = .finite false 0 (-1074) := by decide
    unfold isZero value?
    rw [Binary64.beq_iff_same, hzero]
    simp [Binary64.value?]

namespace Same

theorem symm (h : Same a b) : Same b a :=
  h.imp (fun ⟨v, ha, hb⟩ => ⟨v, hb, ha⟩) fun ⟨negative, ha, hb⟩ => ⟨negative, hb, ha⟩

theorem trans (hab : Same a b) (hbc : Same b c) : Same a c := by
  rcases hab with ⟨v, ha, hb⟩ | ⟨negative, ha, hb⟩
  · rcases hbc with ⟨w, hb', hc⟩ | ⟨negative, hb', -⟩
    · exact .inl ⟨v, ha, hc.trans (hb'.symm.trans hb)⟩
    · cases hb.symm.trans hb'.value?_eq_none
  · rcases hbc with ⟨w, hb', -⟩ | ⟨negative', hb', hc⟩
    · cases hb'.symm.trans hb.value?_eq_none
    · exact .inr ⟨negative, ha, hb.unique hb' ▸ hc⟩

end Same

theorem IsNaN.not_same (h : a.IsNaN) : ¬ Same a b := by
  rintro (⟨v, ha, -⟩ | ⟨negative, ha, -⟩)
  · cases ha.symm.trans h.value?_eq_none
  · exact h.not_isInfinity negative ha

/-! ### Without tolerance -/

theorem exactlyEqual_iff : exactlyEqual a b = true ↔ Same a b := by
  cases a with
  | int n =>
    cases b with
    | int k =>
      simp only [exactlyEqual, Same, value?, IsInfinity, beq_iff_eq, ← Int64.toInt_inj]
      simpa using eq_comm
    | float y => simp [exactlyEqual, Same, value?, IsInfinity, isExactly_iff]
  | float x =>
    cases b with
    | int k => simp [exactlyEqual, Same, value?, IsInfinity, isExactly_iff]
    | float y => exact Binary64.beq_iff_same

theorem equal_of_no_tolerance {tolerance : Float} (h : ¬ 0 < tolerance) (a b : Number) :
    equal tolerance a b = exactlyEqual a b := by
  cases a <;> cases b <;> first | rfl | exact if_neg h

/-- **Equality without tolerance is that of the numbers.** Two numbers are equal if they denote the
same rational number or are the same infinity. So all zeros are equal, nothing is equal to NaN, and
on all other numbers equality is an equivalence. -/
theorem equality_is_exact {tolerance : Float} (h : ¬ 0 < tolerance) :
    (∀ a b : Number, equal tolerance a b = true ↔
        (∃ v, a.value? = some v ∧ b.value? = some v) ∨
          ∃ negative, a.IsInfinity negative ∧ b.IsInfinity negative) ∧
      (∀ a b : Number, a.isZero = true → b.isZero = true → equal tolerance a b = true) ∧
      (∀ a b : Number, a.IsNaN ∨ b.IsNaN → equal tolerance a b = false) ∧
      (∀ a : Number, ¬ a.IsNaN → equal tolerance a a = true) ∧
      (∀ a b : Number, equal tolerance a b = true → equal tolerance b a = true) ∧
      ∀ a b c : Number, equal tolerance a b = true → equal tolerance b c = true →
        equal tolerance a c = true := by
  have hsame (a b : Number) : equal tolerance a b = true ↔ Same a b := by
    rw [equal_of_no_tolerance h, exactlyEqual_iff]
  refine ⟨hsame, ?_, ?_, ?_, ?_, ?_⟩
  · intro a b ha hb
    exact (hsame a b).mpr (.inl ⟨0, isZero_iff.mp ha, isZero_iff.mp hb⟩)
  · rintro a b (ha | hb)
    · exact Bool.eq_false_iff.mpr fun heq => ha.not_same ((hsame a b).mp heq)
    · exact Bool.eq_false_iff.mpr fun heq => hb.not_same ((hsame a b).mp heq).symm
  · intro a hnan
    refine (hsame a a).mpr ?_
    rcases a.finite_or_infinite_or_nan with ⟨v, hv⟩ | ⟨negative, hinfinite⟩ | hnan'
    · exact .inl ⟨v, hv, hv⟩
    · exact .inr ⟨negative, hinfinite, hinfinite⟩
    · exact absurd hnan' hnan
  · intro a b hab
    exact (hsame b a).mpr ((hsame a b).mp hab).symm
  · intro a b c hab hbc
    exact (hsame a c).mpr (((hsame a b).mp hab).trans ((hsame b c).mp hbc))

/-- The integer after `2 ^ 53` has no double, so `2 ^ 53` is not equal to it, whereas the least
integer is a double, and the first double above all integers is equal to none of them. -/
theorem equality_is_exact_above_two_pow_53 :
    ¬ (0 : Float) < 0 ∧
      equal 0 (int 9007199254740993) (float (Float.ofBits 0x4340000000000000)) = false ∧
      equal 0 (float leastInteger) (int Int64.minValue) = true ∧
      equal 0 (int Int64.maxValue) (float integerBound) = false := by
  have h : ¬ (0 : Float) < 0 := by decide
  have hiff := (equality_is_exact h).1
  have hvalue : (float (Float.ofBits 0x4340000000000000)).value? = some (2 ^ 53) := by
    have hbits : Binary64.ofBits 0x4340000000000000 = .finite false 0x10000000000000 1 := by decide
    rw [value?, Binary64.ofFloat_ofBits, hbits]
    norm_num [Binary64.value?, Binary64.dyadic]
  have hnext : ((9007199254740993 : Int64).toInt : ℚ) ≠ 2 ^ 53 := by
    rw [show (9007199254740993 : Int64).toInt = 9007199254740993 by decide]
    norm_num
  have hgreatest : (Int64.maxValue.toInt : ℚ) ≠ ((2 ^ 63 : ℤ) : ℚ) := by
    rw [show Int64.maxValue.toInt = 2 ^ 63 - 1 by decide]
    norm_num
  refine ⟨h, Bool.eq_false_iff.mpr fun heq => ?_, (hiff _ _).mpr (.inl ?_),
    Bool.eq_false_iff.mpr fun heq => ?_⟩
  · rcases (hiff _ _).mp heq with ⟨v, ha, hb⟩ | ⟨negative, ha, -⟩
    · exact hnext (Option.some.inj (ha.trans (hb.symm.trans hvalue)))
    · exact ha
  · exact ⟨_, value_leastInteger, rfl⟩
  · rcases (hiff _ _).mp heq with ⟨v, ha, hb⟩ | ⟨negative, ha, -⟩
    · exact hgreatest (Option.some.inj (ha.trans (hb.symm.trans value_integerBound)))
    · exact ha

/-! ### With a tolerance -/

section Tolerance

variable {tolerance : Float}

/-- An integer that a float denotes is that number as a float, too. -/
theorem value_toFloat {n : Int64} {x : Float} (h : (float x).value? = (int n).value?) :
    (Binary64.ofFloat (int n).toFloat).value? = (int n).value? :=
  Binary64.value_ofInt h

theorem equal_of_value (h : 0 < tolerance) {v : ℚ} (ha : a.value? = some v)
    (hb : b.value? = some v) : equal tolerance a b = true := by
  have hclose (x y : Float) (hx : (Binary64.ofFloat x).value? = some v)
      (hy : (Binary64.ofFloat y).value? = some v) :
      (if 0 < tolerance then decide ((x - y).abs ≤ tolerance) else exactlyEqual a b) = true := by
    rw [if_pos h, Binary64.abs_sub_eq_zero hx hy]
    exact decide_eq_true (Binary64.le_of_lt h)
  cases a with
  | int n =>
    cases b with
    | int k => exact exactlyEqual_iff.mpr (.inl ⟨v, ha, hb⟩)
    | float y => exact hclose _ _ ((value_toFloat (hb.trans ha.symm)).trans ha) hb
  | float x =>
    cases b with
    | int k => exact hclose _ _ ha ((value_toFloat (ha.trans hb.symm)).trans hb)
    | float y => exact hclose _ _ ha hb

theorem equal_of_isInfinity (h : 0 < tolerance) {negative : Bool} (ha : a.IsInfinity negative)
    (hb : b.IsInfinity negative) : equal tolerance a b = false := by
  cases a with
  | int n => cases ha
  | float x =>
    cases b with
    | int k => cases hb
    | float y =>
      have hdistance := Binary64.not_abs_sub_le (t := tolerance) (Binary64.sub_of_infinite ha hb)
      exact (if_pos h).trans (decide_eq_false hdistance)

theorem equal_of_isNaN (h : 0 < tolerance) (ha : a.IsNaN) : equal tolerance a b = false := by
  cases a with
  | int n => cases ha
  | float x =>
    have hdistance (y : Float) : decide ((x - y).abs ≤ tolerance) = false :=
      decide_eq_false (Binary64.not_abs_sub_le (Binary64.sub_of_nan ha))
    cases b with
    | int k => exact (if_pos h).trans (hdistance _)
    | float y => exact (if_pos h).trans (hdistance _)

/-- **A tolerance keeps the equality of finite numbers, and of no others.** Numbers that are exactly
equal are equal up to a tolerance just if they are finite, and just the finite numbers are equal to
themselves. -/
theorem tolerance_keeps_finite_equality (h : 0 < tolerance) :
    (∀ a b : Number, equal 0 a b = true →
        (equal tolerance a b = true ↔ ∃ v, a.value? = some v)) ∧
      ∀ a : Number, equal tolerance a a = true ↔ ∃ v, a.value? = some v := by
  refine ⟨fun a b hab => ?_, fun a => ?_⟩
  · rw [equal_of_no_tolerance (by decide), exactlyEqual_iff] at hab
    rcases hab with ⟨v, ha, hb⟩ | ⟨negative, ha, hb⟩
    · exact iff_of_true (equal_of_value h ha hb) ⟨v, ha⟩
    · simp [equal_of_isInfinity h ha hb, ha.value?_eq_none]
  · rcases a.finite_or_infinite_or_nan with ⟨v, hv⟩ | ⟨negative, hinfinite⟩ | hnan
    · exact iff_of_true (equal_of_value h hv hv) ⟨v, hv⟩
    · simp [equal_of_isInfinity h hinfinite hinfinite, hinfinite.value?_eq_none]
    · simp [equal_of_isNaN h hnan, hnan.value?_eq_none]

end Tolerance

/-- The least integer is equal to its double also under the least tolerance. -/
theorem tolerance_keeps_least_integer :
    0 < Float.ofBits 1 ∧ equal 0 (int Int64.minValue) (float leastInteger) = true ∧
      equal (Float.ofBits 1) (int Int64.minValue) (float leastInteger) = true := by
  have hpos : 0 < Float.ofBits 1 := by decide
  have hexact : equal 0 (int Int64.minValue) (float leastInteger) = true := by decide
  exact ⟨hpos, hexact, ((tolerance_keeps_finite_equality hpos).1 _ _ hexact).mpr ⟨_, rfl⟩⟩

/-- The square of `2 ^ 600` overflows to an infinity, which is equal to itself only without
tolerance. -/
theorem infinity_differs_from_itself :
    let top := Float.ofBits 0x6570000000000000 * Float.ofBits 0x6570000000000000
    Binary64.ofFloat top = .infinite false ∧ 0 < (1 : Float) ∧
      equal 0 (float top) (float top) = true ∧ equal 1 (float top) (float top) = false := by
  decide

end Number

end Reckon
