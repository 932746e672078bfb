import Reckon.Proofs.Eval.Staging

/-!
# Integer arithmetic is exact or refused

Integers are computed in 64 bits and may wrap around, which is only noticed afterwards, by comparing
the result with the operands. The comparisons miss nothing and refuse nothing else: the result is
exact just where the exact result is an integer of 64 bits (`Number.wrappedSum_eq`,
`Number.wrappedDifference_eq`, `Number.wrappedProduct_eq`).

So a tree of integers under `+`, `-` and `*` is evaluated as over all integers.
`Expr.eval_exact_or_refused` says that its value is the exact one if the exact values of all its
parts have 64 bits, and that otherwise the evaluation ends with an overflow.
-/

namespace Reckon

/-- The integers of 64 bits. -/
def Fits (n : Int) : Prop := -0x8000000000000000 ≤ n ∧ n ≤ 0x7fffffffffffffff

instance (n : Int) : Decidable (Fits n) := inferInstanceAs (Decidable (_ ∧ _))

namespace Number

/-! ### Wrapping around -/

theorem fits_toInt (n : Int64) : Fits n.toInt :=
  ⟨n.le_toInt, Int.lt_add_one_iff.mp n.toInt_lt⟩

theorem toInt_ofInt_of_fits {n : Int} (h : Fits n) : (Int64.ofInt n).toInt = n :=
  Int64.toInt_ofInt_of_le h.1 (Int.lt_add_one_iff.mpr h.2)

/-- What is out of range by less than its length has wrapped around once. -/
theorem toInt_ofInt_cases {n : Int} (hlow : -0x10000000000000000 ≤ n)
    (hhigh : n < 0x10000000000000000) :
    (-0x8000000000000000 ≤ n ∧ n ≤ 0x7fffffffffffffff ∧ (Int64.ofInt n).toInt = n) ∨
      (0x7fffffffffffffff < n ∧ (Int64.ofInt n).toInt = n - 0x10000000000000000) ∨
      (n < -0x8000000000000000 ∧ (Int64.ofInt n).toInt = n + 0x10000000000000000) := by
  have hwrap : (Int64.ofInt n).toInt = n.bmod 0x10000000000000000 := Int64.toInt_ofInt
  rw [hwrap, Int.bmod_def]
  omega

variable (a b : Int64)

/-- **A sum is exact** if it is above its first summand just where the second one is positive. -/
theorem wrappedSum_eq :
    wrappedSum a b = (Int64.ofInt (a.toInt + b.toInt), decide (Fits (a.toInt + b.toInt))) := by
  have hsum : a + b = Int64.ofInt (a.toInt + b.toInt) := by
    rw [Int64.ofInt_add, Int64.ofInt_toInt, Int64.ofInt_toInt]
  have ha := fits_toInt a
  have hb := fits_toInt b
  have hzero : (0 : Int64).toInt = 0 := rfl
  rw [Fits] at ha hb
  rw [wrappedSum, hsum]
  refine Prod.ext rfl (Bool.eq_iff_iff.mpr ?_)
  -- a sum is out of range by less than its length, so there are three cases
  have hwrap := toInt_ofInt_cases (n := a.toInt + b.toInt) (by omega) (by omega)
  simp only [beq_iff_eq, decide_eq_decide, decide_eq_true_eq, Int64.lt_iff_toInt_lt, hzero]
  rw [Fits]
  omega

/-- **A difference is exact** if it is below the first number just where the second one is
positive. -/
theorem wrappedDifference_eq :
    wrappedDifference a b =
      (Int64.ofInt (a.toInt - b.toInt), decide (Fits (a.toInt - b.toInt))) := by
  have hdifference : a - b = Int64.ofInt (a.toInt - b.toInt) := by
    rw [Int64.ofInt_sub, Int64.ofInt_toInt, Int64.ofInt_toInt]
  have ha := fits_toInt a
  have hb := fits_toInt b
  have hzero : (0 : Int64).toInt = 0 := rfl
  rw [Fits] at ha hb
  rw [wrappedDifference, hdifference]
  refine Prod.ext rfl (Bool.eq_iff_iff.mpr ?_)
  have hwrap := toInt_ofInt_cases (n := a.toInt - b.toInt) (by omega) (by omega)
  simp only [beq_iff_eq, decide_eq_decide, decide_eq_true_eq, Int64.lt_iff_toInt_lt, hzero]
  rw [Fits]
  omega

/-- A product that has wrapped around is not divided back: the remainder would be a multiple of
`2 ^ 64` below the divisor. -/
theorem eq_mul_of_tdiv_eq {x y z : Int} (hy : Fits y) (hne : y ≠ 0)
    (hz : (0x10000000000000000 : Int) ∣ z - x * y) (hdiv : z.tdiv y = x) : z = x * y := by
  have hsplit := Int.mul_tdiv_add_tmod z y
  rw [hdiv, Int.mul_comm] at hsplit
  have hremainder : z - x * y = z.tmod y := by omega
  have hlt : (z.tmod y).natAbs < y.natAbs := by
    rw [Int.natAbs_tmod]
    exact Nat.mod_lt _ (Int.natAbs_pos.mpr hne)
  rw [Fits] at hy
  have hzero : z - x * y = 0 := by
    refine Int.eq_zero_of_dvd_of_natAbs_lt_natAbs hz ?_
    omega
  omega

/-- The division by one factor gives back the other one if the product is exact, unless it is that of
the least integer and `-1`. -/
theorem ofInt_mul_div_eq_iff {a b : Int64} (hb : b ≠ 0) (hleast : ¬ (b = -1 ∧ a = Int64.minValue)) :
    Int64.ofInt (a.toInt * b.toInt) / b = a ↔ Fits (a.toInt * b.toInt) := by
  have hne : b.toInt ≠ 0 := fun h => hb (Int64.toInt_inj.mp h)
  by_cases hone : b = -1
  · -- the opposite of an integer is exact, unless this is the least one
    subst hone
    have ha : a.toInt ≠ -0x8000000000000000 := fun h => hleast ⟨rfl, Int64.toInt_inj.mp h⟩
    have hfits := fits_toInt a
    have hopposite : a.toInt * (-1 : Int64).toInt = -a.toInt := Int.mul_neg_one _
    rw [Fits] at hfits
    have hexact : Fits (-a.toInt) := ⟨by omega, by omega⟩
    have hback : (-a.toInt).tdiv (-1 : Int64).toInt = a.toInt :=
      (Int.tdiv_neg _ 1).trans (by rw [Int.tdiv_one, Int.neg_neg])
    rw [hopposite, ← Int64.toInt_inj, Int64.toInt_div, toInt_ofInt_of_fits hexact, hback]
    exact iff_of_true a.toInt_bmod hexact
  · rw [← Int64.toInt_inj, Int64.toInt_div_of_ne_right _ _ hone]
    constructor
    · -- if it had wrapped around, the quotient would be another one
      intro hdiv
      have hwrap : (0x10000000000000000 : Int) ∣
          (Int64.ofInt (a.toInt * b.toInt)).toInt - a.toInt * b.toInt := by
        rw [Int64.toInt_ofInt]
        exact Int.dvd_bmod_sub_self
      rw [← eq_mul_of_tdiv_eq (fits_toInt b) hne hwrap hdiv]
      exact fits_toInt _
    · intro hfits
      rw [toInt_ofInt_of_fits hfits, Int.mul_tdiv_cancel _ hne]

/-- **A product is exact** if the division by one factor gives back the other one, unless it is that
of the least integer and `-1`. -/
theorem wrappedProduct_eq :
    wrappedProduct a b =
      (Int64.ofInt (a.toInt * b.toInt), decide (Fits (a.toInt * b.toInt))) := by
  have hproduct : a * b = Int64.ofInt (a.toInt * b.toInt) := by
    rw [Int64.ofInt_mul, Int64.ofInt_toInt, Int64.ofInt_toInt]
  rw [wrappedProduct]
  split
  · rename_i hzero
    have hmul : a.toInt * b.toInt = 0 := by
      simp only [Bool.or_eq_true, beq_iff_eq] at hzero
      rcases hzero with rfl | rfl
      · exact Int.zero_mul _
      · exact Int.mul_zero _
    rw [hmul]
    rfl
  · rename_i hne
    split
    · rename_i hleast
      have hmul : a.toInt * b.toInt = 0x8000000000000000 := by
        simp only [Bool.or_eq_true, Bool.and_eq_true, beq_iff_eq] at hleast
        rcases hleast with ⟨rfl, rfl⟩ | ⟨rfl, rfl⟩ <;> rfl
      rw [hproduct, hmul]
      rfl
    · rename_i hleast
      refine Prod.ext hproduct (Bool.eq_iff_iff.mpr ?_)
      simp only [Bool.or_eq_true, Bool.and_eq_true, beq_iff_eq, not_or] at hne hleast
      rw [beq_iff_eq, decide_eq_true_iff, hproduct]
      exact ofInt_mul_div_eq_iff hne.2 hleast.2

end Number

/-! ### Operators -/

namespace TokenKind

/-- Whether an operator makes an integer of two integers. -/
def isIntegral : TokenKind → Bool
  | plus | minus | times => true
  | _ => false

/-- The exact result of an operator that makes an integer of two integers. -/
def exactResult : TokenKind → Int → Int → Int
  | plus, x, y => x + y
  | minus, x, y => x - y
  | times, x, y => x * y
  | _, _, _ => 0

end TokenKind

/-- An exact result, which is refused if it has more than 64 bits. -/
def Value.ofExact (n : Int) : Except EvalError Value :=
  if Fits n then .ok (.number (.int (Int64.ofInt n))) else .error .integerOverflow

/-- A result that is known to be exact or not is the exact one. -/
theorem Number.map_checked (n : Int) :
    (checked (Int64.ofInt n, decide (Fits n))).map Value.number = Value.ofExact n := by
  by_cases hn : Fits n
  · simp [checked, Value.ofExact, hn, Except.map]
  · simp [checked, Value.ofExact, hn, Except.map]

/-- **An operator on integers gives the exact result**, or refuses it. -/
theorem Value.apply_int (tolerance : Float) {operator : Token}
    (hop : operator.kind.isIntegral = true) (a b : Int64) :
    (Value.number (.int a)).apply tolerance operator (.number (.int b)) =
      ofExact (operator.kind.exactResult a.toInt b.toInt) := by
  obtain ⟨kind, text, pos⟩ := operator
  cases kind with
  | plus => exact (congrArg _ (congrArg _ (Number.wrappedSum_eq a b))).trans (Number.map_checked _)
  | minus =>
    exact (congrArg _ (congrArg _ (Number.wrappedDifference_eq a b))).trans (Number.map_checked _)
  | times =>
    exact (congrArg _ (congrArg _ (Number.wrappedProduct_eq a b))).trans (Number.map_checked _)
  | _ => cases hop

/-! ### Trees of integers -/

namespace Expr

/-- Whether a tree is made of integers and names under `+`, `-` and `*`. -/
def isIntegral : Expr → Bool
  | int _ | identifier _ => true
  | binary left operator right => operator.kind.isIntegral && left.isIntegral && right.isIntegral
  | float _ | hole => false

/-- The exact value of such a tree, when the names in it stand for the given integers. -/
def exactValue (value : Text → Int64) : Expr → Int
  | int n => n.toInt
  | identifier name => (value name).toInt
  | binary left operator right =>
    operator.kind.exactResult (left.exactValue value) (right.exactValue value)
  | float _ | hole => 0

/-- All parts of a tree, itself included. -/
def parts : Expr → List Expr
  | binary left operator right => binary left operator right :: (left.parts ++ right.parts)
  | e => [e]

/-- The exact values of all parts of a tree have 64 bits. -/
def FitsThroughout (value : Text → Int64) (e : Expr) : Prop :=
  ∀ part ∈ e.parts, Fits (part.exactValue value)

/-- The names in a tree stand for the given integers. -/
def StandsFor {σ : Type} [Scope σ] (s : σ) (value : Text → Int64) (e : Expr) : Prop :=
  ∀ name, identifier name ∈ e.parts → Scope.lookup s name = some (.number (.int (value name)))

section Integers

variable {σ : Type} [Scope σ] {s : σ} {value : Text → Int64} {e left right : Expr}
  {operator : Token}

theorem mem_parts_self (e : Expr) : e ∈ e.parts := by
  cases e <;> exact List.mem_cons_self

theorem fitsThroughout_binary :
    FitsThroughout value (binary left operator right) ↔
      Fits ((binary left operator right).exactValue value) ∧ FitsThroughout value left ∧
        FitsThroughout value right := by
  rw [FitsThroughout, parts, List.forall_mem_cons, List.forall_mem_append]
  rfl

theorem standsFor_left (h : StandsFor s value (binary left operator right)) :
    StandsFor s value left :=
  fun name hname => h name (List.mem_cons_of_mem _ (List.mem_append_left _ hname))

theorem standsFor_right (h : StandsFor s value (binary left operator right)) :
    StandsFor s value right :=
  fun name hname => h name (List.mem_cons_of_mem _ (List.mem_append_right _ hname))

theorem isIntegral_binary (h : (binary left operator right).isIntegral = true) :
    operator.kind.isIntegral = true ∧ operator.kind ≠ .assign ∧ left.isIntegral = true ∧
      right.isIntegral = true := by
  simp only [isIntegral, Bool.and_eq_true] at h
  refine ⟨h.1.1, fun hk => ?_, h.1.2, h.2⟩
  rw [hk] at h
  exact absurd h.1.1 (by decide)

/-- An operator on sides that were evaluated exactly gives the exact result, or refuses it. -/
theorem eval_binary_of_exact (tolerance : Float)
    (hop : operator.kind.isIntegral = true) (hne : operator.kind ≠ .assign)
    (hleft : left.eval tolerance s = (.ok (.number (.int (Int64.ofInt (left.exactValue value)))), s))
    (hright :
      right.eval tolerance s = (.ok (.number (.int (Int64.ofInt (right.exactValue value)))), s))
    (hfitsLeft : FitsThroughout value left) (hfitsRight : FitsThroughout value right) :
    (binary left operator right).eval tolerance s =
      (Value.ofExact ((binary left operator right).exactValue value), s) := by
  have hexactLeft := Number.toInt_ofInt_of_fits (hfitsLeft left left.mem_parts_self)
  have hexactRight := Number.toInt_ofInt_of_fits (hfitsRight right right.mem_parts_self)
  rw [eval_operator hne, hleft]
  dsimp only
  rw [hright]
  dsimp only
  rw [Value.apply_int tolerance hop, hexactLeft, hexactRight, exactValue]

/-- **What fits is exact.** -/
theorem eval_of_fitsThroughout (tolerance : Float) (he : e.isIntegral = true)
    (hs : StandsFor s value e) (hfits : FitsThroughout value e) :
    e.eval tolerance s = (.ok (.number (.int (Int64.ofInt (e.exactValue value)))), s) := by
  induction e with
  | float x => cases he
  | hole => cases he
  | int n => rw [eval, exactValue, Int64.ofInt_toInt]
  | identifier name =>
    rw [eval, hs name (mem_parts_self _), exactValue, Int64.ofInt_toInt]
  | binary left operator right ihleft ihright =>
    obtain ⟨hop, hne, hintLeft, hintRight⟩ := isIntegral_binary he
    obtain ⟨hwhole, hfitsLeft, hfitsRight⟩ := fitsThroughout_binary.mp hfits
    have hleft := ihleft hintLeft (standsFor_left hs) hfitsLeft
    have hright := ihright hintRight (standsFor_right hs) hfitsRight
    rw [eval_binary_of_exact tolerance hop hne hleft hright hfitsLeft hfitsRight, Value.ofExact,
      if_pos hwhole]

/-- **What does not fit is refused**, wherever in the tree it is. -/
theorem eval_of_not_fitsThroughout (tolerance : Float) (he : e.isIntegral = true)
    (hs : StandsFor s value e) (hfits : ¬ FitsThroughout value e) :
    e.eval tolerance s = (.error .integerOverflow, s) := by
  induction e with
  | float x => cases he
  | hole => cases he
  | int n =>
    have hint : FitsThroughout value (int n) :=
      List.forall_mem_singleton.mpr (Number.fits_toInt n)
    exact absurd hint hfits
  | identifier name =>
    have hname : FitsThroughout value (identifier name) :=
      List.forall_mem_singleton.mpr (Number.fits_toInt (value name))
    exact absurd hname hfits
  | binary left operator right ihleft ihright =>
    obtain ⟨hop, hne, hintLeft, hintRight⟩ := isIntegral_binary he
    by_cases hfitsLeft : FitsThroughout value left
    · have hleft := eval_of_fitsThroughout tolerance hintLeft (standsFor_left hs) hfitsLeft
      by_cases hfitsRight : FitsThroughout value right
      · -- both sides are exact, so it is the result of the operator that is too large
        have hright := eval_of_fitsThroughout tolerance hintRight (standsFor_right hs) hfitsRight
        have hwhole : ¬ Fits ((binary left operator right).exactValue value) := fun hwhole =>
          hfits (fitsThroughout_binary.mpr ⟨hwhole, hfitsLeft, hfitsRight⟩)
        rw [eval_binary_of_exact tolerance hop hne hleft hright hfitsLeft hfitsRight, Value.ofExact,
          if_neg hwhole]
      · rw [eval_operator hne, hleft]
        dsimp only
        rw [ihright hintRight (standsFor_right hs) hfitsRight]
    · rw [eval_operator hne, ihleft hintLeft (standsFor_left hs) hfitsLeft]

end Integers

/-- **Integer arithmetic is exact or refused.** A tree of integers and names under `+`, `-` and `*`
is evaluated in a scope in which its names stand for integers. If the exact values of all its parts
have 64 bits, the value is the exact one. Otherwise the evaluation ends with an overflow. The scope
is left as it was. -/
theorem eval_exact_or_refused {σ : Type} [Scope σ] (tolerance : Float) (e : Expr)
    (he : e.isIntegral = true) (s : σ) (value : Text → Int64)
    (hs : ∀ name, identifier name ∈ e.parts →
      Scope.lookup s name = some (.number (.int (value name)))) :
    ((∀ part ∈ e.parts, Fits (part.exactValue value)) →
      ∃ n : Int64, e.eval tolerance s = (.ok (.number (.int n)), s) ∧
        n.toInt = e.exactValue value) ∧
      ((∃ part ∈ e.parts, ¬ Fits (part.exactValue value)) →
        e.eval tolerance s = (.error .integerOverflow, s)) := by
  constructor
  · intro hfits
    refine ⟨_, eval_of_fitsThroughout tolerance he hs hfits, ?_⟩
    exact Number.toInt_ofInt_of_fits (hfits e e.mem_parts_self)
  · rintro ⟨part, hpart, hover⟩
    exact eval_of_not_fitsThroughout tolerance he hs fun hfits => hover (hfits part hpart)

/-- For example, `(x + 1) - 1` is refused where `x` is the greatest integer, although its exact value
has 64 bits. -/
theorem eval_exact_or_refused_of_greatest :
    let tree := binary (binary (identifier (Text.lit "x")) ⟨.plus, Text.lit "+", 3⟩ (int 1))
      ⟨.minus, Text.lit "-", 8⟩ (int 1)
    let table : Table := Dict.empty.insert (Text.lit "x") (.number (.int Int64.maxValue))
    let value : Text → Int64 := fun _ => Int64.maxValue
    tree.isIntegral = true ∧
      (∀ name, identifier name ∈ tree.parts →
        Scope.lookup table name = some (.number (.int (value name)))) ∧
      Fits (tree.exactValue value) ∧ (∃ part ∈ tree.parts, ¬ Fits (part.exactValue value)) ∧
      tree.eval 0 table = (.error .integerOverflow, table) := by
  intro tree table value
  have hs : ∀ name, identifier name ∈ tree.parts →
      Scope.lookup table name = some (.number (.int (value name))) := by
    intro name hname
    obtain rfl : name = Text.lit "x" := by simpa [tree, parts] using hname
    rfl
  have hover : ∃ part ∈ tree.parts, ¬ Fits (part.exactValue value) := by
    refine ⟨_, List.mem_cons_of_mem _ (List.mem_append_left _ (mem_parts_self _)), ?_⟩
    decide
  exact ⟨rfl, hs, by decide, hover, (eval_exact_or_refused 0 tree rfl table value hs).2 hover⟩

end Expr

end Reckon
