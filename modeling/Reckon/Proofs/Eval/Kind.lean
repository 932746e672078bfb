import Reckon.Proofs.Session.Atomicity

/-!
# What kind of value an equation has

The kind of an equation (`Expr.kind?`) is found without evaluating it: from its literals, from what
its names stand for, and from its operators, each of which takes numbers only. The evaluation meets
an operand that is no number late, after both sides have been evaluated and the assignments in them
have been made. Nevertheless the kind tells how it ends (`Expr.eval_goes_by_kind`):

* An equation with a kind has a value of that kind, unless a division by zero or an integer beyond
  64 bits comes in between; nothing else can fail.
* An equation without a kind fails, and with an error that is reported.

Both hold of all trees that are made of operators with all their operands (`Expr.isComplete`) and in
every scope. The scope does not matter because an operand that turns out to be a number has left
it as it was (`Expr.scope_of_eval_number`), and any other operand makes the equation fail.
-/

namespace Reckon

/-! ### Kinds -/

/-- What a value can be. -/
inductive Kind where
  | int
  | float
  | bool
  | assignment
deriving DecidableEq, Repr

/-- The kind of a number. -/
def Number.kind : Number → Kind
  | int _ => .int
  | float _ => .float

/-- The kind of a value. -/
def Value.kind : Value → Kind
  | number n => n.kind
  | bool _ => .bool
  | assignment _ _ => .assignment

namespace Kind

/-- Whether values of a kind are numbers. -/
def isNumeric : Kind → Bool
  | int | float => true
  | bool | assignment => false

/-- The kind of the result of an operator other than assignment, by the kinds of its operands. -/
def result? (operator : TokenKind) (left right : Kind) : Option Kind :=
  if left.isNumeric && right.isNumeric then
    match operator with
    | .divide => some float
    | .equal => some bool
    | .plus | .minus | .times => some (if left = int ∧ right = int then int else float)
    | _ => none
  else none

/-- Only numbers can be combined. -/
theorem result?_eq_none {operator : TokenKind} {left right : Kind}
    (h : left.isNumeric = false ∨ right.isNumeric = false) :
    result? operator left right = none := by
  refine if_neg ?_
  rcases h with h | h <;> simp [h]

/-- The kind of an assignment, by the kind of its right side. -/
def assigned? (right : Kind) : Option Kind := if right.isNumeric then some assignment else none

end Kind

namespace Expr

/-- The kind of an equation in a scope. -/
def kind? {σ : Type} [Scope σ] (s : σ) : Expr → Option Kind
  | int _ => some .int
  | float _ => some .float
  | identifier name => (Scope.lookup s name).map Value.kind
  | hole => none
  | binary left operator right =>
    if operator.kind = .assign then
      match left with
      | identifier _ => (right.kind? s).bind Kind.assigned?
      | _ => none
    else (left.kind? s).bind fun a => (right.kind? s).bind fun b => Kind.result? operator.kind a b

/-- Whether a tree is made of operators, with all their operands. -/
def isComplete : Expr → Bool
  | int _ | float _ | identifier _ => true
  | binary left operator right => operator.kind.isOperator && left.isComplete && right.isComplete
  | hole => false

theorem hasHole_of_isComplete {e : Expr} (h : e.isComplete = true) : e.hasHole = false := by
  induction e with
  | int | float | identifier => rfl
  | hole => cases h
  | binary left operator right ihleft ihright =>
    simp only [isComplete, Bool.and_eq_true] at h
    rw [hasHole, ihleft h.1.2, ihright h.2]
    rfl

end Expr

/-! ### Ends of an evaluation -/

/-- An evaluation ends as a kind says: with a value of the kind or with an error of arithmetic, and
without a kind with an error that is reported. -/
def EndsAs : Option Kind → Except EvalError Value → Prop
  | some k, .ok v => v.kind = k
  | some _, .error e => e = .divisionByZero ∨ e = .integerOverflow
  | none, .ok _ => False
  | none, .error e => ∀ m, e ≠ .malformed m

namespace EndsAs

variable {k? : Option Kind}

theorem ok_iff {v : Value} : EndsAs k? (.ok v) ↔ k? = some v.kind := by
  cases k? with
  | none => exact ⟨False.elim, fun h => by cases h⟩
  | some k => exact ⟨fun h => congrArg some h.symm, fun h => (Option.some.inj h).symm⟩

/-- An error of a part is an error of the whole, which has a kind only if the part has one. -/
theorem error_of_part {part? : Option Kind} {e : EvalError} (h : EndsAs part? (.error e))
    (hkind : part? = none → k? = none) : EndsAs k? (.error e) := by
  cases part? with
  | none =>
    rw [hkind rfl]
    exact h
  | some k =>
    cases k? with
    | some _ => exact h
    | none =>
      rintro m rfl
      rcases h with h | h <;> cases h

end EndsAs

/-! ### Operators -/

theorem Number.isNumeric_kind (x : Number) : x.kind.isNumeric = true := by
  cases x <;> rfl

/-- What is no number has none of the numeric kinds. -/
theorem Value.isNumeric_kind_of_number? {v : Value} (h : v.number? = none) :
    v.kind.isNumeric = false := by
  cases v with
  | number x => cases h
  | bool b => rfl
  | assignment name value => rfl

namespace Number

theorem endsAs_checked (result : Int64 × Bool) :
    EndsAs (some .int) ((checked result).map .number) := by
  rw [checked]
  split
  · rfl
  · exact .inr rfl

theorem endsAs_divide (x y : Number) : EndsAs (some .float) ((divide x y).map .number) := by
  rw [divide]
  split
  · exact .inl rfl
  · rfl

/-- Sums, differences and products can only fail between integers. -/
theorem endsAs_arith {operator : TokenKind}
    (hop : operator = .plus ∨ operator = .minus ∨ operator = .times) (x y : Number) :
    EndsAs (Kind.result? operator x.kind y.kind) ((arith operator x y).map .number) := by
  cases x with
  | int a =>
    cases y with
    | int b => rcases hop with rfl | rfl | rfl <;> exact endsAs_checked _
    | float b => rcases hop with rfl | rfl | rfl <;> rfl
  | float a => cases y <;> rcases hop with rfl | rfl | rfl <;> rfl

/-- Operators other than assignment go by the kinds of their operands on numbers. -/
theorem endsAs_apply (tolerance : Float) {operator : TokenKind} (hop : operator.isOperator = true)
    (hne : operator ≠ .assign) (x y : Number) :
    EndsAs (Kind.result? operator x.kind y.kind) (apply tolerance operator x y) := by
  cases operator with
  | plus => exact endsAs_arith (.inl rfl) x y
  | minus => exact endsAs_arith (.inr (.inl rfl)) x y
  | times => exact endsAs_arith (.inr (.inr rfl)) x y
  | divide =>
    rw [Kind.result?, isNumeric_kind, isNumeric_kind]
    exact endsAs_divide x y
  | equal =>
    rw [Kind.result?, isNumeric_kind, isNumeric_kind]
    rfl
  | assign => exact absurd rfl hne
  | _ => cases hop

end Number

/-- Operators other than assignment go by the kinds of their operands. -/
theorem Value.endsAs_apply (tolerance : Float) {operator : Token}
    (hop : operator.kind.isOperator = true) (hne : operator.kind ≠ .assign) (left right : Value) :
    EndsAs (Kind.result? operator.kind left.kind right.kind)
      (left.apply tolerance operator right) := by
  rw [Value.apply_eq]
  rcases hleft : left.number? with _ | x
  · rw [Kind.result?_eq_none (.inl (Value.isNumeric_kind_of_number? hleft))]
    rintro m ⟨⟩
  · obtain rfl := Value.eq_number_of_number? hleft
    dsimp only
    rcases hright : right.number? with _ | y
    · rw [Kind.result?_eq_none (.inr (Value.isNumeric_kind_of_number? hright))]
      rintro m ⟨⟩
    · obtain rfl := Value.eq_number_of_number? hright
      exact Number.endsAs_apply tolerance hop hne x y

/-! ### Equations -/

namespace Expr

variable {σ : Type} [Scope σ] {tolerance : Float}

/-- An evaluation that ends in a number leaves the scope as it was. -/
theorem scope_of_eval_number {e : Expr} {s s' : σ} {x : Number}
    (h : e.eval tolerance s = (.ok (.number x), s')) : s' = s := by
  induction e generalizing s s' x with
  | int n =>
    cases h
    rfl
  | float x =>
    cases h
    rfl
  | identifier name =>
    rw [eval] at h
    split at h
    · exact (Prod.mk.inj h).2.symm
    · cases h
  | hole => cases h
  | binary left operator right ihleft ihright =>
    by_cases hk : operator.kind = .assign
    · -- what is assigned is reported as an assignment, not as a number
      obtain ⟨name, y, after, -, -, hvalue, -⟩ := eval_assign_eq_ok hk h
      cases hvalue
    · -- both operands were numbers, so neither side has assigned anything
      obtain ⟨a, b, after, hleft, hright, happly⟩ := eval_binary_eq_ok hk h
      obtain ⟨x, y, rfl, rfl, -⟩ := Value.apply_eq_ok happly
      exact (ihright hright).trans (ihleft hleft)

/-- An assignment to a name goes by the kind of its right side. -/
theorem endsAs_eval_assign {operator : Token} {right : Expr} {s : σ} {name : Text}
    (hk : operator.kind = .assign) (ih : EndsAs (right.kind? s) (right.eval tolerance s).1) :
    EndsAs ((binary (.identifier name) operator right).kind? s)
      ((binary (.identifier name) operator right).eval tolerance s).1 := by
  unfold kind? eval
  rw [if_pos hk, if_pos hk]
  dsimp only
  rcases hright : right.eval tolerance s with ⟨e | v, s'⟩ <;> rw [hright] at ih
  · exact ih.error_of_part fun hnone => by rw [hnone]; rfl
  · rw [EndsAs.ok_iff.mp ih]
    dsimp only [Option.bind_some, Kind.assigned?]
    rcases hv : v.number? with _ | x
    · rw [Value.isNumeric_kind_of_number? hv]
      rintro m ⟨⟩
    · obtain rfl := Value.eq_number_of_number? hv
      rw [Value.kind, Number.isNumeric_kind]
      rfl

/-- An equation without a name on its left side assigns nothing. -/
theorem assignFailure_ne_malformed {target : Expr} (h : target.isComplete = true) (m : Malformed) :
    target.assignFailure ≠ .malformed m := by
  rw [assignFailure, dump?, hasHole_of_isComplete h]
  rintro ⟨⟩

/-- Any other operator goes by the kinds of its operands. -/
theorem endsAs_eval_binary {left right : Expr} {operator : Token} {s : σ}
    (hop : operator.kind.isOperator = true) (hne : operator.kind ≠ .assign)
    (ihleft : EndsAs (left.kind? s) (left.eval tolerance s).1)
    (ihright : ∀ s : σ, EndsAs (right.kind? s) (right.eval tolerance s).1) :
    EndsAs ((binary left operator right).kind? s)
      ((binary left operator right).eval tolerance s).1 := by
  unfold kind? eval
  rw [if_neg hne, if_neg hne]
  rcases hleft : left.eval tolerance s with ⟨e | a, after⟩ <;> rw [hleft] at ihleft
  · exact ihleft.error_of_part fun hnone => by rw [hnone]; rfl
  · rw [EndsAs.ok_iff.mp ihleft]
    dsimp only [Option.bind_some]
    have hright := ihright after
    rcases ha : a.number? with _ | x
    · -- the left operand may have made assignments, but no operator takes it
      have hresult : ∀ b, Kind.result? operator.kind a.kind b = none := fun b =>
        Kind.result?_eq_none (.inl (Value.isNumeric_kind_of_number? ha))
      have hnone : ((right.kind? s).bind fun b => Kind.result? operator.kind a.kind b) = none :=
        Option.bind_eq_none_iff.mpr fun b _ => hresult b
      rw [hnone]
      rcases hr : right.eval tolerance after with ⟨e | b, s'⟩ <;> rw [hr] at hright
      · exact hright.error_of_part fun _ => rfl
      · have happly := Value.endsAs_apply tolerance hop hne a b
        rwa [hresult] at happly
    · -- the left operand has left the scope to the right one as it was
      obtain rfl := Value.eq_number_of_number? ha
      obtain rfl := scope_of_eval_number hleft
      rcases hr : right.eval tolerance after with ⟨e | b, s'⟩ <;> rw [hr] at hright
      · exact hright.error_of_part fun hnone => by rw [hnone]; rfl
      · rw [EndsAs.ok_iff.mp hright]
        exact Value.endsAs_apply tolerance hop hne (.number x) b

/-- The evaluation of a complete tree ends as its kind says. -/
theorem endsAs_eval (tolerance : Float) {e : Expr} (he : e.isComplete = true) (s : σ) :
    EndsAs (e.kind? s) (e.eval tolerance s).1 := by
  induction e generalizing s with
  | int n => rfl
  | float x => rfl
  | identifier name =>
    rw [kind?, eval]
    rcases Scope.lookup s name with _ | v
    · rintro m ⟨⟩
    · rfl
  | hole => cases he
  | binary left operator right ihleft ihright =>
    simp only [isComplete, Bool.and_eq_true] at he
    obtain ⟨⟨hop, hleft⟩, hright⟩ := he
    by_cases hk : operator.kind = .assign
    · cases left with
      | identifier name => exact endsAs_eval_assign hk (ihright hright s)
      -- neither side is evaluated then
      | int | float | binary | hole =>
        unfold kind? eval
        rw [if_pos hk, if_pos hk]
        exact assignFailure_ne_malformed hleft
    · exact endsAs_eval_binary hop hk (ihleft hleft s) (ihright hright)

/-- **Kinds foretell evaluation.** An equation with a kind has a value of that kind, or a division
by zero or an integer overflow is met. An equation without a kind fails with an error that is
reported. -/
theorem eval_goes_by_kind (tolerance : Float) (e : Expr) (he : e.isComplete = true) (s : σ) :
    match e.kind? s with
    | some k =>
      (∃ v, (e.eval tolerance s).1 = .ok v ∧ v.kind = k) ∨
        (e.eval tolerance s).1 = .error .divisionByZero ∨
        (e.eval tolerance s).1 = .error .integerOverflow
    | none => ∃ error, (e.eval tolerance s).1 = .error error ∧ ∀ m, error ≠ .malformed m := by
  have hends := endsAs_eval tolerance he s
  rcases hk : e.kind? s with _ | k <;> rcases hr : (e.eval tolerance s).1 with error | v <;>
    rw [hk, hr] at hends
  · exact ⟨error, rfl, hends⟩
  · exact False.elim hends
  · exact .inr (Or.imp (congrArg Except.error) (congrArg Except.error) hends)
  · exact .inl ⟨v, rfl, hends⟩

/-- For example, `(x = y) + 2` has no kind. It fails in the sum, after the assignment. -/
theorem eval_goes_by_kind_of_assigned_operand :
    let tree := binary
      (binary (identifier (Text.lit "x")) ⟨.assign, Text.lit "=", 3⟩ (identifier (Text.lit "y")))
      ⟨.plus, Text.lit "+", 8⟩ (int 2)
    let table : Table := Dict.empty.insert (Text.lit "y") (.number (.float 2.5))
    tree.isComplete = true ∧ tree.kind? table = none ∧
      ∃ error, (tree.eval 0 table).1 = .error error ∧ ∀ m, error ≠ .malformed m := by
  intro tree table
  exact ⟨rfl, rfl, eval_goes_by_kind 0 tree rfl table⟩

end Expr

end Reckon
