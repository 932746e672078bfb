import Reckon.Parser.Literal

/-!
# Which numbers can be represented

An integer converts if it is at most `2 ^ 63 - 1`. A float converts if it has exactly one point and
the nearest double is finite. `Token.Converts` says so, `Token.literal` is the operand that a
number or an identifier then stands for, and `operand?_eq` says that a token is read as an operand
in exactly this way.
-/

namespace Reckon

namespace Token

/-- The double nearest to a decimal with a point. -/
def pointValue (text : Text) : Float :=
  nearestFloat (text.takeWhile fun b => b != '.'.toUInt8)
    ((text.dropWhile fun b => b != '.'.toUInt8).drop 1)

/-- Whether a number can be represented; tokens other than numbers always can. -/
def Converts (t : Token) : Prop :=
  (t.kind = .int → Text.digitsToNat t.text ≤ 9223372036854775807) ∧
    (t.kind = .float →
      t.text.count '.'.toUInt8 = 1 ∧ (Binary64.ofFloat (pointValue t.text)).isFinite = true)

instance (t : Token) : Decidable t.Converts := inferInstanceAs (Decidable (_ ∧ _))

/-- Whether a number that does not convert is too large, rather than malformed. -/
def tooLarge (t : Token) : Bool := t.kind = .int || t.text.count '.'.toUInt8 == 1

/-- The operand that a number or an identifier stands for. -/
def literal (t : Token) : Expr :=
  match t.kind with
  | .int => .int (Int64.ofNat (Text.digitsToNat t.text))
  | .float => .float (pointValue t.text)
  | _ => .identifier t.text

/-- Whether a token is an operand of its own: a number or an identifier. -/
def isLiteral (t : Token) : Bool := t.kind = .int || t.kind = .float || t.kind = .identifier

theorem toIntExpr_eq {t : Token} (hk : t.kind = .int) :
    t.toIntExpr = if t.Converts then .ok t.literal else .error (.number t t.tooLarge) := by
  have hconv : t.Converts ↔ Text.digitsToNat t.text < 0x8000000000000000 := by
    simp only [Converts, hk, forall_const, reduceCtorEq, false_implies, and_true]
    omega
  simp only [toIntExpr, hconv, literal, tooLarge, hk, decide_true, Bool.true_or]

/-- The first occurrence of a byte is the first that is not before it. -/
theorem count_eq_count_dropWhile (b : UInt8) (text : Text) :
    text.count b = (text.dropWhile fun x => x != b).count b := by
  have hnone : (text.takeWhile fun x => x != b).count b = 0 := by
    rw [List.count_eq_zero]
    intro hmem
    have := List.all_eq_true.mp List.all_takeWhile b hmem
    simp at this
  conv => lhs; rw [← List.takeWhile_append_dropWhile (p := fun x => x != b) (l := text)]
  rw [List.count_append, hnone, Nat.zero_add]

theorem toFloatExpr_eq {t : Token} (hk : t.kind = .float) :
    t.toFloatExpr = if t.Converts then .ok t.literal else .error (.number t t.tooLarge) := by
  have hcount := count_eq_count_dropWhile '.'.toUInt8 t.text
  have hconv : t.Converts ↔ t.text.count '.'.toUInt8 = 1 ∧
      (Binary64.ofFloat (pointValue t.text)).isFinite = true := by
    simp only [Converts, hk, forall_const, reduceCtorEq, false_implies, true_and]
  have hlarge : t.tooLarge = (t.text.count '.'.toUInt8 == 1) := by simp [tooLarge, hk]
  have hliteral : t.literal = .float (pointValue t.text) := by simp only [literal, hk]
  have hhead := List.head?_dropWhile_not (fun x => x != '.'.toUInt8) t.text
  simp only [hconv, hlarge, hliteral, toFloatExpr, Text.cut]
  rcases hd : t.text.dropWhile fun x => x != '.'.toUInt8 with _ | ⟨x, fraction⟩
  · -- without a point
    rw [hd] at hcount
    simp [hcount]
  · rw [hd] at hcount hhead
    obtain rfl : x = '.'.toUInt8 := by simpa using hhead
    have hvalue : pointValue t.text
        = nearestFloat (t.text.takeWhile fun x => x != '.'.toUInt8) fraction := by
      rw [pointValue, hd]
      rfl
    rw [List.count_cons_self] at hcount
    rw [hvalue]
    by_cases hmore : '.'.toUInt8 ∈ fraction
    · -- with a second point
      have hpos := List.count_pos_iff.mpr hmore
      have hne : ¬ t.text.count '.'.toUInt8 = 1 := by omega
      simp [hmore, hne]
    · have hzero := List.count_eq_zero.mpr hmore
      have hone : t.text.count '.'.toUInt8 = 1 := by omega
      simp [hmore, hone]

/-- **How a token is read as an operand**: numbers and identifiers are, numbers if they convert. -/
theorem operand?_eq (t : Token) :
    t.operand? = if t.isLiteral then
      some (if t.Converts then .ok t.literal else .error (.number t t.tooLarge)) else none := by
  unfold operand? isLiteral
  split
  · rename_i hk
    simp [hk, toIntExpr_eq hk]
  · rename_i hk
    simp [hk, toFloatExpr_eq hk]
  · rename_i hk
    have hconv : t.Converts := by simp [Converts, hk]
    simp [hk, hconv, literal]
  · rename_i hint hfloat hident
    rw [decide_eq_false hint, decide_eq_false hfloat, decide_eq_false hident]
    rfl

theorem operand?_eq_ok {t : Token} {tree : Expr} (h : t.operand? = some (.ok tree)) :
    t.isLiteral = true ∧ t.Converts ∧ tree = t.literal := by
  rw [operand?_eq] at h
  split at h
  · rename_i hliteral
    split at h
    · rename_i hconv
      cases h
      exact ⟨hliteral, hconv, rfl⟩
    · cases h
  · cases h

theorem operand?_eq_error {t : Token} {e : InputError} (h : t.operand? = some (.error e)) :
    t.isLiteral = true ∧ ¬ t.Converts ∧ e = .number t t.tooLarge := by
  rw [operand?_eq] at h
  split at h
  · rename_i hliteral
    split at h
    · cases h
    · rename_i hconv
      cases h
      exact ⟨hliteral, hconv, rfl⟩
  · cases h

theorem operand?_eq_none {t : Token} (h : t.operand? = none) : t.isLiteral = false := by
  rw [operand?_eq] at h
  split at h
  · cases h
  · rename_i hliteral
    exact Bool.eq_false_iff.mpr hliteral

end Token

end Reckon
