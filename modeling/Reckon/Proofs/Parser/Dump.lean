import Reckon.Proofs.Decimal.Written
import Reckon.Proofs.Parser.Trees

/-!
# Trees are read off their operator-first form

The operator-first form of a tree starts with a word: the text of an operand, or the name of an
operator. Brackets and commas stand only between words, because no word has one in it, not even a
number with an exponent (`IsLegible.word_bytes`). So the first word is what stands in front of the
first of them (`delimited_inj`).

The word tells which operand or operator it is (`IsOperand.eq_of_word_eq`,
`IsOperand.word_ne_name`, `TokenKind.name_inj`): numbers start with a digit and names do not, no
two numbers are written alike, and operators are made of other characters. Hence the form can be
read in one way only (`IsLegible.dumpOnto_inj`), by induction on the tree, for a form with anything
behind it that starts with a bracket or a comma.

The only thing in the tree of an equation that its form does not show are the places of the
operators: `dump_eq_iff`.
-/

namespace Reckon

/-! ### Words and what stands between them -/

namespace Expr

/-- What the operator-first form of a tree starts with: an operand, or the name of an operator. -/
def word : Expr → Text
  | int n => Text.ofInt n.toInt
  | float x => FloatLayout.result.format x
  | identifier name => name
  | binary _ operator _ => operator.kind.name
  | hole => []

/-- The bytes between the words. -/
def isDelimiter (b : UInt8) : Bool :=
  b == '('.toUInt8 || b == ','.toUInt8 || b == ')'.toUInt8

/-- A text that can stand behind a word: it is empty or does not go on with one. -/
def Closes (tail : Text) : Prop := ∀ b ∈ tail.head?, isDelimiter b = true

theorem closes_nil : Closes [] := by
  intro b hb
  cases hb

theorem closes_cons {b : UInt8} (h : isDelimiter b = true) (tail : Text) : Closes (b :: tail) := by
  intro b' hb'
  cases hb'
  exact h

/-- A word and what stands behind it are told apart. -/
theorem delimited_inj {s s' t t' : Text} (hs : ∀ b ∈ s, isDelimiter b = false)
    (hs' : ∀ b ∈ s', isDelimiter b = false) (ht : Closes t) (ht' : Closes t')
    (h : s ++ t = s' ++ t') : s = s' ∧ t = t' := by
  have hfront {s t : Text} (hs : ∀ b ∈ s, isDelimiter b = false) (ht : Closes t) :
      (s ++ t).takeWhile (fun b => !isDelimiter b) = s := by
    rw [List.takeWhile_append_of_pos (fun b hb => by rw [hs b hb]; rfl)]
    cases t with
    | nil => rw [List.takeWhile_nil, List.append_nil]
    | cons b t =>
      rw [List.takeWhile_cons_of_neg (by rw [ht b rfl]; exact Bool.false_ne_true), List.append_nil]
  have hsame : s = s' := by
    rw [← hfront hs ht, h, hfront hs' ht']
  subst hsame
  exact ⟨rfl, List.append_cancel_left h⟩

end Expr

/-! ### Operands -/

/-- A number as an operand. -/
def Expr.ofNumber : Number → Expr
  | .int n => .int n
  | .float x => .float x

theorem Expr.word_ofNumber (x : Number) : (Expr.ofNumber x).word = x.text := by
  cases x <;> rfl

/-- A float that is not negative is written as a numeral. -/
theorem FloatLayout.isNumeral_format (layout : FloatLayout) {x : Float} {m : Nat} {q : Int}
    (h : Binary64.ofFloat x = .finite false m q) : ∃ v, Text.IsNumeral (layout.format x) v := by
  obtain ⟨v, hv, -⟩ := layout.isNumeral_unsigned (Binary64.canonical_of_ofBits h)
  refine ⟨v, ?_⟩
  rw [layout.format_of_finite h]
  exact hv

namespace Expr.IsOperand

variable {a b : Expr}

/-- An operand is a number that is written as a numeral, or a name. -/
theorem number_or_name (h : a.IsOperand) :
    (∃ x v, a = ofNumber x ∧ Text.IsNumeral x.text v) ∨
      ∃ name, a = identifier name ∧ name.IsName := by
  cases a with
  | int n =>
    refine .inl ⟨.int n, Text.digitsToNat (Text.ofNat n.toInt.natAbs), rfl, ?_⟩
    rw [Number.text, Text.ofInt_of_nonneg h.1]
    exact .plain (.whole (Text.isDigits_ofNat _))
  | float x =>
    obtain ⟨m, q, hx⟩ := h
    obtain ⟨v, hv⟩ := FloatLayout.result.isNumeral_format hx
    exact .inl ⟨.float x, v, rfl, hv⟩
  | identifier name => exact .inr ⟨name, rfl, h⟩
  | binary | hole => cases h

theorem word_bytes (h : a.IsOperand) : ∀ b ∈ a.word, isDelimiter b = false := by
  intro b hb
  refine Bool.eq_false_iff.mpr fun hdelimiter => ?_
  rw [isDelimiter, Bool.or_eq_true, Bool.or_eq_true, beq_iff_eq, beq_iff_eq,
    beq_iff_eq] at hdelimiter
  rcases h.number_or_name with ⟨x, v, rfl, hx⟩ | ⟨name, rfl, hname⟩
  · rw [word_ofNumber] at hb
    have hbyte := hx.bytes b hb
    rcases hdelimiter with (rfl | rfl) | rfl <;> cases hbyte
  · rcases hdelimiter with (rfl | rfl) | rfl <;>
      exact hname.not_mem (by decide) (by decide) (by decide) hb

/-- **A word tells which operand it is.** -/
theorem eq_of_word_eq (ha : a.IsOperand) (hb : b.IsOperand) (h : a.word = b.word) : a = b := by
  have hapart {x : Number} {v : ℚ} {name : Text} (hx : x.text.IsNumeral v) (hname : name.IsName) :
      x.text ≠ name := by
    obtain ⟨c, rest, hcons, hdigit⟩ := hx.exists_cons
    obtain ⟨c', rest', rfl, hdigit'⟩ := hname.exists_cons
    rw [hcons]
    intro heq
    obtain ⟨rfl, -⟩ := List.cons.inj heq
    exact Bool.false_ne_true (hdigit'.symm.trans hdigit)
  rcases ha.number_or_name with ⟨x, v, rfl, hx⟩ | ⟨name, rfl, hname⟩
  · rw [word_ofNumber] at h
    rcases hb.number_or_name with ⟨y, w, rfl, hy⟩ | ⟨name', rfl, hname'⟩
    · rw [word_ofNumber] at h
      rw [Number.text_injective h]
    · exact absurd h (hapart hx hname')
  · rcases hb.number_or_name with ⟨y, w, rfl, hy⟩ | ⟨name', rfl, hname'⟩
    · rw [word_ofNumber] at h
      exact absurd h.symm (hapart hy hname)
    · rw [show name = name' from h]

/-- No operand is written as an operator is called. -/
theorem word_ne_name (h : a.IsOperand) {kind : TokenKind} (hop : kind.isOperator = true) :
    a.word ≠ kind.name := by
  obtain ⟨b, rest, hhead, hb⟩ : ∃ b rest, kind.name = b :: rest ∧
      (b < 0x80 ∧ Text.isDigitByte b = false ∧ Text.isLetter (Char.ofNat b.toNat) = false ∧
        Text.isDecimalDigit (Char.ofNat b.toNat) = false) := by
    cases kind <;> first | exact ⟨_, _, rfl, by decide⟩ | cases hop
  obtain ⟨hlow, hdigit, hletter, hdecimal⟩ := hb
  rw [hhead]
  intro heq
  rcases h.number_or_name with ⟨x, v, rfl, hx⟩ | ⟨name, rfl, hname⟩
  · rw [word_ofNumber] at heq
    obtain ⟨b', rest', hcons, hdigit'⟩ := hx.exists_cons
    obtain ⟨rfl, -⟩ := List.cons.inj (hcons.symm.trans heq)
    exact Bool.false_ne_true (hdigit.symm.trans hdigit')
  · refine hname.not_mem hlow hletter hdecimal ?_
    rw [show name = b :: rest from heq]
    exact List.mem_cons_self

end Expr.IsOperand

/-! ### Operators -/

namespace TokenKind

variable {kind kind' : TokenKind}

theorem bytes_name (h : kind.isOperator = true) : ∀ b ∈ kind.name, Expr.isDelimiter b = false := by
  have hall : kind.name.all (fun b => !Expr.isDelimiter b) = true := by
    cases kind <;> first | decide | cases h
  intro b hb
  simpa using List.all_eq_true.mp hall b hb

/-- **A word tells which operator it is**, although the name of one is the start of another's. -/
theorem name_inj (h : kind.isOperator = true) (h' : kind'.isOperator = true)
    (hname : kind.name = kind'.name) : kind = kind' := by
  have hmem {kind : TokenKind} (h : kind.isOperator = true) :
      kind ∈ [plus, minus, times, divide, assign, equal] := by
    cases kind <;> first | decide | cases h
  have hall : ∀ kind ∈ [plus, minus, times, divide, assign, equal],
      ∀ kind' ∈ [plus, minus, times, divide, assign, equal],
        kind.name = kind'.name → kind = kind' := by decide
  exact hall kind (hmem h) kind' (hmem h') hname

end TokenKind

/-! ### Trees -/

namespace Expr

/-- A tree of operands and of operators that are written as they are called. -/
structure IsLegible (e : Expr) : Prop where
  operands : ∀ leaf ∈ e.leaves, leaf.IsOperand
  operators : ∀ t ∈ e.operators, t.kind.isOperator = true ∧ t.text = t.kind.name

theorem IsEquation.isLegible {e : Expr} (h : e.IsEquation) : e.IsLegible :=
  ⟨h.operands, h.operators⟩

/-- Places are not in the form. -/
theorem dumpOnto_relocate (f : Nat → Nat) (e : Expr) (tail : Text) :
    (e.relocate f).dumpOnto tail = e.dumpOnto tail := by
  induction e generalizing tail with
  | int | float | identifier | hole => rfl
  | binary left operator right ihleft ihright =>
    rw [relocate, dumpOnto, dumpOnto, ihleft, ihright]
    rfl

/-- What stands behind the first word of the form. -/
def afterWord : Expr → Text → Text
  | binary left _ right, tail =>
    Text.lit "(" ++ left.dumpOnto (Text.lit ", " ++ right.dumpOnto (Text.lit ")" ++ tail))
  | int _, tail | float _, tail | identifier _, tail | hole, tail => tail

theorem dumpOnto_eq (e : Expr) (tail : Text) : e.dumpOnto tail = e.word ++ e.afterWord tail := by
  cases e with
  | int | float | identifier | hole => rfl
  | binary left operator right => exact List.append_assoc _ _ _

theorem closes_afterWord (e : Expr) {tail : Text} (h : Closes tail) :
    Closes (e.afterWord tail) := by
  cases e with
  | int | float | identifier | hole => exact h
  | binary left operator right => exact closes_cons rfl _

namespace IsLegible

variable {left right : Expr} {operator : Token}

theorem parts (h : (binary left operator right).IsLegible) :
    left.IsLegible ∧ right.IsLegible ∧ operator.kind.isOperator = true ∧
      operator.text = operator.kind.name := by
  obtain ⟨hoperands, hoperators⟩ := h
  obtain ⟨hleft, hright⟩ := List.forall_mem_append.mp hoperands
  obtain ⟨hopleft, hrest⟩ := List.forall_mem_append.mp hoperators
  obtain ⟨hop, hopright⟩ := List.forall_mem_cons.mp hrest
  exact ⟨⟨hleft, hopleft⟩, ⟨hright, hopright⟩, hop⟩

/-- A tree is an operand, or an operator with two operands. -/
theorem operand_or_binary {e : Expr} (h : e.IsLegible) :
    e.IsOperand ∨ ∃ left operator right, e = binary left operator right := by
  cases e with
  | int | float | identifier | hole => exact .inl (h.operands _ (List.mem_singleton_self _))
  | binary left operator right => exact .inr ⟨left, operator, right, rfl⟩

theorem word_bytes {e : Expr} (h : e.IsLegible) : ∀ b ∈ e.word, isDelimiter b = false := by
  rcases h.operand_or_binary with hoperand | ⟨left, operator, right, rfl⟩
  · exact hoperand.word_bytes
  · exact TokenKind.bytes_name h.parts.2.2.1

/-- The form starts with the same word, and goes on in the same way. -/
theorem word_eq {e e' : Expr} (h : e.IsLegible) (h' : e'.IsLegible) {tail tail' : Text}
    (htail : Closes tail) (htail' : Closes tail') (hdump : e.dumpOnto tail = e'.dumpOnto tail') :
    e.word = e'.word ∧ e.afterWord tail = e'.afterWord tail' := by
  rw [dumpOnto_eq, dumpOnto_eq] at hdump
  exact delimited_inj h.word_bytes h'.word_bytes (e.closes_afterWord htail)
    (e'.closes_afterWord htail') hdump

theorem eq_of_isOperand {e e' : Expr} (h : e.IsOperand) (h' : e'.IsLegible) {tail tail' : Text}
    (hword : e.word = e'.word) (hafter : e.afterWord tail = e'.afterWord tail') :
    e = e' ∧ tail = tail' := by
  have hend {a : Expr} (ha : a.IsOperand) (tail : Text) : a.afterWord tail = tail := by
    cases a with
    | int | float | identifier => rfl
    | binary | hole => cases ha
  rcases h'.operand_or_binary with hoperand | ⟨left, operator, right, rfl⟩
  · rw [hend h, hend hoperand] at hafter
    exact ⟨h.eq_of_word_eq hoperand hword, hafter⟩
  · exact absurd hword (h.word_ne_name h'.parts.2.2.1)

/-- **The form can be read in one way only**, and ends in one place only. -/
theorem dumpOnto_inj {e e' : Expr} (h : e.IsLegible) (h' : e'.IsLegible) {tail tail' : Text}
    (htail : Closes tail) (htail' : Closes tail') (hdump : e.dumpOnto tail = e'.dumpOnto tail') :
    e.relocate (fun _ => 0) = e'.relocate (fun _ => 0) ∧ tail = tail' := by
  induction e generalizing e' tail tail' with
  | int | float | identifier | hole =>
    obtain ⟨hword, hafter⟩ := h.word_eq h' htail htail' hdump
    have hoperand := h.operands _ (List.mem_singleton_self _)
    obtain ⟨rfl, rfl⟩ := eq_of_isOperand hoperand h' hword hafter
    exact ⟨rfl, rfl⟩
  | binary left operator right ihleft ihright =>
    obtain ⟨hword, hafter⟩ := h.word_eq h' htail htail' hdump
    obtain ⟨hleft, hright, hop, htext⟩ := h.parts
    rcases h'.operand_or_binary with hoperand | ⟨left', operator', right', rfl⟩
    · exact absurd hword.symm (hoperand.word_ne_name hop)
    · obtain ⟨hleft', hright', hop', htext'⟩ := h'.parts
      have hkind : operator.kind = operator'.kind := TokenKind.name_inj hop hop' hword
      -- the left operand ends at the comma, and the right one at the bracket
      have hcomma (rest : Text) : Closes (Text.lit ", " ++ rest) := closes_cons rfl _
      have hbracket (rest : Text) : Closes (Text.lit ")" ++ rest) := closes_cons rfl _
      obtain ⟨hl, hrest⟩ := ihleft hleft hleft' (hcomma _) (hcomma _)
        (List.append_cancel_left hafter)
      obtain ⟨hr, hend⟩ := ihright hright hright' (hbracket _) (hbracket _)
        (List.append_cancel_left hrest)
      refine ⟨?_, List.append_cancel_left hend⟩
      rw [relocate, relocate, hl, hr, Token.relocate, Token.relocate, htext, htext', hkind]

end IsLegible

end Expr

/-- **The operator-first form identifies the tree of an equation**, up to the places of the
operators: of two trees that equations are read as, whatever the equations and the options, the
forms are the same if and only if the trees are the same with all places set to zero. -/
theorem dump_eq_iff {skipBlanks skipBlanks' : Bool} {equation equation' : Text} {tree tree' : Expr}
    (h : parse skipBlanks equation = .ok tree) (h' : parse skipBlanks' equation' = .ok tree') :
    tree.dump = tree'.dump ↔ tree.relocate (fun _ => 0) = tree'.relocate (fun _ => 0) := by
  constructor
  · intro hdump
    exact ((isEquation_of_parse h).isLegible.dumpOnto_inj (isEquation_of_parse h').isLegible
      Expr.closes_nil Expr.closes_nil hdump).1
  · intro htree
    rw [Expr.dump, Expr.dump, ← Expr.dumpOnto_relocate (fun _ => 0), htree, Expr.dumpOnto_relocate]

/-- For example, `a=b` and `a = b` have the form `=(a, b)`, and the same tree up to the place of the
equality sign. -/
theorem dump_eq_iff_of_blanks :
    let assignment (p : Nat) : Expr :=
      .binary (.identifier (Text.lit "a")) ⟨.assign, Text.lit "=", p⟩ (.identifier (Text.lit "b"))
    parse false (Text.lit "a=b") = .ok (assignment 1) ∧
      parse true (Text.lit "a = b") = .ok (assignment 2) ∧
      (assignment 1).dump = Text.lit "=(a, b)" ∧ (assignment 2).dump = Text.lit "=(a, b)" ∧
      (assignment 1).relocate (fun _ => 0) = (assignment 2).relocate (fun _ => 0) := by
  intro assignment
  have hsolid : (Scan.ofText false (Text.lit "a=b")).tokens = ([⟨.identifier, Text.lit "a", 0⟩,
      ⟨.assign, Text.lit "=", 1⟩, ⟨.identifier, Text.lit "b", 2⟩, ⟨.eof, [], 3⟩], none) := by
    decide +kernel
  have hspaced : (Scan.ofText true (Text.lit "a = b")).tokens = ([⟨.identifier, Text.lit "a", 0⟩,
      ⟨.assign, Text.lit "=", 2⟩, ⟨.identifier, Text.lit "b", 4⟩, ⟨.eof, [], 5⟩], none) := by
    decide +kernel
  have hparse : parse false (Text.lit "a=b") = .ok (assignment 1) :=
    parse_of_two_names hsolid rfl rfl rfl rfl
  have hparse' : parse true (Text.lit "a = b") = .ok (assignment 2) :=
    parse_of_two_names hspaced rfl rfl rfl rfl
  exact ⟨hparse, hparse', rfl, rfl, (dump_eq_iff hparse hparse').mp rfl⟩

end Reckon
