import Reckon.Proofs.Decimal.Sign
import Reckon.Proofs.Eval.Kind
import Reckon.Proofs.Parser.Names
import Reckon.Proofs.Session.Refinement

/-!
# What equations are read as

The operands of a tree that was read are the literals among its tokens, and its operators are the
operators among them, both in their order (`Derives.leaves_eq`, `Derives.operators_eq`). So all that
is known of the words of an equation holds of its tree (`isEquation_of_parse`): no operand is
missing, numbers are not negative and finite, names are names, operators are written as they are
called, and at most one of them is an equality sign.

The evaluation has no case for any other tree, and none for an operator on something else than
numbers. `equation_never_goes_wrong` says that no equation leads it there, whatever its names stand
for, and that every operator that the parser goes on with makes a tree.
-/

namespace Reckon

/-! ### Operands and operators -/

namespace Expr

/-- The operands of a tree, from left to right. -/
def leaves : Expr → List Expr
  | binary left _ right => left.leaves ++ right.leaves
  | e => [e]

/-- The operators of a tree, from left to right. -/
def operators : Expr → List Token
  | binary left operator right => left.operators ++ operator :: right.operators
  | int _ | float _ | identifier _ | hole => []

/-- What can be an operand of an equation: an integer or a finite double, neither of them negative,
or a name. -/
def IsOperand : Expr → Prop
  | int n => 0 ≤ n.toInt ∧ n.toInt ≤ 0x7fffffffffffffff
  | float x => ∃ m q, Binary64.ofFloat x = .finite false m q
  | identifier name => name.IsName
  | binary .. | hole => False

/-- What an equation can be read as. -/
structure IsEquation (e : Expr) : Prop where
  operands : ∀ leaf ∈ e.leaves, leaf.IsOperand
  operators : ∀ t ∈ e.operators, t.kind.isOperator = true ∧ t.text = t.kind.name
  /-- At most one operator is an equality sign. -/
  one_sign : e.operators.countP (fun t => t.kind.isEqualitySign) ≤ 1

theorem leaves_foldl (links : List Link) (tree : Expr) :
    (links.foldl Link.onto tree).leaves = tree.leaves ++ links.flatMap fun k => k.tree.leaves := by
  induction links generalizing tree with
  | nil => exact (List.append_nil _).symm
  | cons k links ih =>
    rw [List.foldl_cons, ih, Link.onto, leaves, List.flatMap_cons, List.append_assoc]

theorem operators_foldl (links : List Link) (tree : Expr) :
    (links.foldl Link.onto tree).operators =
      tree.operators ++ links.flatMap fun k => k.operator :: k.tree.operators := by
  induction links generalizing tree with
  | nil => exact (List.append_nil _).symm
  | cons k links ih =>
    rw [List.foldl_cons, ih, Link.onto, operators, List.flatMap_cons, List.append_assoc]

theorem leaves_literal (t : Token) : t.literal.leaves = [t.literal] := by
  rw [Token.literal]
  split <;> rfl

theorem operators_literal (t : Token) : t.literal.operators = [] := by
  rw [Token.literal]
  split <;> rfl

/-- Every operator of an equation is one, and has its operands. -/
theorem IsEquation.isComplete {e : Expr} (h : e.IsEquation) : e.isComplete = true := by
  obtain ⟨hoperands, hoperators, -⟩ := h
  induction e with
  | int | float | identifier => rfl
  | hole => exact (hoperands hole (List.mem_singleton_self _)).elim
  | binary left operator right ihleft ihright =>
    obtain ⟨hleft, hright⟩ := List.forall_mem_append.mp hoperands
    obtain ⟨hopleft, hrest⟩ := List.forall_mem_append.mp hoperators
    obtain ⟨hop, hopright⟩ := List.forall_mem_cons.mp hrest
    rw [Expr.isComplete, hop.1, ihleft hleft hopleft, ihright hright hopright]
    rfl

end Expr

namespace Derives

variable {phrase : Phrase} {tokens : List Token} {tree : Expr}

/-- The operators of a phrase are operators, and no literals. -/
theorem operator_cases {t : Token} (h : t.kind ∈ phrase.operators) :
    t.kind.isOperator = true ∧ t.isLiteral = false := by
  have hpower := (phrase.mem_operators_iff t.kind).mp h
  rw [Token.isLiteral]
  generalize t.kind = kind at hpower ⊢
  cases kind <;> first | exact ⟨rfl, rfl⟩ | exact absurd hpower (Nat.succ_ne_zero _).symm

/-- **The operands of a tree are the literals among its tokens.** -/
theorem leaves_eq (h : Derives phrase tokens tree) :
    tree.leaves = (tokens.filter Token.isLiteral).map Token.literal := by
  induction h with
  | int kind | float kind | identifier kind =>
    rw [Expr.leaves_literal]
    simp [Token.isLiteral, kind]
  | group left inner right ih =>
    rw [ih]
    simp [Token.isLiteral, left, right]
  | chain links part_eq head operators parts ih ih' =>
    rw [Expr.leaves_foldl, ih, List.filter_append, List.map_append, List.filter_flatMap,
      List.map_flatMap]
    refine congrArg _ (List.flatMap_congr fun k hk => ?_)
    rw [ih' k hk, Link.tokens, List.filter_cons_of_neg]
    exact Bool.eq_false_iff.mp (operator_cases (operators k hk)).2

/-- **The operators of a tree are the operators among its tokens.** -/
theorem operators_eq (h : Derives phrase tokens tree) :
    tree.operators = tokens.filter fun t => t.kind.isOperator := by
  induction h with
  | int kind | float kind | identifier kind =>
    rw [Expr.operators_literal]
    simp [TokenKind.isOperator, kind]
  | group left inner right ih =>
    rw [ih]
    simp [TokenKind.isOperator, left, right]
  | chain links part_eq head operators parts ih ih' =>
    rw [Expr.operators_foldl, ih, List.filter_append, List.filter_flatMap]
    refine congrArg _ (List.flatMap_congr fun k hk => ?_)
    rw [ih' k hk, Link.tokens, List.filter_cons_of_pos]
    exact (operator_cases (operators k hk)).1

end Derives

/-! ### Words -/

/-- A text of ASCII characters is made of their bytes. -/
theorem Text.eq_map_of_ascii {t : Text} (h : ∀ r ∈ t.runes, r.char.toNat < 0x80) :
    t = t.runes.map fun r => r.char.toUInt8 := by
  conv => lhs; rw [← spell_runes t, Rune.spell]
  rw [List.map_eq_flatMap]
  exact List.flatMap_congr fun r hr => spelling_of_ascii hr (h r hr)

namespace Token

variable {t : Token}

/-- An operator is written as it is called. -/
theorem IsWord.text_eq_name (h : t.IsWord) (hop : t.kind.isOperator = true) :
    t.text = t.kind.name := by
  have hspell := Text.eq_map_of_ascii (t := t.text)
  obtain ⟨kind, text, pos⟩ := t
  dsimp only [Token.IsWord] at h hop hspell ⊢
  generalize text.runes = rs at h hspell
  cases h with
  | assign sign =>
    rw [hspell (by simp [sign])]
    simp only [List.map_cons, List.map_nil, sign]
    rfl
  | equal first second =>
    rw [hspell (by simp [first, second])]
    simp only [List.map_cons, List.map_nil, first, second]
    rfl
  | number first chars last kind_eq =>
    rw [kind_eq] at hop
    split at hop <;> contradiction
  | name first chars => contradiction
  | single symbol =>
    unfold Lexer.single? at symbol
    split at symbol <;> cases symbol
    any_goals contradiction
    all_goals
      rename_i hchar
      rw [hspell (by simp [hchar])]
      simp only [List.map_cons, List.map_nil, hchar]
      rfl

/-- What a literal stands for is an operand of an equation. -/
theorem IsWord.isOperand_literal (h : t.IsWord) (hliteral : t.isLiteral = true)
    (hconv : t.Converts) : t.literal.IsOperand := by
  simp only [isLiteral, Bool.or_eq_true, decide_eq_true_eq] at hliteral
  rw [literal]
  rcases hliteral with (hk | hk) | hk <;> rw [hk] <;> dsimp only
  · have hsize := hconv.1 hk
    have hvalue : (Int64.ofNat (Text.digitsToNat t.text)).toInt = Text.digitsToNat t.text :=
      Int64.toInt_ofNat_of_lt (by omega)
    rw [Expr.IsOperand, hvalue]
    omega
  · exact Binary64.exists_of_isUnsigned (Binary64.isUnsigned_ofScientific _ _) (hconv.2 hk).2
  · exact h.isName hk

end Token

/-! ### Whole equations -/

/-- **What an equation is read as.** -/
theorem isEquation_of_parse {skipBlanks : Bool} {equation : Text} {tree : Expr}
    (h : parse skipBlanks equation = .ok tree) : tree.IsEquation := by
  obtain ⟨tokens, eof, hlexed, -, hconv, hderives⟩ := derives_of_parse h
  obtain ⟨ws, -, htokens, -, -, hwords, -⟩ := exists_layout_of_parse h
  rw [htokens, hlexed] at hwords
  -- all tokens before the end are words, and there is nothing else in the tree
  have hword := hwords.isWord_of_append.1
  refine ⟨fun leaf hleaf => ?_, fun t ht => ?_, ?_⟩
  · rw [hderives.leaves_eq] at hleaf
    obtain ⟨t, ht, rfl⟩ := List.mem_map.mp hleaf
    obtain ⟨hmem, hliteral⟩ := List.mem_filter.mp ht
    exact (hword t hmem).isOperand_literal hliteral (hconv t hmem)
  · rw [hderives.operators_eq] at ht
    obtain ⟨hmem, hop⟩ := List.mem_filter.mp ht
    exact ⟨hop, (hword t hmem).text_eq_name hop⟩
  · have hsigns := Scan.countP_tokens_le (Scan.ofText skipBlanks equation)
    rw [← Lexer.drain_eq_tokens (Lexer.agrees_ofText skipBlanks equation)] at hsigns
    rw [Lexer.tokenize] at hlexed
    rw [hlexed] at hsigns
    rw [hderives.operators_eq]
    -- fewer operators than tokens can be equality signs
    refine Nat.le_trans (List.Sublist.countP_le ?_) hsigns
    exact List.filter_sublist.trans (List.sublist_append_left _ _)

/-- No tree that an equation is read as leads the evaluation to a case that it does not have. -/
theorem Expr.IsEquation.eval_ne_malformed {σ : Type} [Scope σ] {e : Expr} (h : e.IsEquation)
    (tolerance : Float) (s : σ) (m : Malformed) : (e.eval tolerance s).1 ≠ .error (.malformed m) := by
  have hends := Expr.endsAs_eval tolerance h.isComplete s
  rcases hkind : e.kind? s with _ | k <;> rw [hkind] at hends <;> intro heq <;> rw [heq] at hends
  · exact hends m rfl
  · rcases hends with hends | hends <;> cases hends

/-- **No equation goes wrong.** Whatever the options, every tree that an equation is read as has all
its operands, which are names and numbers that are not negative, its operators are among the six and
written as they are called, and at most one of them is an equality sign. So it is evaluated without
coming to a case that the evaluation does not have, in every scope, whatever is bound there; and so is
the equation by every session. Where the parser goes on with an operator, it knows the tree that the
operator makes. -/
theorem equation_never_goes_wrong (skipBlanks : Bool) (equation : Text) :
    (∀ tree, parse skipBlanks equation = .ok tree →
      tree.IsEquation ∧
        ∀ {σ : Type} [Scope σ] (tolerance : Float) (s : σ) (m : Malformed),
          (tree.eval tolerance s).1 ≠ .error (.malformed m)) ∧
      (∀ (session : Session) (table : Table) (m : Malformed),
        (session.eval table equation).1 ≠ .error (.eval (.malformed m))) ∧
      ∀ kind : TokenKind, 0 < kind.power ↔ kind.join?.isSome = true := by
  refine ⟨fun tree h => ?_, fun session table m heq => ?_, fun kind => ?_⟩
  · have htree := isEquation_of_parse h
    exact ⟨htree, fun tolerance s => htree.eval_ne_malformed tolerance s⟩
  · rw [(session.eval_eq table equation).1, SessionOptions.eval] at heq
    rcases hparse : parse session.options.skipBlanks equation with e | tree <;> rw [hparse] at heq
    · cases heq
    · have hne := (isEquation_of_parse hparse).eval_ne_malformed session.options.tolerance
        (Stage.ofTable table) m
      dsimp only at heq
      rcases heval : tree.eval session.options.tolerance (Stage.ofTable table) with ⟨e | v, stage⟩ <;>
        rw [heval] at heq hne
      · cases heq
        exact hne rfl
      · cases heq
  · refine ⟨TokenKind.isSome_join?, fun h => ?_⟩
    cases kind <;> first | decide | contradiction

/-- For example, `a=b` is read as an assignment, which is refused where `b` is a truth value. -/
theorem equation_never_goes_wrong_of_assigned_truth :
    let tree := Expr.binary (.identifier (Text.lit "a")) ⟨.assign, Text.lit "=", 1⟩
      (.identifier (Text.lit "b"))
    let table : Table := Dict.empty.insert (Text.lit "b") (.bool true)
    parse true (Text.lit "a=b") = .ok tree ∧ tree.IsEquation ∧
      (tree.eval 0 table).1 = .error (.operand (Text.lit "=") (.bool true)) ∧
      ∀ m, (tree.eval 0 table).1 ≠ .error (.malformed m) := by
  intro tree table
  have htokens : (Scan.ofText true (Text.lit "a=b")).tokens = ([⟨.identifier, Text.lit "a", 0⟩,
      ⟨.assign, Text.lit "=", 1⟩, ⟨.identifier, Text.lit "b", 2⟩, ⟨.eof, [], 3⟩], none) := by
    decide +kernel
  have hparse : parse true (Text.lit "a=b") = .ok tree := parse_of_two_names htokens rfl rfl rfl rfl
  obtain ⟨htree, hgood⟩ := (equation_never_goes_wrong true (Text.lit "a=b")).1 tree hparse
  exact ⟨hparse, htree, rfl, hgood 0 table⟩

end Reckon
