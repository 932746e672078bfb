import Reckon.Proofs.Eval.Staging
import Reckon.Proofs.Parser.Places
import Reckon.Proofs.Session.Atomicity
import Reckon.Proofs.Session.Refinement

/-!
# What is told of an equation is one line

A value is written, or a message is given, as one line of text (`SessionOptions.oneLine_eval`).
Numbers and quoted texts are one line in any case. What is shown as it is are the names of the
equation, in the confirmation of an assignment and in the operator-first form of a tree that cannot
be assigned to; and names are words of the equation.

A bound value is written, too, when its name is looked up, so what the table holds has to be written
in one line (`Legible`). Numbers and truth values are, so every table that starts without bindings
stays so.
-/

namespace Reckon

open Text

/-! ### Trees -/

namespace Expr

/-- The names in a tree. -/
def names : Expr → List Text
  | identifier name => [name]
  | binary left _ right => left.names ++ right.names
  | int _ | float _ | hole => []

theorem names_literal {t : Token} : ∀ name ∈ t.literal.names, name = t.text := by
  rw [Token.literal]
  split <;> simp [names]

/-- The names in a chain are those of its parts. -/
theorem mem_names_foldl {links : List Link} {tree : Expr} {name : Text}
    (h : name ∈ (links.foldl Link.onto tree).names) :
    name ∈ tree.names ∨ ∃ k ∈ links, name ∈ k.tree.names := by
  induction links generalizing tree with
  | nil => exact .inl h
  | cons k links ih =>
    rcases ih h with hmem | ⟨k', hk', hmem⟩
    · rcases List.mem_append.mp hmem with hmem | hmem
      · exact .inl hmem
      · exact .inr ⟨k, List.mem_cons_self, hmem⟩
    · exact .inr ⟨k', List.mem_cons_of_mem k hk', hmem⟩

end Expr

/-- **The names in a tree are texts of its tokens.** -/
theorem Derives.names {phrase : Phrase} {tokens : List Token} {tree : Expr}
    (h : Derives phrase tokens tree) : ∀ name ∈ tree.names, ∃ t ∈ tokens, name = t.text := by
  induction h with
  | int kind | float kind | identifier kind =>
    exact fun name hname => ⟨_, List.mem_singleton_self _, Expr.names_literal name hname⟩
  | group left inner right ih =>
    intro name hname
    obtain ⟨t, ht, heq⟩ := ih name hname
    exact ⟨t, List.mem_cons_of_mem _ (List.mem_append_left _ ht), heq⟩
  | @chain phrase part first tree links hpart head operators parts ih ih' =>
    intro name hname
    rcases Expr.mem_names_foldl hname with hname | ⟨k, hk, hname⟩
    · obtain ⟨t, ht, heq⟩ := ih name hname
      exact ⟨t, List.mem_append_left _ ht, heq⟩
    · obtain ⟨t, ht, heq⟩ := ih' k hk name hname
      refine ⟨t, List.mem_append_right _ (List.mem_flatMap.mpr ⟨k, hk, ?_⟩), heq⟩
      exact List.mem_cons_of_mem _ ht

/-- The names of an equation that is read are one line. -/
theorem oneLine_names_of_parse {skipBlanks : Bool} {equation : Text} {tree : Expr}
    (h : parse skipBlanks equation = .ok tree) : ∀ name ∈ tree.names, OneLine name := by
  obtain ⟨tokens, eof, hlexed, -, -, hderives⟩ := derives_of_parse h
  intro name hname
  obtain ⟨t, ht, rfl⟩ := hderives.names name hname
  have hstands := (Lexer.standsIn_tokenize skipBlanks equation).1
  rw [hlexed] at hstands
  exact (hstands t (List.mem_append_left _ ht)).oneLine

theorem TokenKind.oneLine_name (kind : TokenKind) : OneLine kind.name := by
  cases kind with
  | other code => exact oneLine_nil
  | _ => decide

theorem Expr.oneLine_dumpOnto {e : Expr} (h : ∀ name ∈ e.names, OneLine name) {tail : Text}
    (htail : OneLine tail) : OneLine (e.dumpOnto tail) := by
  induction e generalizing tail with
  | int n => exact oneLine_append.mpr ⟨oneLine_ofInt _, htail⟩
  | float x => exact oneLine_append.mpr ⟨FloatLayout.oneLine_format _ _, htail⟩
  | identifier name => exact oneLine_append.mpr ⟨h name (List.mem_singleton_self _), htail⟩
  | binary left operator right ihleft ihright =>
    obtain ⟨hleft, hright⟩ := List.forall_mem_append.mp h
    rw [dumpOnto, oneLine_append, oneLine_append]
    refine ⟨⟨TokenKind.oneLine_name _, by decide⟩, ihleft hleft ?_⟩
    refine oneLine_append.mpr ⟨by decide, ihright hright ?_⟩
    exact oneLine_append.mpr ⟨by decide, htail⟩
  | hole => exact htail

/-! ### Evaluation -/

/-- What is told of an evaluation: its value, or why there is none. -/
def told : Except EvalError Value → Text
  | .ok v => v.text
  | .error e => e.message

theorem Number.oneLine_text (n : Number) : OneLine n.text := by
  cases n with
  | int n => exact oneLine_ofInt _
  | float x => exact FloatLayout.oneLine_format _ _

theorem Value.oneLine_text_of_plain {v : Value} (h : v.isAssignment = false) : OneLine v.text := by
  cases v with
  | number n => exact n.oneLine_text
  | bool b => cases b <;> decide
  | assignment name value => cases h

namespace Number

theorem oneLine_told_map {r : Except EvalError Number} (h : ∀ e, r = .error e → OneLine e.message) :
    OneLine (told (r.map .number)) := by
  cases r with
  | ok n => exact n.oneLine_text
  | error e => exact h e rfl

theorem oneLine_of_checked {result : Int64 × Bool} {e : EvalError}
    (h : checked result = .error e) : OneLine e.message := by
  rw [checked] at h
  split at h <;> cases h
  decide

theorem oneLine_of_divide {a b : Number} {e : EvalError} (h : divide a b = .error e) :
    OneLine e.message := by
  rw [divide] at h
  split at h <;> cases h
  decide

theorem oneLine_of_arith {kind : TokenKind} {a b : Number} {e : EvalError}
    (h : arith kind a b = .error e) : OneLine e.message := by
  unfold arith at h
  split at h
  · split at h
    · exact oneLine_of_checked h
    · exact oneLine_of_checked h
    · exact oneLine_of_checked h
    · cases h
      exact oneLine_append.mpr ⟨by decide, kind.oneLine_name⟩
  · split at h <;> cases h
    exact oneLine_append.mpr ⟨by decide, kind.oneLine_name⟩

theorem oneLine_told_apply (tolerance : Float) (kind : TokenKind) (a b : Number) :
    OneLine (told (apply tolerance kind a b)) := by
  unfold apply
  split
  · exact Value.oneLine_text_of_plain rfl
  · exact oneLine_told_map fun e => oneLine_of_divide
  · exact oneLine_told_map fun e => oneLine_of_arith

end Number

theorem oneLine_operand (operator : Token) {v : Value} (hv : OneLine v.text) :
    OneLine (EvalError.message (.operand operator.text v)) := by
  simp only [EvalError.message, oneLine_append]
  exact ⟨⟨⟨by decide, oneLine_quote _⟩, by decide⟩, hv⟩

/-- What is told of an operator on values of one line is one line. -/
theorem Value.oneLine_told_apply (tolerance : Float) (operator : Token) {left right : Value}
    (hleft : OneLine left.text) (hright : OneLine right.text) :
    OneLine (told (left.apply tolerance operator right)) := by
  rw [Value.apply_eq]
  split
  · exact oneLine_operand operator hleft
  · split
    · exact oneLine_operand operator hright
    · exact Number.oneLine_told_apply tolerance _ _ _

/-! ### Tables -/

/-- The values that are bound are each written in one line. -/
def Legible (table : Table) : Prop := ∀ name v, table.find? name = some v → OneLine v.text

theorem Plain.legible {table : Table} (h : Plain table) : Legible table :=
  fun name v hv => Value.oneLine_text_of_plain (h name v hv)

theorem Legible.insert {table : Table} (h : Legible table) (name : Text) (x : Number) :
    Legible (table.insert name (.number x)) := by
  intro other w hw
  rw [Dict.find?_insert] at hw
  split at hw
  · obtain rfl := Option.some.inj hw
    exact x.oneLine_text
  · exact h other w hw

namespace Expr

theorem oneLine_assignFailure {target : Expr} (h : ∀ name ∈ target.names, OneLine name) :
    OneLine (told (.error (assignFailure target))) := by
  rw [assignFailure]
  split
  · rename_i text htext
    rw [dump?] at htext
    split at htext <;> cases htext
    exact oneLine_append.mpr ⟨by decide, oneLine_dumpOnto h oneLine_nil⟩
  · exact oneLine_nil

/-- **What is told of an evaluation is one line**, and a legible table stays so. -/
theorem oneLine_told_eval (tolerance : Float) {e : Expr} (hnames : ∀ name ∈ e.names, OneLine name)
    {table : Table} (htable : Legible table) :
    OneLine (told (e.eval tolerance table).1) ∧ Legible (e.eval tolerance table).2 := by
  induction e generalizing table with
  | int n => exact ⟨oneLine_ofInt _, htable⟩
  | float x => exact ⟨FloatLayout.oneLine_format _ _, htable⟩
  | hole => exact ⟨(by decide : OneLine (EvalError.message (.malformed .missingOperand))), htable⟩
  | identifier name =>
    rw [eval]
    split
    · rename_i v hv
      exact ⟨htable name v hv, htable⟩
    · simp only [told, EvalError.message, oneLine_append]
      exact ⟨⟨⟨by decide, oneLine_quote _⟩, by decide⟩, htable⟩
  | binary left operator right ihleft ihright =>
    obtain ⟨hleft, hright⟩ := List.forall_mem_append.mp hnames
    by_cases hk : operator.kind = .assign
    · rw [eval_assign hk]
      cases left with
      | identifier name =>
        -- the confirmation shows the name as it is
        dsimp only
        obtain ⟨htold, hafter⟩ := ihright hright htable
        rcases h : right.eval tolerance table with ⟨e | v, after⟩ <;> rw [h] at htold hafter
        · exact ⟨htold, hafter⟩
        · dsimp only
          split
          · exact ⟨oneLine_operand operator htold, hafter⟩
          · rename_i x hx
            obtain rfl := Value.eq_number_of_number? hx
            refine ⟨?_, hafter.insert name x⟩
            simp only [told, Value.text, oneLine_append]
            exact ⟨⟨hleft name (List.mem_singleton_self _), by decide⟩, x.oneLine_text⟩
      | int | float | binary | hole => exact ⟨oneLine_assignFailure hleft, htable⟩
    · rw [eval_operator hk]
      obtain ⟨htold, hafter⟩ := ihleft hleft htable
      rcases h : left.eval tolerance table with ⟨e | a, after⟩ <;> rw [h] at htold hafter
      · exact ⟨htold, hafter⟩
      · dsimp only
        obtain ⟨htold', hlast⟩ := ihright hright hafter
        rcases h' : right.eval tolerance after with ⟨e | b, last⟩ <;> rw [h'] at htold' hlast
        · exact ⟨htold', hlast⟩
        · exact ⟨Value.oneLine_told_apply tolerance operator htold htold', hlast⟩

end Expr

/-- **What is told of an equation is one line.** -/
theorem SessionOptions.oneLine_eval (o : SessionOptions) {table : Table} (htable : Legible table)
    (equation : Text) :
    match (o.eval table equation).1 with
    | .ok v => OneLine v.text
    | .error e => OneLine e.message := by
  rw [SessionOptions.eval]
  rcases hparse : parse o.skipBlanks equation with e | tree
  · exact (parse_error_place hparse).2
  · -- the equation is evaluated on a stage, with the result that it has on the table
    have htold := (Expr.oneLine_told_eval o.tolerance (oneLine_names_of_parse hparse) htable).1
    rw [← Expr.eval_ofTable] at htold
    dsimp only
    rcases h : tree.eval o.tolerance (Stage.ofTable table) with ⟨e | v, stage⟩ <;> rw [h] at htold
    · exact htold
    · exact htold

/-- A legible table stays so. -/
theorem SessionOptions.legible_eval (o : SessionOptions) {table : Table} (htable : Legible table)
    (equation : Text) : Legible (o.eval table equation).2 := by
  rw [SessionOptions.eval]
  rcases hparse : parse o.skipBlanks equation with e | tree
  · exact htable
  · have hafter := (Expr.oneLine_told_eval o.tolerance (oneLine_names_of_parse hparse) htable).2
    rw [← Expr.commit_ofTable] at hafter
    dsimp only
    rcases h : tree.eval o.tolerance (Stage.ofTable table) with ⟨e | v, stage⟩ <;> rw [h] at hafter
    · exact htable
    · exact hafter

/-- A failure that has a place is at a cut of the equation. -/
theorem SessionOptions.cut_of_eval_error {o : SessionOptions} {table : Table} {equation : Text}
    {e : EquationError} (h : (o.eval table equation).1 = .error e) {pos : Nat}
    (hpos : e.pos? = some pos) :
    ∃ before after, equation.Cut before after ∧ before.length = pos := by
  cases e with
  | eval e => cases hpos
  | input e =>
    cases hpos
    rw [SessionOptions.eval] at h
    rcases hparse : parse o.skipBlanks equation with e' | tree <;> rw [hparse] at h
    · cases h
      exact (parse_error_place hparse).1
    · dsimp only at h
      split at h <;> cases h

end Reckon
