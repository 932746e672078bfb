import Reckon.Proofs.Parser.Blanks
import Reckon.Proofs.Session.Messages

/-!
# Equations that do not meet

Two equations do not meet if no name that one of them assigns to is in the other. Then it does not
matter which of them a session evaluates first, also if one or both of them fail:
`Session.eval_commute`.

`Footprint run reads writes` says of something that is done with a table that it looks at no names
but `reads` and changes none but `writes`. Whatever has disjoint footprints commutes
(`Footprint.commute`). An evaluation is put together from looking up a name, storing a number, and
going on after a value, and each of these has a footprint; so a tree has the footprint of its names
and its targets (`Expr.footprint_eval`), and so has an equation in a session, for which a failure
undoes everything (`SessionOptions.footprint_eval`).
-/

namespace Reckon

/-! ### Footprints -/

/-- Tables that have the same values for some names. -/
def Table.Agree (names : List Text) (s t : Table) : Prop :=
  ∀ name ∈ names, s.find? name = t.find? name

/-- What is done with a table depends on the values of some names only, and changes only some of
these. -/
structure Footprint {α : Type} (run : Table → α × Table) (reads writes : List Text) : Prop where
  subset : writes ⊆ reads
  /-- All other names keep their values. -/
  frame : ∀ table name, name ∉ writes → (run table).2.find? name = table.find? name
  /-- Other names are not looked at. -/
  congr : ∀ {s t}, Table.Agree reads s t →
    (run s).1 = (run t).1 ∧ Table.Agree reads (run s).2 (run t).2

/-- Goes on with a value, or ends with a failure. -/
def andThen {ε α β : Type} (run : Table → Except ε α × Table)
    (next : α → Table → Except ε β × Table) (table : Table) : Except ε β × Table :=
  match run table with
  | (.error e, after) => (.error e, after)
  | (.ok a, after) => next a after

section AndThen

variable {ε α β : Type} {run : Table → Except ε α × Table} {table after : Table}

theorem andThen_of_ok {a : α} (h : run table = (.ok a, after))
    (next : α → Table → Except ε β × Table) : andThen run next table = next a after := by
  rw [andThen, h]

theorem andThen_of_error {e : ε} (h : run table = (.error e, after))
    (next : α → Table → Except ε β × Table) : andThen run next table = (.error e, after) := by
  rw [andThen, h]

end AndThen

/-- Takes everything back after a failure. -/
def orUndo {ε ε' α : Type} (told : ε → ε') (run : Table → Except ε α × Table) (table : Table) :
    Except ε' α × Table :=
  match run table with
  | (.error e, _) => (.error (told e), table)
  | (.ok a, after) => (.ok a, after)

namespace Footprint

variable {ε ε' α β : Type} {reads reads' writes writes' : List Text}

/-- What neither looks at the table nor changes it. -/
theorem of_result (result : α) (h : writes ⊆ reads) :
    Footprint (fun table => (result, table)) reads writes where
  subset := h
  frame _ _ _ := rfl
  congr hagree := ⟨rfl, hagree⟩

/-- Looking up a name. -/
theorem of_lookup (f : Option Value → α) {name : Text} (h : writes ⊆ reads)
    (hname : name ∈ reads) :
    Footprint (fun table => (f (table.find? name), table)) reads writes where
  subset := h
  frame _ _ _ := rfl
  congr hagree := ⟨by rw [hagree name hname], hagree⟩

/-- Storing a value. -/
theorem of_insert (result : α) {name : Text} (value : Value) (h : writes ⊆ reads)
    (hname : name ∈ writes) :
    Footprint (fun table => (result, table.insert name value)) reads writes where
  subset := h
  frame table other hother := by
    have hne : other ≠ name := fun heq => hother (heq ▸ hname)
    rw [Dict.find?_insert, if_neg hne]
  congr hagree := by
    refine ⟨rfl, fun other hother => ?_⟩
    dsimp only
    rw [Dict.find?_insert, Dict.find?_insert, hagree other hother]

theorem of_eq {run run' : Table → α × Table} (h : Footprint run reads writes)
    (heq : ∀ table, run' table = run table) : Footprint run' reads writes := by
  rwa [show run' = run from funext heq]

/-- A footprint may be taken larger. -/
theorem mono {run : Table → α × Table} (h : Footprint run reads writes) (hreads : reads ⊆ reads')
    (hwrites : writes ⊆ writes') (hsubset : writes' ⊆ reads') :
    Footprint run reads' writes' where
  subset := hsubset
  frame table name hname := h.frame table name fun hmem => hname (hwrites hmem)
  congr {s t} hagree := by
    obtain ⟨hresult, hafter⟩ := h.congr fun name hname => hagree name (hreads hname)
    refine ⟨hresult, fun name hname => ?_⟩
    -- a name that is not looked at is not changed either
    by_cases hread : name ∈ reads
    · exact hafter name hread
    · have hkept : name ∉ writes := fun hmem => hread (h.subset hmem)
      rw [h.frame s name hkept, h.frame t name hkept, hagree name hname]

/-- **Doing one thing after another.** -/
theorem andThen {run : Table → Except ε α × Table} {next : α → Table → Except ε β × Table}
    (h : Footprint run reads writes) (hnext : ∀ a, Footprint (next a) reads writes) :
    Footprint (andThen run next) reads writes where
  subset := h.subset
  frame table name hname := by
    have hrun := h.frame table name hname
    rw [Reckon.andThen]
    rcases hr : run table with ⟨e | a, after⟩ <;> rw [hr] at hrun
    · exact hrun
    · exact ((hnext a).frame after name hname).trans hrun
  congr {s t} hagree := by
    obtain ⟨hresult, hafter⟩ := h.congr hagree
    rw [Reckon.andThen, Reckon.andThen]
    rcases hs : run s with ⟨e | a, s'⟩ <;> rcases ht : run t with ⟨e' | a', t'⟩ <;>
      rw [hs, ht] at hresult hafter <;> cases hresult
    · exact ⟨rfl, hafter⟩
    · exact (hnext a).congr hafter

theorem orUndo {run : Table → Except ε α × Table} (h : Footprint run reads writes)
    (told : ε → ε') : Footprint (orUndo told run) reads writes where
  subset := h.subset
  frame table name hname := by
    have hrun := h.frame table name hname
    rw [Reckon.orUndo]
    rcases hr : run table with ⟨e | a, after⟩
    · rfl
    · rwa [hr] at hrun
  congr {s t} hagree := by
    obtain ⟨hresult, hafter⟩ := h.congr hagree
    rw [Reckon.orUndo, Reckon.orUndo]
    rcases hs : run s with ⟨e | a, s'⟩ <;> rcases ht : run t with ⟨e' | a', t'⟩ <;>
      rw [hs, ht] at hresult hafter <;> cases hresult
    · exact ⟨rfl, hagree⟩
    · exact ⟨rfl, hafter⟩

/-- **What has footprints that do not meet commutes.** -/
theorem commute {f : Table → α × Table} {g : Table → β × Table} (hf : Footprint f reads writes)
    (hg : Footprint g reads' writes') (h : ∀ name ∈ writes, name ∉ reads')
    (h' : ∀ name ∈ writes', name ∉ reads) (table : Table) :
    (f table).1 = (f (g table).2).1 ∧ (g (f table).2).1 = (g table).1 ∧
      (g (f table).2).2 = (f (g table).2).2 := by
  have hfkept : Table.Agree reads (g table).2 table := fun name hname =>
    hg.frame table name fun hmem => h' name hmem hname
  have hgkept : Table.Agree reads' (f table).2 table := fun name hname =>
    hf.frame table name fun hmem => h name hmem hname
  obtain ⟨hfresult, hfafter⟩ := hf.congr hfkept
  obtain ⟨hgresult, hgafter⟩ := hg.congr hgkept
  refine ⟨hfresult.symm, hgresult, Dict.ext_find? fun name => ?_⟩
  -- a name is changed by the one, by the other or by none of them
  by_cases hname : name ∈ writes
  · have hother : name ∉ writes' := fun hmem => h' name hmem (hf.subset hname)
    rw [hg.frame _ name hother, hfafter name (hf.subset hname)]
  · rw [hf.frame _ name hname]
    by_cases hname' : name ∈ writes'
    · exact hgafter name (hg.subset hname')
    · rw [hg.frame _ name hname', hg.frame _ name hname', hf.frame _ name hname]

end Footprint

/-! ### Trees -/

namespace Expr

/-- The name that a tree is, if it is one. -/
def name? : Expr → Option Text
  | identifier name => some name
  | _ => none

/-- The names in a tree that are the left side of an assignment. -/
def targets : Expr → List Text
  | binary left operator right =>
    (if operator.kind = .assign then left.name? else none).toList ++
      (left.targets ++ right.targets)
  | int _ | float _ | identifier _ | hole => []

theorem targets_subset_names (e : Expr) : e.targets ⊆ e.names := by
  induction e with
  | int | float | identifier | hole => exact List.nil_subset _
  | binary left operator right ihleft ihright =>
    have hname : left.name?.toList ⊆ left.names := by
      cases left with
      | identifier name => exact List.Subset.refl _
      | int | float | binary | hole => exact List.nil_subset _
    refine List.append_subset.mpr ⟨?_, List.append_subset.mpr ⟨?_, ?_⟩⟩
    · split
      · exact List.subset_append_of_subset_left _ hname
      · exact List.nil_subset _
    · exact List.subset_append_of_subset_left _ ihleft
    · exact List.subset_append_of_subset_right _ ihright

/-! Evaluation on a table is put together from steps that each have a footprint. -/

variable {tolerance : Float} {left right : Expr} {operator : Token} {name : Text}

theorem eval_identifier (tolerance : Float) (name : Text) (table : Table) :
    (identifier name).eval tolerance table =
      ((table.find? name).elim (.error (.undefined name)) .ok, table) := by
  have hlookup : Scope.lookup table name = table.find? name := rfl
  rw [eval, hlookup]
  cases table.find? name <;> rfl

/-- Storing what the right side of an assignment has come to, if it is a number. -/
def store (operator : Token) (name : Text) (value : Value) (table : Table) :
    Except EvalError Value × Table :=
  match value.number? with
  | none => (.error (.operand operator.text value), table)
  | some _ => (.ok (.assignment name value), table.insert name value)

theorem eval_assign_name (hk : operator.kind = .assign) (table : Table) :
    (binary (identifier name) operator right).eval tolerance table =
      andThen (right.eval tolerance) (store operator name) table := by
  rw [eval_assign hk]
  rcases hright : right.eval tolerance table with ⟨e | value, after⟩
  · rw [andThen_of_error hright]
  · rw [andThen_of_ok hright, store]
    rfl

theorem eval_operator_andThen (hk : operator.kind ≠ .assign) (table : Table) :
    (binary left operator right).eval tolerance table =
      andThen (left.eval tolerance) (fun a => andThen (right.eval tolerance) fun b after =>
        (a.apply tolerance operator b, after)) table := by
  rw [eval_operator hk]
  rcases hleft : left.eval tolerance table with ⟨e | a, after⟩
  · rw [andThen_of_error hleft]
  · rw [andThen_of_ok hleft]
    dsimp only
    rcases hright : right.eval tolerance after with ⟨e | b, last⟩
    · rw [andThen_of_error hright]
    · rw [andThen_of_ok hright]

theorem footprint_store {reads writes : List Text} (h : writes ⊆ reads) (hname : name ∈ writes)
    (operator : Token) (value : Value) : Footprint (store operator name value) reads writes := by
  unfold store
  cases value.number? with
  | none => exact .of_result _ h
  | some x => exact .of_insert _ value h hname

/-- **A tree has the footprint of its names and its targets.** -/
theorem footprint_eval (tolerance : Float) (e : Expr) :
    Footprint (e.eval tolerance : Table → _) e.names e.targets := by
  induction e with
  | int | float | hole => exact .of_result _ (List.nil_subset _)
  | identifier name =>
    have hlookup := Footprint.of_lookup
      (fun found : Option Value => found.elim (Except.error (EvalError.undefined name)) .ok)
      (List.nil_subset [name]) (List.mem_singleton_self name)
    exact hlookup.of_eq (eval_identifier tolerance name)
  | binary left operator right ihleft ihright =>
    have hsubset := (binary left operator right).targets_subset_names
    have hright := ihright.mono (List.subset_append_right _ _)
      (List.subset_append_of_subset_right _ (List.subset_append_right _ _)) hsubset
    by_cases hk : operator.kind = .assign
    · cases left with
      | identifier name =>
        have hname : name ∈ (binary (identifier name) operator right).targets := by
          simp [targets, hk, name?]
        exact (hright.andThen (footprint_store hsubset hname operator)).of_eq (eval_assign_name hk)
      | int | float | binary | hole =>
        exact (Footprint.of_result _ hsubset).of_eq fun table => eval_assign hk
    · have hleft := ihleft.mono (List.subset_append_left _ _)
        (List.subset_append_of_subset_right _ (List.subset_append_left _ _)) hsubset
      have happly := hleft.andThen fun a => hright.andThen fun b =>
        .of_result (a.apply tolerance operator b) hsubset
      exact happly.of_eq (eval_operator_andThen hk)

end Expr

/-! ### Equations -/

namespace SessionOptions

/-- The names in an equation; none if it is not read. -/
def names (o : SessionOptions) (equation : Text) : List Text :=
  match parse o.skipBlanks equation with
  | .ok tree => tree.names
  | .error _ => []

/-- The names that an equation assigns to; none if it is not read. -/
def targets (o : SessionOptions) (equation : Text) : List Text :=
  match parse o.skipBlanks equation with
  | .ok tree => tree.targets
  | .error _ => []

/-- An equation that is read is evaluated on the table itself, but for a failure that takes
everything back. -/
theorem eval_of_parse {o : SessionOptions} {equation : Text} {tree : Expr}
    (h : parse o.skipBlanks equation = .ok tree) (table : Table) :
    o.eval table equation = orUndo .eval (tree.eval o.tolerance) table := by
  have hresult := Expr.eval_ofTable o.tolerance tree table
  have hcommit := Expr.commit_ofTable o.tolerance tree table
  rw [eval, h, orUndo]
  dsimp only
  rcases hs : tree.eval o.tolerance (Stage.ofTable table) with ⟨e | v, stage⟩ <;>
    rcases ht : tree.eval o.tolerance table with ⟨e' | v', after⟩ <;>
    rw [hs, ht] at hresult hcommit <;> cases hresult
  · rfl
  · exact congrArg (Prod.mk (Except.ok v)) hcommit

/-- **An equation has the footprint of its names and its targets.** -/
theorem footprint_eval (o : SessionOptions) (equation : Text) :
    Footprint (fun table => o.eval table equation) (o.names equation) (o.targets equation) := by
  rw [names, targets]
  rcases h : parse o.skipBlanks equation with e | tree
  · refine (Footprint.of_result (.error (.input e)) (List.nil_subset [])).of_eq fun table => ?_
    rw [eval, h]
  · exact ((tree.footprint_eval o.tolerance).orUndo .eval).of_eq (eval_of_parse h)

end SessionOptions

namespace Session

/-- Two equations, one after the other, are evaluated as for the options of the session. -/
theorem eval_after_eval (s : Session) (table : Table) (e₁ e₂ : Text) :
    let one := s.eval table e₁
    let oneTwo := one.2.1.eval one.2.2 e₂
    oneTwo.1 = (s.options.eval (s.options.eval table e₁).2 e₂).1 ∧
      oneTwo.2.2 = (s.options.eval (s.options.eval table e₁).2 e₂).2 := by
  intro one oneTwo
  obtain ⟨-, htable, hoptions⟩ := s.eval_eq table e₁
  obtain ⟨hresult, htable', -⟩ := one.2.1.eval_eq one.2.2 e₂
  rw [← htable, ← hoptions]
  exact ⟨hresult, htable'⟩

/-- **Equations that do not meet commute.** If no name that one of two equations assigns to is in
the other, a session comes to the same value or failure for each of them in both orders, and to the
same table. An equation is told only by the names in it: it comes to the same on every table that
has the same values for these. -/
theorem eval_commute (s : Session) (table : Table) {e₁ e₂ : Text}
    (h₁ : ∀ name ∈ s.options.targets e₁, name ∉ s.options.names e₂)
    (h₂ : ∀ name ∈ s.options.targets e₂, name ∉ s.options.names e₁) :
    let one := s.eval table e₁
    let oneTwo := one.2.1.eval one.2.2 e₂
    let two := s.eval table e₂
    let twoOne := two.2.1.eval two.2.2 e₁
    one.1 = twoOne.1 ∧ oneTwo.1 = two.1 ∧ oneTwo.2.2 = twoOne.2.2 ∧
      ∀ other, Table.Agree (s.options.names e₁) table other → one.1 = (s.eval other e₁).1 := by
  intro one oneTwo two twoOne
  have hone := (s.eval_eq table e₁).1
  have htwo := (s.eval_eq table e₂).1
  obtain ⟨honeTwo, honeTwo'⟩ := s.eval_after_eval table e₁ e₂
  obtain ⟨htwoOne, htwoOne'⟩ := s.eval_after_eval table e₂ e₁
  have hfootprint := s.options.footprint_eval e₁
  obtain ⟨hfirst, hsecond, htable⟩ :=
    hfootprint.commute (s.options.footprint_eval e₂) h₁ h₂ table
  refine ⟨?_, ?_, ?_, fun other hagree => ?_⟩
  · exact hone.trans (hfirst.trans htwoOne.symm)
  · exact honeTwo.trans (hsecond.trans htwo.symm)
  · exact honeTwo'.trans (htable.trans htwoOne'.symm)
  · exact hone.trans ((hfootprint.congr hagree).1.trans (s.eval_eq other e₁).1.symm)

/-- For example, `a=x` and `b=y`, where `y` is undefined: the first equation stores a number and the
second one fails, in both orders. -/
theorem eval_commute_of_one_failure :
    let s := ofOptions ⟨false, 0⟩
    let table : Table := Dict.empty.insert (Text.lit "x") (.number (.int 3))
    let one := s.eval table (Text.lit "a=x")
    let oneTwo := one.2.1.eval one.2.2 (Text.lit "b=y")
    let two := s.eval table (Text.lit "b=y")
    let twoOne := two.2.1.eval two.2.2 (Text.lit "a=x")
    s.options.targets (Text.lit "a=x") = [Text.lit "a"] ∧
      s.options.names (Text.lit "b=y") = [Text.lit "b", Text.lit "y"] ∧
      one.1 = .ok (.assignment (Text.lit "a") (.number (.int 3))) ∧
      two.1 = .error (.eval (.undefined (Text.lit "y"))) ∧
      one.1 = twoOne.1 ∧ oneTwo.1 = two.1 ∧ oneTwo.2.2 = twoOne.2.2 := by
  intro s table one oneTwo two twoOne
  have hlexed : (Scan.ofText false (Text.lit "a=x")).tokens = ([⟨.identifier, Text.lit "a", 0⟩,
      ⟨.assign, Text.lit "=", 1⟩, ⟨.identifier, Text.lit "x", 2⟩, ⟨.eof, [], 3⟩], none) := by
    decide +kernel
  have hlexed' : (Scan.ofText false (Text.lit "b=y")).tokens = ([⟨.identifier, Text.lit "b", 0⟩,
      ⟨.assign, Text.lit "=", 1⟩, ⟨.identifier, Text.lit "y", 2⟩, ⟨.eof, [], 3⟩], none) := by
    decide +kernel
  have hread : Reckon.parse s.options.skipBlanks (Text.lit "a=x") = _ :=
    parse_of_two_names hlexed rfl rfl rfl rfl
  have hread' : Reckon.parse s.options.skipBlanks (Text.lit "b=y") = _ :=
    parse_of_two_names hlexed' rfl rfl rfl rfl
  have htargets : s.options.targets (Text.lit "a=x") = [Text.lit "a"] := by
    rw [SessionOptions.targets, hread]
    rfl
  have htargets' : s.options.targets (Text.lit "b=y") = [Text.lit "b"] := by
    rw [SessionOptions.targets, hread']
    rfl
  have hnames : s.options.names (Text.lit "a=x") = [Text.lit "a", Text.lit "x"] := by
    rw [SessionOptions.names, hread]
    rfl
  have hnames' : s.options.names (Text.lit "b=y") = [Text.lit "b", Text.lit "y"] := by
    rw [SessionOptions.names, hread']
    rfl
  obtain ⟨hfirst, hsecond, htable, -⟩ := s.eval_commute table
    (by rw [htargets, hnames']; decide) (by rw [htargets', hnames]; decide)
  refine ⟨htargets, hnames', ?_, ?_, hfirst, hsecond, htable⟩
  · refine (s.eval_eq table _).1.trans ?_
    rw [SessionOptions.eval, hread]
    rfl
  · refine (s.eval_eq table _).1.trans ?_
    rw [SessionOptions.eval, hread']
    rfl

end Session

end Reckon
