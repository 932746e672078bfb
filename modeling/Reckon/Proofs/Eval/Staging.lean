import Mathlib.Data.List.Forall2
import Reckon.Eval.Basic

/-!
# Staging does not show

An equation is evaluated on a stage, which keeps its assignments apart from the table below. To the
evaluation a stage is as good as the table itself: `Expr.staging_transparent` says that the result
is the same as on the table, that every name is seen with the same value at the same moment, that
the table below is untouched all along, and that storing the assignments in the end, in any
order, makes the table that the evaluation would have left.

* `Expr.sights` are the moments at which an evaluation looks at a name. What is seen at these
  moments determines the result (`Expr.eval_congr_of_seen`), so there are no others that matter.
* `Scope.Mirrors` relates two scopes in which the same is seen, now and after any assignments. The
  evaluation of a tree sees the same in both and keeps the relation (`Scope.Mirrors.eval`).
* `Stage.Shows` is this relation between a stage and the table that it stands for. It holds each
  assigned name once (`Stage.keys_write`), which is why `Stage.commit` loses no assignment and
  makes none that was overwritten.
-/

namespace Reckon

/-! ### What an evaluation looks at -/

/-- A moment at which a name is looked up, with the scope as it is then. -/
structure Sight (σ : Type) where
  scope : σ
  name : Text

/-- The name that is looked up, and the value that is found. -/
def Sight.found {σ : Type} [Scope σ] (v : Sight σ) : Text × Option Value :=
  (v.name, Scope.lookup v.scope v.name)

namespace Expr

variable {σ τ : Type} [Scope σ] [Scope τ] {tolerance : Float} {e left right : Expr}
  {operator : Token} {s : σ} {t : τ}

/-- The moments at which the evaluation of a tree looks up a name, in their order. After a failure
nothing is looked up any more. -/
def sights (tolerance : Float) : Expr → σ → List (Sight σ)
  | int _, _ | float _, _ | hole, _ => []
  | identifier name, s => [⟨s, name⟩]
  | binary left operator right, s =>
    if operator.kind = .assign then
      match left with
      | identifier _ => right.sights tolerance s
      | _ => []
    else
      left.sights tolerance s ++
        match left.eval tolerance s with
        | (.ok _, after) => right.sights tolerance after
        | (.error _, _) => []

/-- The names that are looked up, with what is found. -/
def seen (tolerance : Float) (e : Expr) (s : σ) : List (Text × Option Value) :=
  (e.sights tolerance s).map Sight.found

/-- An assignment looks at its right side only, if at all. -/
theorem sights_assign (hk : operator.kind = .assign) :
    (binary left operator right).sights tolerance s =
      match left with
      | identifier _ => right.sights tolerance s
      | _ => [] := by
  conv => lhs; unfold sights
  rw [if_pos hk]

/-- Any other operator looks at its right side if the left one has a value. -/
theorem sights_operator (hk : operator.kind ≠ .assign) :
    (binary left operator right).sights tolerance s =
      left.sights tolerance s ++
        match left.eval tolerance s with
        | (.ok _, after) => right.sights tolerance after
        | (.error _, _) => [] := by
  conv => lhs; unfold sights
  rw [if_neg hk]

/-- The left side of an assignment is not evaluated. -/
theorem eval_assign (hk : operator.kind = .assign) :
    (binary left operator right).eval tolerance s =
      match left with
      | identifier name =>
        match right.eval tolerance s with
        | (.error e, after) => (.error e, after)
        | (.ok value, after) =>
          match value.number? with
          | none => (.error (.operand operator.text value), after)
          | some _ => (.ok (.assignment name value), Scope.assign after name value)
      | target => (.error (assignFailure target), s) := by
  conv => lhs; unfold eval
  exact (if_pos hk).trans rfl

/-- Any other operator evaluates both sides. -/
theorem eval_operator (hk : operator.kind ≠ .assign) :
    (binary left operator right).eval tolerance s =
      match left.eval tolerance s with
      | (.error e, after) => (.error e, after)
      | (.ok a, after) =>
        match right.eval tolerance after with
        | (.error e, last) => (.error e, last)
        | (.ok b, last) => (a.apply tolerance operator b, last) := by
  conv => lhs; unfold eval
  exact (if_neg hk).trans rfl

/-- One evaluation cannot stop looking where another one, which has seen the same so far, goes on;
and what is seen determines the result. -/
theorem eval_congr_of_seen_append {rest rest' : List (Text × Option Value)}
    (h : e.seen tolerance s ++ rest = e.seen tolerance t ++ rest') :
    (e.eval tolerance s).1 = (e.eval tolerance t).1 ∧ rest = rest' := by
  induction e generalizing s t rest rest' with
  | int | float | hole => exact ⟨rfl, h⟩
  | identifier name =>
    obtain ⟨hfound, hrest⟩ := List.cons.inj h
    have hlookup : Scope.lookup s name = Scope.lookup t name := congrArg Prod.snd hfound
    rw [eval, eval, hlookup]
    refine ⟨?_, hrest⟩
    cases Scope.lookup t name <;> rfl
  | binary left operator right ihleft ihright =>
    by_cases hk : operator.kind = .assign
    · rw [seen, seen, sights_assign hk, sights_assign hk] at h
      rw [eval_assign hk, eval_assign hk]
      cases left with
      | int | float | binary | hole => exact ⟨rfl, h⟩
      | identifier name =>
        obtain ⟨hvalue, hrest⟩ := ihright h
        refine ⟨?_, hrest⟩
        dsimp only
        rcases hs : right.eval tolerance s with ⟨e | v, after⟩ <;>
          rcases ht : right.eval tolerance t with ⟨e' | v', after'⟩ <;>
          rw [hs, ht] at hvalue <;> cases hvalue
        · rfl
        · dsimp only
          cases v.number? <;> rfl
    · rw [seen, seen, sights_operator hk, sights_operator hk, List.map_append, List.map_append,
        List.append_assoc, List.append_assoc] at h
      rw [eval_operator hk, eval_operator hk]
      obtain ⟨hvalue, hrest⟩ := ihleft h
      rcases hs : left.eval tolerance s with ⟨e | a, after⟩ <;>
        rcases ht : left.eval tolerance t with ⟨e' | a', after'⟩ <;>
        rw [hs, ht] at hvalue hrest <;> cases hvalue
      · exact ⟨rfl, hrest⟩
      · obtain ⟨hvalue', hrest'⟩ := ihright hrest
        refine ⟨?_, hrest'⟩
        dsimp only
        rcases hs' : right.eval tolerance after with ⟨e | b, last⟩ <;>
          rcases ht' : right.eval tolerance after' with ⟨e' | b', last'⟩ <;>
          rw [hs', ht'] at hvalue' <;> cases hvalue' <;> rfl

/-- **What is seen determines the result.** -/
theorem eval_congr_of_seen (h : e.seen tolerance s = e.seen tolerance t) :
    (e.eval tolerance s).1 = (e.eval tolerance t).1 :=
  (eval_congr_of_seen_append (congrArg (· ++ []) h)).1

end Expr

/-! ### Scopes in which the same is seen -/

namespace Scope

variable {σ τ : Type} [Scope σ] [Scope τ] {R : σ → τ → Prop} {s : σ} {t : τ}

/-- A relation of scopes in which every name stands for the same, and does so after every
assignment. -/
structure Mirrors (R : σ → τ → Prop) : Prop where
  lookup_eq : ∀ {s t}, R s t → ∀ name, Scope.lookup s name = Scope.lookup t name
  assign : ∀ {s t}, R s t → ∀ name value, R (Scope.assign s name value) (Scope.assign t name value)

/-- Two evaluations look up the same name, in related scopes. -/
structure SameSight (R : σ → τ → Prop) (v : Sight σ) (w : Sight τ) : Prop where
  name_eq : v.name = w.name
  related : R v.scope w.scope

namespace Mirrors

/-- Where scopes mirror each other at every moment, the same is seen. -/
theorem map_found_eq (hR : Mirrors R) {sights : List (Sight σ)} {sights' : List (Sight τ)}
    (h : List.Forall₂ (SameSight R) sights sights') :
    sights.map Sight.found = sights'.map Sight.found := by
  induction h with
  | nil => rfl
  | @cons v w _ _ hvw _ ih =>
    have hfound : v.found = w.found := by
      rw [Sight.found, Sight.found, hvw.name_eq, hR.lookup_eq hvw.related]
    rw [List.map_cons, List.map_cons, hfound, ih]

/-- **Scopes that mirror each other do so at every moment of an evaluation**, and after it. -/
theorem eval (hR : Mirrors R) (h : R s t) (tolerance : Float) (e : Expr) :
    List.Forall₂ (SameSight R) (e.sights tolerance s) (e.sights tolerance t) ∧
      R (e.eval tolerance s).2 (e.eval tolerance t).2 := by
  induction e generalizing s t with
  | int | float | hole => exact ⟨.nil, h⟩
  | identifier name =>
    refine ⟨.cons ⟨rfl, h⟩ .nil, ?_⟩
    rw [Expr.eval, Expr.eval, hR.lookup_eq h]
    cases Scope.lookup t name <;> exact h
  | binary left operator right ihleft ihright =>
    by_cases hk : operator.kind = .assign
    · rw [Expr.sights_assign hk, Expr.sights_assign hk, Expr.eval_assign hk, Expr.eval_assign hk]
      cases left with
      | int | float | binary | hole => exact ⟨.nil, h⟩
      | identifier name =>
        obtain ⟨hsights, hafter⟩ := ihright h
        have hvalue := Expr.eval_congr_of_seen (hR.map_found_eq hsights)
        refine ⟨hsights, ?_⟩
        dsimp only
        rcases hs : right.eval tolerance s with ⟨e | v, after⟩ <;>
          rcases ht : right.eval tolerance t with ⟨e' | v', after'⟩ <;>
          rw [hs, ht] at hvalue hafter <;> cases hvalue
        · exact hafter
        · dsimp only
          cases v.number? with
          | none => exact hafter
          | some x => exact hR.assign hafter name v
    · rw [Expr.sights_operator hk, Expr.sights_operator hk, Expr.eval_operator hk,
        Expr.eval_operator hk]
      obtain ⟨hsights, hafter⟩ := ihleft h
      have hvalue := Expr.eval_congr_of_seen (hR.map_found_eq hsights)
      rcases hs : left.eval tolerance s with ⟨e | a, after⟩ <;>
        rcases ht : left.eval tolerance t with ⟨e' | a', after'⟩ <;>
        rw [hs, ht] at hvalue hafter <;> cases hvalue
      · exact ⟨List.rel_append hsights .nil, hafter⟩
      · -- the right operand finds scopes that mirror each other again
        obtain ⟨hsights', hlast⟩ := ihright hafter
        have hvalue' := Expr.eval_congr_of_seen (hR.map_found_eq hsights')
        refine ⟨List.rel_append hsights hsights', ?_⟩
        dsimp only
        rcases hs' : right.eval tolerance after with ⟨e | b, last⟩ <;>
          rcases ht' : right.eval tolerance after' with ⟨e' | b', last'⟩ <;>
          rw [hs', ht'] at hvalue' hlast <;> cases hvalue' <;> exact hlast

end Mirrors

end Scope

/-! ### Stages -/

namespace Stage

variable {writes : List (Text × Value)} {name : Text} {value : Value}

/-- An assignment changes what is staged for its own name and nothing else. -/
theorem written?_write (writes : List (Text × Value)) (name other : Text) (value : Value) :
    written? (write writes name value) other =
      if other = name then some value else written? writes other := by
  induction writes with
  | nil =>
    by_cases h : other = name
    · simp [write, written?, h]
    · simp [write, written?, h, Ne.symm h]
  | cons w rest ih =>
    obtain ⟨n, v⟩ := w
    rw [write]
    by_cases hn : n = name
    · subst hn
      rw [if_pos rfl]
      by_cases h : other = n
      · simp [written?, h]
      · simp [written?, h, Ne.symm h]
    · rw [if_neg hn]
      by_cases hother : n = other
      · subst hother
        simp [written?, hn]
      · have hskip : ∀ l, written? ((n, v) :: l) other = written? l other := by
          intro l
          simp [written?, hother]
        rw [hskip, hskip, ih]

/-- The names that are staged, in the order of their first assignment. A name that is assigned again
keeps its place. -/
theorem keys_write (writes : List (Text × Value)) (name : Text) (value : Value) :
    (write writes name value).map Prod.fst =
      if name ∈ writes.map Prod.fst then writes.map Prod.fst
      else writes.map Prod.fst ++ [name] := by
  induction writes with
  | nil => rfl
  | cons w rest ih =>
    obtain ⟨n, v⟩ := w
    rw [write]
    by_cases hn : n = name
    · simp [hn]
    · rw [if_neg hn, List.map_cons, ih]
      by_cases hmem : name ∈ rest.map Prod.fst
      · have hin : name ∈ ((n, v) :: rest).map Prod.fst := List.mem_cons_of_mem n hmem
        rw [if_pos hmem, if_pos hin, List.map_cons]
      · have hnot : name ∉ ((n, v) :: rest).map Prod.fst := by
          rw [List.map_cons, List.mem_cons]
          exact not_or.mpr ⟨Ne.symm hn, hmem⟩
        rw [if_neg hmem, if_neg hnot, List.map_cons, List.cons_append]

/-- No name is staged twice. -/
theorem nodup_write (h : (writes.map Prod.fst).Nodup) (name : Text) (value : Value) :
    ((write writes name value).map Prod.fst).Nodup := by
  rw [keys_write]
  split
  · exact h
  · rename_i hnew
    refine List.nodup_append.mpr ⟨h, List.nodup_cons.mpr ⟨List.not_mem_nil, List.nodup_nil⟩, ?_⟩
    rintro a ha b hb rfl
    exact hnew (List.mem_singleton.mp hb ▸ ha)

/-- A name that is staged once has the value it is staged with. -/
theorem written?_eq_some_iff (h : (writes.map Prod.fst).Nodup) :
    written? writes name = some value ↔ (name, value) ∈ writes := by
  induction writes with
  | nil => simp [written?]
  | cons w rest ih =>
    obtain ⟨n, v⟩ := w
    obtain ⟨hn, hrest⟩ := List.nodup_cons.mp h
    by_cases hname : n = name
    · subst hname
      have hnot : (n, value) ∉ rest := fun hmem => hn (List.mem_map.mpr ⟨_, hmem, rfl⟩)
      simp [written?, hnot, eq_comm]
    · have hskip : written? ((n, v) :: rest) name = written? rest name := by
        simp [written?, hname]
      have hne : ¬ (name, value) = (n, v) := fun heq => hname (congrArg Prod.fst heq).symm
      rw [hskip, ih hrest, List.mem_cons, or_iff_right hne]

/-- The order of the staged names does not matter. -/
theorem written?_of_perm {writes' : List (Text × Value)} (hperm : writes'.Perm writes)
    (h : (writes.map Prod.fst).Nodup) (name : Text) :
    written? writes' name = written? writes name := by
  have h' : (writes'.map Prod.fst).Nodup := (hperm.map Prod.fst).nodup_iff.mpr h
  refine Option.ext fun value => ?_
  rw [written?_eq_some_iff h', written?_eq_some_iff h, hperm.mem_iff]

/-- **Storing the assignments makes the table that was seen all along.** -/
theorem find?_commit (base : Table) (h : (writes.map Prod.fst).Nodup) (name : Text) :
    (commit ⟨base, writes⟩).find? name = (written? writes name).or (base.find? name) := by
  -- the table moves on with every write
  induction writes generalizing base with
  | nil => rfl
  | cons w rest ih =>
    obtain ⟨n, v⟩ := w
    obtain ⟨hn, hrest⟩ := List.nodup_cons.mp h
    have hstep : commit ⟨base, (n, v) :: rest⟩ = commit ⟨base.insert n v, rest⟩ := rfl
    rw [hstep, ih _ hrest, Dict.find?_insert]
    by_cases hname : name = n
    · subst hname
      have hnone : written? rest name = none := by
        rcases hw : written? rest name with _ | v'
        · rfl
        · exact absurd (List.mem_map.mpr ⟨_, (written?_eq_some_iff hrest).mp hw, rfl⟩) hn
      rw [hnone, if_pos rfl]
      simp [written?]
    · rw [if_neg hname]
      simp [written?, Ne.symm hname]

/-- A stage over a table shows another one: each name that is staged is staged once, every name
stands for what it does in that other table, and the table below is the one it was. -/
structure Shows (base : Table) (s : Stage) (table : Table) : Prop where
  base_eq : s.base = base
  nodup : (s.writes.map Prod.fst).Nodup
  lookup_eq : ∀ name, Scope.lookup s name = table.find? name

/-- A fresh stage shows the table below it. -/
theorem shows_ofTable (table : Table) : Shows table (ofTable table) table :=
  ⟨rfl, List.nodup_nil, fun _ => rfl⟩

/-- A stage and the table that it shows mirror each other. -/
theorem mirrors_shows (base : Table) : Scope.Mirrors (Shows base) where
  lookup_eq h name := h.lookup_eq name
  assign := by
    intro s table h name value
    refine ⟨h.base_eq, nodup_write h.nodup name value, fun other => ?_⟩
    have hlookup : (written? s.writes other).or (s.base.find? other) = table.find? other :=
      h.lookup_eq other
    change (written? (write s.writes name value) other).or (s.base.find? other) =
      (table.insert name value).find? other
    rw [written?_write, Dict.find?_insert]
    split
    · rfl
    · exact hlookup

/-- What a stage shows is the table after its assignments have been stored, in whichever order. -/
theorem Shows.commit_of_perm {base table : Table} {s : Stage} (h : Shows base s table)
    (hperm : writes.Perm s.writes) : commit ⟨base, writes⟩ = table := by
  have hnodup : (writes.map Prod.fst).Nodup := (hperm.map Prod.fst).nodup_iff.mpr h.nodup
  refine Dict.ext_find? fun name => ?_
  rw [find?_commit base hnodup, written?_of_perm hperm h.nodup, ← h.base_eq]
  exact h.lookup_eq name

end Stage

/-- An equation has the same result on a stage as on the table below it. -/
theorem Expr.eval_ofTable (tolerance : Float) (e : Expr) (table : Table) :
    (e.eval tolerance (Stage.ofTable table)).1 = (e.eval tolerance table).1 := by
  have hR := Stage.mirrors_shows table
  exact eval_congr_of_seen (hR.map_found_eq (hR.eval (Stage.shows_ofTable table) tolerance e).1)

/-- With the assignments stored, a stage is the table that the evaluation leaves without it. -/
theorem Expr.commit_ofTable (tolerance : Float) (e : Expr) (table : Table) :
    (e.eval tolerance (Stage.ofTable table)).2.commit = (e.eval tolerance table).2 := by
  have hshows :=
    ((Stage.mirrors_shows table).eval (Stage.shows_ofTable table) tolerance e).2
  refine Eq.trans ?_ (hshows.commit_of_perm (List.Perm.refl _))
  exact congrArg (fun base => Stage.commit ⟨base, _⟩) hshows.base_eq

/-- **Staging does not show.** For every tree and every table, the evaluation on a stage over the
table and the evaluation on the table itself:

* have the same result;
* look up the same names and find the same values;
* and while the first one goes on, the table below the stage is untouched;
* but once its assignments are stored, in whichever order the names were staged, it is the table
  that the second one leaves. -/
theorem Expr.staging_transparent (tolerance : Float) (e : Expr) (table : Table) :
    let staged := e.eval tolerance (Stage.ofTable table)
    let direct := e.eval tolerance table
    staged.1 = direct.1 ∧
      e.seen tolerance (Stage.ofTable table) = e.seen tolerance table ∧
      (∀ v ∈ e.sights tolerance (Stage.ofTable table), v.scope.base = table) ∧
      staged.2.base = table ∧ staged.2.commit = direct.2 ∧
      ∀ writes, writes.Perm staged.2.writes → Stage.commit ⟨table, writes⟩ = direct.2 := by
  intro staged direct
  have hR := Stage.mirrors_shows table
  obtain ⟨hsights, hshows⟩ := hR.eval (Stage.shows_ofTable table) tolerance e
  have hseen := hR.map_found_eq hsights
  refine ⟨eval_ofTable tolerance e table, hseen, fun v hv => ?_, hshows.base_eq, ?_,
    fun writes hperm => ?_⟩
  · have hbase := (List.forall₂_and_left _ _).mp (hsights.imp fun _ _ h => ⟨h.related.base_eq, h⟩)
    exact hbase.1 v hv
  · have hstage : staged.2 = ⟨table, staged.2.writes⟩ := by rw [← hshows.base_eq]
    rw [hstage]
    exact hshows.commit_of_perm (List.Perm.refl staged.2.writes)
  · exact hshows.commit_of_perm hperm

/-- For example, `(y = x) + (x = y)` fails in the sum, with `y` and then `x` staged. Stored in the
other order, they make the table that the evaluation leaves without a stage. -/
theorem Expr.staging_transparent_of_two_names :
    let x := Text.lit "x"
    let y := Text.lit "y"
    let e := binary (binary (identifier y) ⟨.assign, Text.lit "=", 3⟩ (identifier x))
      ⟨.plus, Text.lit "+", 8⟩ (binary (identifier x) ⟨.assign, Text.lit "=", 13⟩ (identifier y))
    let three : Value := .number (.int 3)
    let table : Table := Dict.empty.insert x three
    e.seen 0 (Stage.ofTable table) = [(x, some three), (y, some three)] ∧
      (∀ v ∈ e.sights 0 (Stage.ofTable table), v.scope.base = table) ∧
      (e.eval 0 (Stage.ofTable table)).2.writes = [(y, three), (x, three)] ∧
      Stage.commit ⟨table, [(x, three), (y, three)]⟩ = (e.eval 0 table).2 := by
  intro x y e three table
  obtain ⟨-, -, hbase, -, -, hcommit⟩ := Expr.staging_transparent 0 e table
  exact ⟨rfl, hbase, rfl, hcommit _ (List.Perm.swap _ _ _)⟩

end Reckon
