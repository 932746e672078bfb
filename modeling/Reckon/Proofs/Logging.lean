import Mathlib.Data.List.Perm.Basic
import Reckon.Settings.Basic

/-!
# Levels are set in any order

The levels of the loggers are set in two rounds, first the common level of all of them and then the
levels of single loggers, and nothing says in which order the entries of a round come.
`Settings.setupLogging_in_any_order` says that it does not matter. Whether the levels can be set
depends on the entries alone; and if no two of them name the same logger, each logger has its own
level in the end, or else the common one.

`LogLevels.setNamed_eq_ok_iff` says what one entry does: it sets the level of the logger it names
and no other. So an entry of a round shows in the end, whatever comes after it
(`LogLevels.level_setAll`).
-/

namespace Reckon

/-- The name is that of a logger, up to the case of its letters. -/
def Logger.IsNamed (name : Text) (logger : Logger) : Prop := Text.lower name = logger.name

/-- The name is that of a level, up to the case of its letters. -/
def LogLevel.IsNamed (name : Text) (level : LogLevel) : Prop :=
  Text.lower name = level.name ∨ (Text.lower name = Text.lit "warn" ∧ level = .warning)

instance (name : Text) (logger : Logger) : Decidable (Logger.IsNamed name logger) :=
  inferInstanceAs (Decidable (_ = _))

instance (name : Text) (level : LogLevel) : Decidable (LogLevel.IsNamed name level) :=
  inferInstanceAs (Decidable (_ ∨ _))

/-! ### Names -/

theorem Logger.name_injective : Function.Injective Logger.name := by
  intro a b
  cases a <;> cases b <;> decide

theorem LogLevel.name_injective : Function.Injective LogLevel.name := by
  intro a b
  cases a <;> cases b <;> decide

theorem LogLevel.name_ne_warn (level : LogLevel) : level.name ≠ Text.lit "warn" := by
  cases level <;> decide

theorem Logger.isNamed_name (logger : Logger) : Logger.IsNamed logger.name logger := by
  cases logger <;> decide +kernel

theorem Logger.mem_all (logger : Logger) : logger ∈ Logger.all := by
  cases logger <;> decide

theorem LogLevel.mem_all (level : LogLevel) : level ∈ LogLevel.all := by
  cases level <;> decide

/-- What is listed under a name of its own is found by it. -/
theorem find?_name_eq_some_iff {α : Type} {all : List α} {name : α → Text}
    (hall : ∀ a, a ∈ all) (hname : Function.Injective name) {t : Text} {a : α} :
    all.find? (fun x => name x == t) = some a ↔ t = name a := by
  constructor
  · intro h
    have ha := List.find?_some h
    exact (beq_iff_eq.mp ha).symm
  · rintro rfl
    rcases hfind : all.find? (fun x => name x == name a) with _ | b
    · exact absurd (beq_self_eq_true (name a)) (List.find?_eq_none.mp hfind a (hall a))
    · have hb := List.find?_some hfind
      rw [hname (beq_iff_eq.mp hb)]

theorem Logger.ofText?_eq_some_iff {name : Text} {logger : Logger} :
    Logger.ofText? name = some logger ↔ Logger.IsNamed name logger :=
  find?_name_eq_some_iff Logger.mem_all Logger.name_injective

theorem LogLevel.ofText?_eq_some_iff {name : Text} {level : LogLevel} :
    LogLevel.ofText? name = some level ↔ LogLevel.IsNamed name level := by
  have hlisted := find?_name_eq_some_iff LogLevel.mem_all LogLevel.name_injective
    (t := Text.lower name) (a := level)
  rw [LogLevel.ofText?, LogLevel.IsNamed]
  split
  · rename_i hwarn
    rw [beq_iff_eq] at hwarn
    have hnot : Text.lower name ≠ level.name := fun h => level.name_ne_warn (h.symm.trans hwarn)
    rw [or_iff_right hnot, and_iff_right hwarn, Option.some_inj]
    exact eq_comm
  · rename_i hwarn
    rw [beq_iff_eq] at hwarn
    rw [hlisted, or_iff_left fun h => hwarn h.1]

/-- A name is that of one logger at most. -/
theorem Logger.IsNamed.unique {name : Text} {a b : Logger} (ha : Logger.IsNamed name a)
    (hb : Logger.IsNamed name b) : a = b :=
  Logger.name_injective (ha.symm.trans hb)

namespace LogLevels

variable {l l' : LogLevels} {name level : Text} {entries : List (Text × Text)} {logger : Logger}

/-! ### One entry -/

/-- An entry names a logger and a level. -/
def IsEntry (e : Text × Text) : Prop :=
  (∃ logger, Logger.IsNamed e.1 logger) ∧ ∃ level, LogLevel.IsNamed e.2 level

/-- **An entry sets the level it names of the logger it names.** -/
theorem setNamed_eq_ok_iff : l.setNamed name level = .ok l' ↔
    ∃ logger level', Logger.IsNamed name logger ∧ LogLevel.IsNamed level level' ∧
      l' = l.set logger level' := by
  simp only [← Logger.ofText?_eq_some_iff, ← LogLevel.ofText?_eq_some_iff]
  rw [setNamed]
  rcases LogLevel.ofText? level with _ | level'
  · simp
  · rcases Logger.ofText? name with _ | logger
    · simp
    · simp [eq_comm]

/-- Nothing else can go wrong with an entry. -/
theorem isEntry_of_setNamed (h : l.setNamed name level = .ok l') : IsEntry (name, level) := by
  obtain ⟨logger, level', hname, hlevel, -⟩ := setNamed_eq_ok_iff.mp h
  exact ⟨⟨logger, hname⟩, level', hlevel⟩

theorem exists_setNamed (h : IsEntry (name, level)) : ∃ l', l.setNamed name level = .ok l' := by
  obtain ⟨⟨logger, hname⟩, level', hlevel⟩ := h
  exact ⟨_, setNamed_eq_ok_iff.mpr ⟨logger, level', hname, hlevel, rfl⟩⟩

theorem level_set_self (l : LogLevels) (logger : Logger) (x : LogLevel) :
    (l.set logger x).level logger = x := if_pos rfl

theorem level_set_of_ne {other : Logger} (h : other ≠ logger) (l : LogLevels) (x : LogLevel) :
    (l.set logger x).level other = l.level other := if_neg h

/-! ### The entries of a round -/

theorem setAll_cons_of_ok (h : l.setNamed name level = .ok l') :
    l.setAll ((name, level) :: entries) = l'.setAll entries := by
  rw [setAll, h]

theorem setAll_cons_of_not_isEntry (h : ¬ IsEntry (name, level)) :
    (l.setAll ((name, level) :: entries)).1 ≠ none := by
  rw [setAll]
  split
  · exact Option.some_ne_none _
  · rename_i hset
    exact absurd (isEntry_of_setNamed hset) h

/-- **A round succeeds if each of its entries names a logger and a level.** -/
theorem setAll_eq_none_iff : (l.setAll entries).1 = none ↔ ∀ e ∈ entries, IsEntry e := by
  induction entries generalizing l with
  | nil => simp [setAll]
  | cons e rest ih =>
    obtain ⟨name, level⟩ := e
    rw [List.forall_mem_cons]
    by_cases he : IsEntry (name, level)
    · obtain ⟨l', hset⟩ := exists_setNamed (l := l) he
      rw [setAll_cons_of_ok hset, ih]
      exact (and_iff_right he).symm
    · exact iff_of_false (setAll_cons_of_not_isEntry he) fun h => he h.1

/-- A round that succeeds leaves the loggers as they are that none of its entries name. -/
theorem level_setAll_of_not_isNamed (h : ∀ e ∈ entries, IsEntry e)
    (hnot : ∀ e ∈ entries, ¬ Logger.IsNamed e.1 logger) :
    (l.setAll entries).2.level logger = l.level logger := by
  induction entries generalizing l with
  | nil => rfl
  | cons e rest ih =>
    obtain ⟨name, level⟩ := e
    obtain ⟨he, hrest⟩ := List.forall_mem_cons.mp h
    obtain ⟨hnotHead, hnotRest⟩ := List.forall_mem_cons.mp hnot
    obtain ⟨l', hset⟩ := exists_setNamed (l := l) he
    obtain ⟨other, level', hname, -, rfl⟩ := setNamed_eq_ok_iff.mp hset
    have hne : logger ≠ other := fun heq => hnotHead (heq ▸ hname)
    rw [setAll_cons_of_ok hset, ih hrest hnotRest, level_set_of_ne hne]

/-- No two entries name the same logger. -/
def NamesDiffer (entries : List (Text × Text)) : Prop :=
  entries.Pairwise fun a b => Text.lower a.1 ≠ Text.lower b.1

/-- **Each entry of a round shows in the end**, if no other names the same logger. -/
theorem level_setAll (h : ∀ e ∈ entries, IsEntry e) (hdiffer : NamesDiffer entries)
    {e : Text × Text} (he : e ∈ entries) (hname : Logger.IsNamed e.1 logger) :
    LogLevel.IsNamed e.2 ((l.setAll entries).2.level logger) := by
  induction entries generalizing l with
  | nil => contradiction
  | cons head rest ih =>
    obtain ⟨name, level⟩ := head
    obtain ⟨hhead, hrest⟩ := List.forall_mem_cons.mp h
    obtain ⟨hothers, hdiffer⟩ := List.pairwise_cons.mp hdiffer
    obtain ⟨l', hset⟩ := exists_setNamed (l := l) hhead
    obtain ⟨other, level', hother, hlevel, rfl⟩ := setNamed_eq_ok_iff.mp hset
    rw [setAll_cons_of_ok hset]
    rcases List.mem_cons.mp he with rfl | he
    · -- no later entry names this logger again
      obtain rfl : other = logger := hother.unique hname
      rw [level_setAll_of_not_isNamed hrest fun e he hagain =>
        hothers e he (hname.trans hagain.symm), level_set_self]
      exact hlevel
    · exact ih hrest hdiffer he

/-! ### Two rounds -/

/-- Sets levels in two rounds, of which the second is only for what has not failed. -/
def setBoth (l : LogLevels) (common own : List (Text × Text)) : Option LoggingError × LogLevels :=
  match l.setAll common with
  | (some e, l) => (some e, l)
  | (none, l) => l.setAll own

theorem setBoth_eq_none_iff {common own : List (Text × Text)} : (l.setBoth common own).1 = none ↔
    (∀ e ∈ common, IsEntry e) ∧ ∀ e ∈ own, IsEntry e := by
  rw [setBoth, ← setAll_eq_none_iff (l := l)]
  rcases l.setAll common with ⟨_ | e, l'⟩
  · rw [setAll_eq_none_iff]
    simp
  · simp

/-- The second round goes on from the first one. -/
theorem setBoth_of_isEntry {common own : List (Text × Text)} (h : ∀ e ∈ common, IsEntry e) :
    l.setBoth common own = (l.setAll common).2.setAll own := by
  have hnone := (setAll_eq_none_iff (l := l)).mpr h
  rw [setBoth]
  split <;> rename_i heq <;> rw [heq] at hnone ⊢
  contradiction

/-- The common level has an entry for every logger. -/
theorem exists_mem_uniform (level : Text) (logger : Logger) :
    ∃ e ∈ uniform level, Logger.IsNamed e.1 logger ∧ e.2 = level :=
  ⟨(logger.name, level), List.mem_map_of_mem logger.mem_all, logger.isNamed_name, rfl⟩

/-- Every entry for the common level names a logger. -/
theorem isEntry_uniform_iff {level : Text} :
    (∀ e ∈ uniform level, IsEntry e) ↔ ∃ x, LogLevel.IsNamed level x := by
  constructor
  · intro h
    obtain ⟨e, he, -, rfl⟩ := exists_mem_uniform level .core
    exact (h e he).2
  · intro h e he
    obtain ⟨logger, -, rfl⟩ := List.mem_map.mp he
    exact ⟨⟨logger, logger.isNamed_name⟩, h⟩

/-- The entries for the common level name different loggers. -/
theorem namesDiffer_uniform (level : Text) : NamesDiffer (uniform level) := by
  have hnames : Logger.all.Pairwise fun a b => Text.lower a.name ≠ Text.lower b.name := by
    decide +kernel
  exact List.pairwise_map.mpr hnames

theorem NamesDiffer.perm {entries' : List (Text × Text)} (h : NamesDiffer entries)
    (hperm : entries.Perm entries') : NamesDiffer entries' :=
  hperm.pairwise h fun h => h.symm

end LogLevels

open LogLevels (IsEntry NamesDiffer)

/-- **The order in which levels are set does not matter.** The levels of all loggers are set in two
rounds, and for each of them the entries may come in any order, whatever the levels were before.
Then

* the levels can be set if and only if the common level, which is `debug` for debugging, is that of
  a level and every entry for a single logger names a logger and a level;
* if they can, and no two of these entries name loggers that differ in nothing but case, a logger
  has in the end the level of the entry that names it, and the common one if there is no such
  entry. -/
theorem Settings.setupLogging_in_any_order (s : Settings) (l : LogLevels) :
    s.setupLogging l = l.setBoth (LogLevels.uniform s.baseLevel) s.loggingOptions.entries ∧
      ∀ common own, common.Perm (LogLevels.uniform s.baseLevel) →
        own.Perm s.loggingOptions.entries →
        let result := l.setBoth common own
        (result.1 = none ↔ (∃ x, LogLevel.IsNamed s.baseLevel x) ∧
          ∀ e ∈ s.loggingOptions.entries, IsEntry e) ∧
        (result.1 = none → NamesDiffer s.loggingOptions.entries → ∀ logger,
          (∀ e ∈ s.loggingOptions.entries, Logger.IsNamed e.1 logger →
            LogLevel.IsNamed e.2 (result.2.level logger)) ∧
          ((∀ e ∈ s.loggingOptions.entries, ¬ Logger.IsNamed e.1 logger) →
            LogLevel.IsNamed s.baseLevel (result.2.level logger))) := by
  refine ⟨rfl, fun common own hcommon hown => ?_⟩
  have hsuccess : (l.setBoth common own).1 = none ↔ (∃ x, LogLevel.IsNamed s.baseLevel x) ∧
      ∀ e ∈ s.loggingOptions.entries, IsEntry e := by
    rw [LogLevels.setBoth_eq_none_iff, ← LogLevels.isEntry_uniform_iff]
    simp only [hcommon.mem_iff, hown.mem_iff]
  refine ⟨hsuccess, fun hnone hdiffer logger => ?_⟩
  obtain ⟨hcommonEntries, hownEntries⟩ := LogLevels.setBoth_eq_none_iff.mp hnone
  rw [LogLevels.setBoth_of_isEntry hcommonEntries]
  constructor
  · intro e he hname
    exact LogLevels.level_setAll hownEntries (hdiffer.perm hown.symm) (hown.mem_iff.mpr he) hname
  · intro hnot
    obtain ⟨e, he, hname, heq⟩ := LogLevels.exists_mem_uniform s.baseLevel logger
    rw [LogLevels.level_setAll_of_not_isNamed hownEntries fun e he => hnot e (hown.mem_iff.mp he),
      ← heq]
    exact LogLevels.level_setAll hcommonEntries
      ((LogLevels.namesDiffer_uniform _).perm hcommon.symm) (hcommon.mem_iff.mpr he) hname

/-- Two loggers with levels of their own, named in capitals, with all entries set from the last one
to the first one. -/
theorem Settings.setupLogging_in_any_order_of_two_options :
    let own := [(Text.lit "Core", Text.lit "DEBUG"), (Text.lit "REST", Text.lit "warn")]
    let s := { Settings.default with loggingOptions := Dict.ofList own }
    let result := LogLevels.initial.setBoth (LogLevels.uniform s.baseLevel).reverse own.reverse
    result.1 = none ∧ LogLevel.IsNamed (Text.lit "DEBUG") (result.2.level .core) ∧
      LogLevel.IsNamed (Text.lit "warn") (result.2.level .rest) ∧
      LogLevel.IsNamed (Text.lit "info") (result.2.level .parser) := by
  intro own s result
  have hown : s.loggingOptions.entries = own := by decide
  have hdiffer : NamesDiffer own := by
    rw [NamesDiffer, List.pairwise_pair]
    decide +kernel
  have hentries : ∀ e ∈ own, IsEntry e := by
    rw [List.forall_mem_cons, List.forall_mem_singleton]
    exact ⟨⟨⟨.core, by decide +kernel⟩, .debug, by decide +kernel⟩,
      ⟨.rest, by decide +kernel⟩, .warning, by decide +kernel⟩
  have hothers : ∀ e ∈ own, ¬ Logger.IsNamed e.1 .parser := by
    rw [List.forall_mem_cons, List.forall_mem_singleton]
    exact ⟨by decide +kernel, by decide +kernel⟩
  have horder := (Settings.setupLogging_in_any_order s LogLevels.initial).2
    (LogLevels.uniform s.baseLevel).reverse own.reverse (List.reverse_perm _)
    (hown ▸ List.reverse_perm own)
  rw [hown] at horder
  obtain ⟨hsuccess, hlevels⟩ := horder
  have hnone : result.1 = none := hsuccess.mpr ⟨⟨.info, by decide +kernel⟩, hentries⟩
  have hcore := (hlevels hnone hdiffer .core).1 _ List.mem_cons_self (by decide +kernel)
  have hrest := (hlevels hnone hdiffer .rest).1 _ (List.mem_cons_of_mem _ List.mem_cons_self)
    (by decide +kernel)
  have hparser := (hlevels hnone hdiffer .parser).2 hothers
  exact ⟨hnone, hcore, hrest, hparser⟩

end Reckon
