import Reckon.Command.Plan

/-!
# Flags and the settings file

Flags are meant to take precedence over the settings file: `Settings.override` gives every setting
the value of its flag if the flag is given, and leaves it as it is otherwise. What the program does
is a little less. It stores the values of flags and goes by whether they differ from what is stored
for a flag that is not given: off, zero, or no text. So a flag is passed over if it is given such a
value (`Given.effective`), and otherwise overrides the file (`Plan.flags_override_settings`).

Choices are made one after another. `Choices.Makes` says what some choices make of those before
them; `makes_of_make` proves it along the arguments, one choice at a time.
-/

namespace Reckon

/-! ### What is given -/

namespace Choice

/-- How a choice sets a switch. -/
def on? (f : Flag) : Choice → Option Bool
  | switch g on => if g = f then some on else none
  | _ => none

/-- The value that a choice gives a flag. -/
def text? (f : Flag) : Choice → Option Text
  | value g t => if g = f then some t else none
  | _ => none

/-- The tolerance that a choice gives. -/
def tolerance? (x : Choice) : Option Float :=
  (x.text? .tolerance).bind fun t => (FloatText.read t).toOption

/-- The value that is given last. No flag may be given twice, so it is the only one. -/
def last? {α : Type} (f : Choice → Option α) (l : List Choice) : Option α :=
  (l.filterMap f).getLast?

theorem last?_cons {α : Type} (f : Choice → Option α) (x : Choice) (l : List Choice) :
    last? f (x :: l) = (last? f l).or (f x) := by
  rw [last?, last?, List.filterMap_cons]
  cases f x with
  | none => rw [Option.or_none]
  | some a =>
    rw [List.getLast?_cons]
    cases (l.filterMap f).getLast? <;> rfl

end Choice

/-- The values of the flags that stand for settings, where they are given. -/
structure Given where
  debug : Option Bool
  skipSpaces : Option Bool
  tolerance : Option Float
  logging : Option Text
  address : Option Text
deriving DecidableEq

namespace Given

/-- What some choices give. -/
def ofChoices (l : List Choice) : Given :=
  ⟨Choice.last? (Choice.on? .debug) l, Choice.last? (Choice.on? .skipSpaces) l,
    Choice.last? Choice.tolerance? l, Choice.last? (Choice.text? .logging) l,
    Choice.last? (Choice.text? .address) l⟩

/-- What is given without the values that are passed over. -/
def effective (g : Given) : Given :=
  ⟨g.debug.filter fun on => on, g.skipSpaces.filter fun on => on,
    g.tolerance.filter fun x => x != 0, g.logging.filter fun t => !t.isEmpty,
    g.address.filter fun t => !t.isEmpty⟩

end Given

namespace Settings

/-- Every setting has the value of its flag, if the flag is given. -/
def override (s : Settings) (g : Given) : Settings :=
  { s with
    debug := g.debug.getD s.debug
    skipSpaces := g.skipSpaces.getD s.skipSpaces
    tolerance := g.tolerance.getD s.tolerance
    logging := g.logging.getD s.logging
    server := { s.server with address := g.address.getD s.server.address } }

/-- A settings file read over some settings. -/
def readOver (readFile : Text → Except FileFault Text) (s : Settings) (path : Text) : Settings :=
  match readFile path with
  | .ok file => (s.parse file).2
  | .error _ => s

/-- The settings file that is named, read over the default settings. -/
def ofFile (readFile : Text → Except FileFault Text) (l : List Choice) : Settings :=
  (l.filterMap (Choice.text? .config)).foldl (readOver readFile) default

end Settings

/-! ### Choices, one after another -/

namespace Choices

variable {readFile : Text → Except FileFault Text} {c c₁ c' : Choices}

/-- What some choices make of the choices before them: settings files are read over the settings,
and flags have the values that they are given. -/
structure Makes (readFile : Text → Except FileFault Text) (c : Choices) (l : List Choice)
    (c' : Choices) : Prop where
  settings : c'.settings =
    (l.filterMap (Choice.text? .config)).foldl (Settings.readOver readFile) c.settings
  debug : c'.debug = (Given.ofChoices l).debug.getD c.debug
  skipSpaces : c'.skipSpaces = (Given.ofChoices l).skipSpaces.getD c.skipSpaces
  tolerance : c'.tolerance = (Given.ofChoices l).tolerance.getD c.tolerance
  logging : c'.logging = (Given.ofChoices l).logging.getD c.logging
  address : c'.address = (Given.ofChoices l).address.getD c.address

theorem Makes.cons {x : Choice} {l : List Choice} (h : Makes readFile c [x] c₁)
    (h' : Makes readFile c₁ l c') : Makes readFile c (x :: l) c' := by
  have hgiven {α : Type} (f : Choice → Option α) (a : α) :
      (Choice.last? f (x :: l)).getD a = (Choice.last? f l).getD ((Choice.last? f [x]).getD a) := by
    rw [Choice.last?_cons, Choice.last?_cons, Option.getD_or]
    rfl
  constructor
  · rw [h'.settings, h.settings, ← List.foldl_append, ← List.filterMap_append]
    rfl
  · rw [h'.debug, h.debug]
    exact (hgiven _ _).symm
  · rw [h'.skipSpaces, h.skipSpaces]
    exact (hgiven _ _).symm
  · rw [h'.tolerance, h.tolerance]
    exact (hgiven _ _).symm
  · rw [h'.logging, h.logging]
    exact (hgiven _ _).symm
  · rw [h'.address, h.address]
    exact (hgiven _ _).symm

theorem makes_setSwitch (c : Choices) (f : Flag) (on : Bool) :
    Makes readFile c [.switch f on] (c.setSwitch f on) := by
  cases f <;> exact ⟨rfl, rfl, rfl, rfl, rfl, rfl⟩

theorem makes_of_setValue {f : Flag} {t : Text}
    (h : c.setValue (m := Id) readFile f t = .ok c') : Makes readFile c [.value f t] c' := by
  cases f with
  | config =>
    rcases hfile : readFile t with fault | file
    · rw [setValue, hfile] at h
      cases h
    · have hover : Settings.readOver readFile c.settings t = (c.settings.parse file).2 := by
        rw [Settings.readOver, hfile]
      rw [setValue, hfile] at h
      dsimp only [bind, pure] at h
      rcases hparse : c.settings.parse file with ⟨_ | e, settings⟩ <;> rw [hparse] at h hover
      · cases h
        exact ⟨hover.symm, rfl, rfl, rfl, rfl, rfl⟩
      · cases h
  | tolerance =>
    have hgiven : (Given.ofChoices [.value .tolerance t]).tolerance = (FloatText.read t).toOption :=
      Choice.last?_cons Choice.tolerance? _ []
    rw [setValue] at h
    rcases ht : FloatText.read t with fault | x <;> rw [ht] at h hgiven
    · cases h
    · cases h
      refine ⟨rfl, rfl, rfl, ?_, rfl, rfl⟩
      rw [hgiven]
      rfl
  | logging | address | help | longHelp | manual | version | debug | skipSpaces | tree | tokens
  | completion | bashScript | zshScript =>
    cases h
    exact ⟨rfl, rfl, rfl, rfl, rfl, rfl⟩

theorem makes_of_make {seen : List Flag} {l : List Choice}
    (h : c.make (m := Id) readFile seen l = (none, c')) : Makes readFile c l c' := by
  induction l generalizing seen c with
  | nil =>
    cases h
    exact ⟨rfl, rfl, rfl, rfl, rfl, rfl⟩
  | cons x rest ih =>
    cases x with
    | value f t =>
      rw [make] at h
      split at h
      · cases h
      · rcases hset : c.setValue (m := Id) readFile f t with e | c₁ <;> rw [hset] at h
        · cases h
        · exact (makes_of_setValue hset).cons (ih h)
    | switch f on =>
      rw [make] at h
      split at h
      · cases h
      · exact (makes_setSwitch c f on).cons (ih h)
    | word t =>
      refine Makes.cons ?_ (ih h)
      exact ⟨rfl, rfl, rfl, rfl, rfl, rfl⟩
    | command x =>
      refine Makes.cons ?_ (ih h)
      exact ⟨rfl, rfl, rfl, rfl, rfl, rfl⟩

/-- **Flags override settings unless their values are passed over.** -/
theorem Makes.effective_eq {l : List Choice} (h : Makes readFile initial l c) :
    c.effective = (Settings.ofFile readFile l).override (Given.ofChoices l).effective := by
  have hswitch (given : Option Bool) (on : Bool) :
      (given.getD false || on) = (given.filter fun on => on).getD on := by
    rcases given with _ | _ | _ <;> rfl
  have hnumber (given : Option Float) (x : Float) :
      (if given.getD 0 != 0 then given.getD 0 else x) = (given.filter fun x => x != 0).getD x := by
    cases given with
    | none => rfl
    | some y =>
      rw [Option.filter_some, Option.getD_some]
      split <;> rfl
  have htext (given : Option Text) (t : Text) :
      (if (given.getD []).isEmpty then t else given.getD []) =
        (given.filter fun t => !t.isEmpty).getD t := by
    rcases given with _ | _ | _ <;> rfl
  -- what is stored for a flag that is not given
  have hsettings : c.settings = Settings.ofFile readFile l := h.settings
  have hdebug : c.debug = (Given.ofChoices l).debug.getD false := h.debug
  have hskip : c.skipSpaces = (Given.ofChoices l).skipSpaces.getD false := h.skipSpaces
  have htolerance : c.tolerance = (Given.ofChoices l).tolerance.getD 0 := h.tolerance
  have hlogging : c.logging = (Given.ofChoices l).logging.getD [] := h.logging
  have haddress : c.address = (Given.ofChoices l).address.getD [] := h.address
  rw [effective, hsettings, hdebug, hskip, htolerance, hlogging, haddress, hswitch, hswitch,
    hnumber, htext, htext]
  rfl

end Choices

/-! ### Arguments that are flags -/

namespace Mark

variable {readFile : Text → Except FileFault Text} {files : Nat} {rest : List Text}
  {marks : List Mark}

theorem ofArguments_long (name : Text) (hname : name ≠ [])
    (h : ofArguments (m := Id) readFile files rest = marks) :
    ofArguments (m := Id) readFile files ((0x2D :: 0x2D :: name) :: rest) =
      ofLong name ++ marks := by
  have hdashes : ((0x2D :: 0x2D :: name : Text) == Text.lit "--") = false := by
    obtain ⟨b, t, rfl⟩ := List.exists_cons_of_ne_nil hname
    rfl
  rw [ofArguments.eq_def]
  simp only [hdashes, Bool.false_eq_true, if_false, h]
  rfl

theorem ofArguments_word {b : UInt8} {t : Text} (hdash : b ≠ 0x2D) (hat : b ≠ 0x40)
    (h : ofArguments (m := Id) readFile files rest = marks) :
    ofArguments (m := Id) readFile files ((b :: t) :: rest) = word (b :: t) :: marks := by
  have hdashes : ((b :: t : Text) == Text.lit "--") = false := by
    have hlit : Text.lit "--" = [0x2D, 0x2D] := by decide
    simp [hlit, hdash]
  rw [ofArguments.eq_def]
  simp only [hdashes, Bool.false_eq_true, if_false, h]
  -- only the last way to read an argument is for one without a dash or an `@`
  split
  · rename_i heq
    exact absurd (List.cons.inj heq).1 hdash
  · rename_i heq
    exact absurd (List.cons.inj heq).1 hdash
  · rename_i heq
    exact absurd (List.cons.inj heq).1 hat
  · rename_i heq
    exact absurd (List.cons.inj heq).1 hat
  · rfl

end Mark

/-! ### Plans -/

namespace Plan

/-- The settings that a plan goes by. -/
def settings? : Plan → Option Settings
  | evaluate settings _ _ => some settings
  | serve settings => some settings
  | _ => none

theorem settings?_of_atOnce? {topics : Option Stop} {x : Choice} {plan : Plan}
    (h : atOnce? topics x = some plan) : plan.settings? = none := by
  unfold atOnce? at h
  split at h
  -- help needs words that can be read
  case h_6 => split at h <;> cases h <;> rfl
  all_goals cases h
  all_goals rfl

theorem settings?_of_early? {topics : Option Stop} {l : List Choice} {c : Choices} {plan : Plan}
    (h : early? topics l c = some plan) : plan.settings? = none := by
  rw [early?] at h
  split at h
  · cases h
    rfl
  · obtain ⟨x, -, hx⟩ := List.exists_of_findSome?_eq_some h
    exact settings?_of_atOnce? hx

theorem settings?_ofChoices {command : Subcommand} {c : Choices} {settings : Settings}
    (h : (ofChoices command c).settings? = some settings) : settings = c.effective := by
  unfold ofChoices at h
  dsimp only at h
  split at h
  · cases h
  · split at h
    · cases h
    · split at h <;> cases h <;> rfl

/-- Only a plan for choices that could all be made goes by settings, and then by theirs. -/
theorem effective_of_settings? {invocation : Invocation} {topics : Option Stop}
    {error? : Option ArgumentError} {c : Choices} {settings : Settings}
    (h : (ofMade invocation topics error? c).settings? = some settings) :
    error? = none ∧ settings = c.effective := by
  unfold ofMade at h
  dsimp only at h
  rcases hearly : early? topics invocation.choices c with _ | plan <;> rw [hearly] at h
  · split at h
    · cases h
    · cases h
    · rw [Option.getD_none] at h
      split at h
      · cases h
      · split at h
        · cases h
        · exact ⟨rfl, settings?_ofChoices h⟩
  · have hplan := settings?_of_early? hearly
    split at h
    · cases h
    · rw [Option.getD_some, hplan] at h
      cases h
    · rw [Option.getD_some, hplan] at h
      cases h

variable {readFile : Text → Except FileFault Text} {files : Nat}

/-- What is evaluated or served goes by the settings of all choices together. -/
theorem makes_of_settings? {invocation : Invocation} {settings : Settings}
    (h : (ofInvocation (m := Id) readFile files invocation).settings? = some settings) :
    ∃ c, Choices.Makes readFile .initial invocation.choices c ∧ settings = c.effective := by
  have hmade : (Choices.initial.make (m := Id) readFile [] invocation.choices).1 = none ∧
      settings =
        (Choices.initial.make (m := Id) readFile [] invocation.choices).2.effective := by
    rw [ofInvocation] at h
    dsimp only [bind, pure] at h
    split at h
    · exact effective_of_settings? h
    · exact effective_of_settings? h
  exact ⟨_, Choices.makes_of_make (Prod.ext hmade.1 rfl), hmade.2⟩

/-- **Flags override the settings file, unless they are given the value that stands for nothing.**
Whatever the files, and whichever flags are given with whichever values: if equations are evaluated
or served, this is done with the settings of the file that is named, or the default ones, in which
debugging, skipping of blanks, tolerance, log level and address have the values of their flags where
these are given; but a switch that is turned off, a tolerance of zero and an empty text are passed
over, as if they had not been given. So if no flag has such a value, every flag that is given
overrides the file. -/
theorem flags_override_settings {invocation : Invocation} {settings : Settings}
    (h : (ofInvocation (m := Id) readFile files invocation).settings? = some settings) :
    let file := Settings.ofFile readFile invocation.choices
    let given := Given.ofChoices invocation.choices
    settings = file.override given.effective ∧
      (given.effective = given → settings = file.override given) := by
  intro file given
  obtain ⟨c, hmakes, rfl⟩ := makes_of_settings? h
  have heffective := hmakes.effective_eq
  refine ⟨heffective, fun hall => ?_⟩
  rw [heffective]
  exact congrArg file.override hall

/-- For example, a tolerance of 0.5 overrides a file with a tolerance of one, whose other setting
stays. -/
theorem flags_override_settings_of_tolerance :
    let readFile : Text → Except FileFault Text := fun _ =>
      .ok (Text.lit "equality-tolerance: 1\nskip-spaces: true\n")
    let invocation : Invocation :=
      ⟨[.value .config (Text.lit "c.yml"), .value .tolerance (Text.lit "0.5"), .command .eval,
        .word (Text.lit "1")], none⟩
    ∃ settings, (ofInvocation (m := Id) readFile 0 invocation).settings? = some settings ∧
      (Given.ofChoices invocation.choices).tolerance = some 0.5 ∧
      settings.tolerance = 0.5 ∧ settings.skipSpaces = true := by
  intro readFile invocation
  have hplan : (ofInvocation (m := Id) readFile 0 invocation).settings?.isSome = true := by
    decide +kernel
  obtain ⟨settings, hsettings⟩ := Option.isSome_iff_exists.mp hplan
  have hgiven : Given.ofChoices invocation.choices = ⟨none, none, some 0.5, none, none⟩ := by
    decide +kernel
  have hfile : (Settings.ofFile readFile invocation.choices).skipSpaces = true := by
    decide +kernel
  have hoverride := (flags_override_settings hsettings).2
  rw [hgiven] at hoverride
  generalize Settings.ofFile readFile invocation.choices = file at hoverride hfile
  obtain rfl := hoverride (by decide +kernel)
  exact ⟨_, hsettings, by rw [hgiven], rfl, hfile⟩

/-- But `--tolerance=0` is passed over: the tolerance is that of the file, and not the one that the
flag is given. -/
theorem zero_tolerance_is_passed_over :
    let readFile : Text → Except FileFault Text := fun _ =>
      .ok (Text.lit "equality-tolerance: 1\n")
    let args := [Text.lit "--config=c.yml", Text.lit "--tolerance=0", Text.lit "1.0==1.5"]
    let choices := (Invocation.read (Mark.ofArguments (m := Id) readFile 0 args)).choices
    ∃ settings, (ofArguments (m := Id) readFile 0 args).settings? = some settings ∧
      (Given.ofChoices choices).tolerance = some 0 ∧ settings.tolerance = 1 ∧
      settings ≠ (Settings.ofFile readFile choices).override (Given.ofChoices choices) := by
  intro readFile args choices
  have hmarks : Mark.ofArguments (m := Id) readFile 0 args = [.long (Text.lit "config"),
      .word (Text.lit "c.yml"), .long (Text.lit "tolerance"), .word (Text.lit "0"),
      .word (Text.lit "1.0==1.5")] := by
    refine Mark.ofArguments_long (Text.lit "config=c.yml") (by decide) ?_
    refine Mark.ofArguments_long (Text.lit "tolerance=0") (by decide) ?_
    exact Mark.ofArguments_word (by decide) (by decide) (Mark.ofArguments.eq_def _ _ _)
  have hchoices : choices = [.value .config (Text.lit "c.yml"),
      .value .tolerance (Text.lit "0"), .command .eval, .word (Text.lit "1.0==1.5")] := by
    change (Invocation.read (Mark.ofArguments (m := Id) readFile 0 args)).choices = _
    rw [hmarks]
    decide
  have hplan : (ofArguments (m := Id) readFile 0 args).settings?.map Settings.tolerance =
      some 1 := by
    rw [ofArguments, hmarks]
    decide +kernel
  have hgiven : Given.ofChoices choices = ⟨none, none, some 0, none, none⟩ := by
    rw [hchoices]
    decide +kernel
  obtain ⟨settings, hsettings, htolerance⟩ := Option.map_eq_some_iff.mp hplan
  refine ⟨settings, hsettings, by rw [hgiven], htolerance, fun heq => ?_⟩
  have hzero : settings.tolerance = 0 := by
    rw [heq, hgiven]
    rfl
  exact absurd (htolerance.symm.trans hzero) (by decide +kernel)

end Plan

end Reckon
