import Reckon.Command.Plan
import Reckon.Proofs.Session.Messages
import Reckon.Proofs.Text.Lines

/-!
# A batch is the fold of its lines

A runner reads an input line by line: it cuts off the next line, passes over it if it is blank,
gives it to `Runner.line` otherwise and goes on with what is left. Where the next line is too long
it stops. Equations in the arguments of the program are gone through in a loop of their own.

`Runner.equations` says what this comes to. Of all lines of the input it takes those before the
first one that is too long, leaves out the blank ones and drops up to two carriage returns at the
end of each. `Runner.run_eq_lines` and `Runner.lines_eq` say that a run is the fold of `Runner.line`
over these equations, and `Plan.batch_is_fold_of_lines` puts together what follows for the program:

* outputs, table and number of failures are those of the single equations in order;
* each equation writes to one of the two outputs, and a value is written in one line, unless the
  runner was given a table with a value that is not (`Runner.value_in_two_lines`);
* equations in the arguments and the same equations on the lines of the input come to the same.
-/

namespace Reckon

open Text

namespace Text

/-- One line with its newline. -/
def IsTerminatedLine (t : Text) : Prop := ∃ line, OneLine line ∧ t = line ++ Text.lit "\n"

/-- What is read as it is where it is a line of an input. -/
structure IsPlainLine (t : Text) : Prop where
  not_blank : t.isAllBlank = false
  oneLine : OneLine t
  last_ne : t.getLast? ≠ some '\r'.toUInt8
  length_le : t.length ≤ 65535

instance (t : Text) : Decidable t.IsPlainLine :=
  decidable_of_iff (t.isAllBlank = false ∧ OneLine t ∧ t.getLast? ≠ some '\r'.toUInt8 ∧
      t.length ≤ 65535)
    ⟨fun ⟨h1, h2, h3, h4⟩ => ⟨h1, h2, h3, h4⟩, fun ⟨h1, h2, h3, h4⟩ => ⟨h1, h2, h3, h4⟩⟩

namespace IsPlainLine

variable {t : Text}

theorem ne_nil (h : t.IsPlainLine) : t ≠ [] := by
  rintro rfl
  exact absurd h.not_blank (by simp [isAllBlank, chars])

theorem fits (h : t.IsPlainLine) : fitsLine t = true := decide_eq_true h.length_le

end IsPlainLine

end Text

/-- An equation that is cut into tokens has one at least, that of its end. -/
theorem Lexer.tokenize_ne_nil {skipBlanks : Bool} {equation : Text} {tokens : List Token}
    (h : tokenize skipBlanks equation = (tokens, none)) : tokens ≠ [] := by
  obtain rfl : (tokenize skipBlanks equation).1 = tokens := congrArg Prod.fst h
  rw [tokenize] at h ⊢
  rcases hnext : (ofText skipBlanks equation).next with ⟨e | t, after⟩
  · rw [drain_of_next_error hnext] at h
    cases h
  · rw [drain_of_next hnext]
    split <;> exact List.cons_ne_nil _ _

namespace Runner

/-- Processes one equation. -/
def act (r : Runner) (equation : Text) : (Bool × Output) × Runner :=
  let (succeeded, output, r) := r.line equation
  ((succeeded, output), r)

/-- A line without the carriage returns in front of its newline, of which there may be two. -/
def trimLine (t : Text) : Text :=
  dropLastByte '\r'.toUInt8 (dropLastByte '\r'.toUInt8 t)

/-- The equations of an input: the lines before the first one that is too long, without the blank
ones. -/
def equations (input : Text) : List Text :=
  (((Text.lines input).takeWhile fitsLine).filter fun t => !t.isAllBlank).map trimLine

/-! ### Runs -/

/-- What successive equations come to is put together from what each one comes to. -/
theorem lines_eq (r : Runner) (equations : List Text) :
    r.lines equations =
      let steps := transcript act r equations
      { failed := steps.countP fun e => !e.output.1
        output :=
          ⟨steps.flatMap fun e => e.output.2.stdout, steps.flatMap fun e => e.output.2.stderr⟩
        tooLong := false
        runner := stateAfter act r equations } := by
  induction equations generalizing r with
  | nil => rfl
  | cons equation rest ih =>
    rw [lines]
    rcases hline : r.line equation with ⟨succeeded, output, r'⟩
    have hact : r.act equation = ((succeeded, output), r') := by rw [act, hline]
    have hcount (n : Nat) : (if succeeded then 0 else 1) + n =
        n + if !succeeded then 1 else 0 := by
      cases succeeded <;> simp [Nat.add_comm]
    have hend : stateAfter act r (equation :: rest) = stateAfter act r' rest := by
      rw [stateAfter, List.foldl_cons, hact]
      rfl
    dsimp only
    rw [ih, hend, transcript, exchange, hact, List.countP_cons, List.flatMap_cons,
      List.flatMap_cons, ← hcount]
    rfl

/-- A line that is read and not blank is an equation, and a line that is read and blank is not. -/
theorem equations_of_line {input t rest : Text} (h : Text.lines input = t :: Text.lines rest)
    (hfits : fitsLine t = true) :
    equations input = if (trimmed (trimLine t)).isEmpty then equations rest
      else trimLine t :: equations rest := by
  rw [equations, h, List.takeWhile_cons_of_pos hfits, isEmpty_trimmed, trimLine,
    isAllBlank_dropLastByte, isAllBlank_dropLastByte]
  cases hblank : t.isAllBlank with
  | true => rw [List.filter_cons_of_neg (by simp [hblank]), if_pos rfl, equations]
  | false =>
    rw [List.filter_cons_of_pos (by simp [hblank]), if_neg Bool.false_ne_true, List.map_cons,
      equations, trimLine]

/-- Nothing behind a line that is too long is an equation. -/
theorem equations_of_tooLong {input t rest : Text} (h : Text.lines input = t :: Text.lines rest)
    (hlong : fitsLine t = false) : equations input = [] := by
  rw [equations, h, List.takeWhile_cons_of_neg (by simp [hlong])]
  rfl

/-- **A run goes through the equations of its input.** -/
theorem run_eq_lines (r : Runner) (input : Text) :
    r.run input = { r.lines (equations input) with
      tooLong := !(Text.lines input).all fitsLine } := by
  have hread := isTrueOf_nextLine input
  fun_induction run r input with
  | case1 r input h =>
    rw [h] at hread
    have hnil : Text.lines input = [] := hread
    rw [equations, hnil]
    rfl
  | case2 r input h =>
    rw [h] at hread
    obtain ⟨line, rest, hlines, hlong⟩ := hread
    rw [equations_of_tooLong hlines hlong, hlines, List.all_cons, hlong]
    rfl
  | case3 r input t rest h equation hblank ih =>
    rw [h] at hread
    obtain ⟨line, hlines, hfits, rfl⟩ := hread
    have hpassed : (trimmed (trimLine line)).isEmpty = true := hblank
    rw [ih (isTrueOf_nextLine rest), equations_of_line hlines hfits, if_pos hpassed, hlines,
      List.all_cons, hfits, Bool.true_and]
  | case4 r input t rest h equation hblank succeeded output r' hline ih =>
    rw [h] at hread
    obtain ⟨line, hlines, hfits, rfl⟩ := hread
    have hgiven : ¬ (trimmed (trimLine line)).isEmpty = true := hblank
    have hline' : r.line (trimLine line) = (succeeded, output, r') := hline
    rw [ih (isTrueOf_nextLine rest), equations_of_line hlines hfits, if_neg hgiven, hlines,
      List.all_cons, hfits, Bool.true_and, lines, hline']
    rfl

/-- A run stops early exactly at a line that is too long. -/
theorem tooLong_run (r : Runner) (input : Text) :
    (r.run input).tooLong = true ↔ ∃ line ∈ Text.lines input, 65535 < line.length := by
  rw [run_eq_lines, Bool.not_eq_true', List.all_eq_false]
  refine exists_congr fun line => and_congr_right fun _ => ?_
  rw [fitsLine, maxLine, decide_eq_true_iff, Nat.not_le]

/-! ### One equation -/

/-- What is written for an equation follows from the answer to it. -/
theorem act_eq (r : Runner) (equation : Text) :
    r.act equation =
      match r.answer equation with
      | (.ok text, after) => ((true, ⟨text, []⟩), after)
      | (.error e, after) => ((false, ⟨[], e.report equation⟩), after) := by
  rw [act, line]
  rcases r.answer equation with ⟨e | text, after⟩
  · rfl
  · rfl

/-- What is answered ends with a newline. -/
theorem answer_ne_nil {r after : Runner} {equation text : Text}
    (h : r.answer equation = (.ok text, after)) : text ≠ [] := by
  have hnewline {t : Text} : t ++ Text.lit "\n" ≠ [] :=
    List.append_ne_nil_of_right_ne_nil _ (by decide)
  unfold answer at h
  split at h
  · split at h <;> cases h
    rename_i tokens htokens
    obtain ⟨t, rest, rfl⟩ := List.exists_cons_of_ne_nil (Lexer.tokenize_ne_nil htokens)
    rw [List.flatMap_cons]
    exact List.append_ne_nil_of_left_ne_nil hnewline _
  · dsimp only at h
    split at h <;> cases h
    exact hnewline
  · dsimp only at h
    split at h <;> cases h
    exact hnewline

/-- **An equation writes to one of the outputs**, and to which one tells whether it succeeded. -/
theorem output_act (r : Runner) (equation : Text) :
    let (succeeded, output) := (r.act equation).1
    (succeeded = true ↔ output.stdout ≠ []) ∧ (succeeded = false ↔ output.stderr ≠ []) := by
  rw [act_eq]
  rcases h : r.answer equation with ⟨e | text, after⟩
  · have hreport : e.report equation ≠ [] := by
      rw [EquationError.report, List.append_assoc, List.append_assoc]
      exact List.append_ne_nil_of_left_ne_nil (by decide) _
    simp [hreport]
  · simp [answer_ne_nil h]

/-- A runner goes on in its mode, with a legible table if it had one. -/
theorem keeps_act (r : Runner) (equation : Text) :
    (r.act equation).2.mode = r.mode ∧
      (Legible r.table → Legible (r.act equation).2.table) := by
  have hact : (r.act equation).2 = (r.answer equation).2 := by
    rw [act_eq]
    rcases r.answer equation with ⟨e | text, after⟩
    · rfl
    · rfl
  rw [hact]
  unfold answer
  split
  · split <;> exact ⟨rfl, id⟩
  · dsimp only
    split <;> exact ⟨rfl, id⟩
  · have hafter (h : Legible r.table) : Legible (r.session.eval r.table equation).2.2 := by
      rw [(r.session.eval_eq r.table equation).2.1]
      exact r.session.options.legible_eval h equation
    dsimp only
    split <;> exact ⟨rfl, hafter⟩

/-- What is printed of the result of an equation. -/
def printed (equation : Text) : Except EquationError Value → Bool × Output
  | .ok v => (true, ⟨v.text ++ Text.lit "\n", []⟩)
  | .error e => (false, ⟨[], e.report equation⟩)

/-- A runner for values prints the result that the equation has for its options and its table. -/
theorem output_of_value {r : Runner} (h : r.mode = .value) (equation : Text) :
    (r.act equation).1 = printed equation (r.session.options.eval r.table equation).1 := by
  rw [← (r.session.eval_eq r.table equation).1, act_eq, answer, h]
  dsimp only
  rcases (r.session.eval r.table equation).1 with e | v
  · rfl
  · rfl

/-- **A value is written in one line.** -/
theorem line_of_value {r : Runner} (hmode : r.mode = .value) (htable : Legible r.table)
    {equation : Text} (h : (r.act equation).1.1 = true) :
    (r.act equation).1.2.stdout.IsTerminatedLine := by
  have hline := r.session.options.oneLine_eval htable equation
  rw [output_of_value hmode] at h ⊢
  rcases heval : (r.session.options.eval r.table equation).1 with e | v <;>
    rw [heval] at h hline
  · cases h
  · exact ⟨v.text, hline, rfl⟩

end Runner

/-! ### Equations in the arguments -/

theorem Runner.trimLine_of_isPlainLine {t : Text} (h : t.IsPlainLine) : trimLine t = t := by
  have hkept : dropLastByte '\r'.toUInt8 t = t := if_neg (by simpa using h.last_ne)
  rw [trimLine, hkept, hkept]

/-- **Equations that are joined by newlines are run like the equations one by one.** -/
theorem Runner.run_join (r : Runner) {equations : List Text}
    (h : ∀ equation ∈ equations, equation.IsPlainLine) :
    r.run (join (Text.lit "\n") equations) = r.lines equations := by
  have hlines : Text.lines (join (Text.lit "\n") equations) = equations :=
    lines_join fun equation hequation =>
      ⟨(h equation hequation).oneLine, (h equation hequation).ne_nil⟩
  have hfits : ∀ equation ∈ equations, fitsLine equation = true :=
    fun equation hequation => (h equation hequation).fits
  have hkept : Runner.equations (join (Text.lit "\n") equations) = equations := by
    rw [Runner.equations, hlines, List.takeWhile_eq_self_iff.mpr hfits, List.filter_eq_self.mpr]
    · have htrimmed : ∀ equation ∈ equations, trimLine equation = equation :=
        fun equation hequation => trimLine_of_isPlainLine (h equation hequation)
      rw [List.map_congr_left htrimmed, List.map_id']
    · intro equation hequation
      rw [(h equation hequation).not_blank, Bool.not_false]
  rw [run_eq_lines, hkept, hlines, List.all_eq_true.mpr hfits, lines_eq]
  rfl

/-- **A batch is the fold of its lines.**

* A run, of any runner on any input, has the outputs and the table of its equations in order, and as
  many failures as equations that fail, none of which stops it. It stops early exactly if there is a
  line of more than 65535 bytes.
* An equation writes to one of the two outputs, to the first one if it succeeds. A value is written
  in one line if the values in the table can be, and then those in the table after it can be, too.
  They can be in a new runner.
* Equations of the arguments, if there are any and each is read as it is on a line, come to the same
  batch as an input with these lines, and so to the same outputs and exit code. -/
theorem Plan.batch_is_fold_of_lines :
    (∀ (r : Runner) (input : Text),
      let steps := transcript Runner.act r (Runner.equations input)
      (r.run input).failed = steps.countP (fun e => !e.output.1) ∧
        (r.run input).output.stdout = steps.flatMap (fun e => e.output.2.stdout) ∧
        (r.run input).output.stderr = steps.flatMap (fun e => e.output.2.stderr) ∧
        (r.run input).runner = stateAfter Runner.act r (Runner.equations input) ∧
        ((r.run input).tooLong = true ↔ ∃ line ∈ Text.lines input, 65535 < line.length)) ∧
      (∀ (r : Runner) (equation : Text),
        let ((succeeded, output), after) := r.act equation
        (succeeded = true ↔ output.stdout ≠ []) ∧ (succeeded = false ↔ output.stderr ≠ []) ∧
          (r.mode = .value → Legible r.table → succeeded = true → output.stdout.IsTerminatedLine) ∧
          after.mode = r.mode ∧ (Legible r.table → Legible after.table)) ∧
      (∀ o mode, Legible (Runner.ofOptions o mode).table) ∧
      ∀ (settings : Settings) (mode : Mode) (equations : List Text) (input : Text),
        equations ≠ [] → (∀ equation ∈ equations, equation.IsPlainLine) →
          batch settings mode [] (join (Text.lit "\n") equations) =
            batch settings mode equations input := by
  refine ⟨?_, ?_, fun o mode => plain_empty.legible, ?_⟩
  · intro r input
    have hstops := r.tooLong_run input
    rw [r.run_eq_lines, r.lines_eq] at hstops ⊢
    exact ⟨rfl, rfl, rfl, rfl, hstops⟩
  · intro r equation
    obtain ⟨hstdout, hstderr⟩ := r.output_act equation
    obtain ⟨hmode, hlegible⟩ := r.keeps_act equation
    exact ⟨hstdout, hstderr, fun hvalue htable => Runner.line_of_value hvalue htable,
      hmode, hlegible⟩
  · intro settings mode equations input hne hplain
    have hsome : equations.isEmpty = false := by simpa using hne
    rw [batch, batch, hsome]
    exact Runner.run_join _ hplain

/-- For example, of two good equations with a bad one between them, in an input with a blank line
and with two carriage returns behind the first equation. -/
theorem Plan.batch_is_fold_of_three_lines :
    let settings := Settings.default
    let r := Runner.ofOptions settings.sessionOptions .value
    let input := Text.lit "a=1\r\r\n \n$\na*2"
    let equations := [Text.lit "a=1", Text.lit "$", Text.lit "a*2"]
    Runner.equations input = equations ∧
      (r.run input).failed = (transcript Runner.act r equations).countP (fun e => !e.output.1) ∧
      (r.run input).runner = stateAfter Runner.act r equations ∧ (r.run input).tooLong = false ∧
      r.mode = .value ∧ Legible r.table ∧ (r.act (Text.lit "1")).1.1 = true ∧
      (r.act (Text.lit "1")).1.2.stdout.IsTerminatedLine ∧
      equations ≠ [] ∧ (∀ equation ∈ equations, equation.IsPlainLine) ∧
      batch settings .value [] (Text.lit "a=1\n$\na*2") = batch settings .value equations [] := by
  intro settings r input equations
  obtain ⟨hrun, hact, hlegible, hbatch⟩ := batch_is_fold_of_lines
  have hread : Runner.equations input = equations := by decide +kernel
  obtain ⟨hfailed, -, -, hrunner, hlong⟩ := hrun r input
  rw [hread] at hfailed hrunner
  have hshort : (r.run input).tooLong = false := by
    rw [← Bool.not_eq_true, hlong]
    decide +kernel
  have hsucceeds : (r.act (Text.lit "1")).1.1 = true := by
    have hlexed : Lexer.tokenize false (Text.lit "1") =
        ([⟨.int, Text.lit "1", 0⟩] ++ [⟨.eof, [], 1⟩], none) := by
      rw [Lexer.tokenize, Lexer.drain_eq_tokens (Lexer.agrees_ofText _ _)]
      decide +kernel
    have hparse : parse false (Text.lit "1") = .ok (.int 1) :=
      parse_of_derives hlexed rfl (by decide)
        (Derives.of_le (Nat.zero_le 3) (.of_isLiteral (t := ⟨.int, Text.lit "1", 0⟩) rfl))
    have hoptions : r.session.options.skipBlanks = false := rfl
    rw [Runner.output_of_value rfl, SessionOptions.eval, hoptions, hparse]
    rfl
  have hplain : ∀ equation ∈ equations, equation.IsPlainLine := by decide +kernel
  have hne : equations ≠ [] := by decide
  obtain ⟨-, -, hline, -⟩ := hact r (Text.lit "1")
  exact ⟨hread, hfailed, hrunner, hshort, rfl, hlegible _ _, hsucceeds,
    hline rfl (hlegible _ _) hsucceeds, hne, hplain, hbatch settings .value equations [] hne hplain⟩

/-- **A table can hold what is not written in one line.** A runner is given a table in which `x` is
an assignment to a name with a newline in it, which no equation can make. Its value is written in
two lines. -/
theorem Runner.value_in_two_lines :
    let v : Value := .assignment (Text.lit "a\nb") (.number (.int 1))
    let r : Runner := ⟨Session.ofOptions ⟨false, 0⟩, Dict.empty.insert (Text.lit "x") v, .value⟩
    r.mode = .value ∧ (r.act (Text.lit "x")).1 = (true, ⟨Text.lit "a\nb = 1\n", []⟩) ∧
      ¬ (r.act (Text.lit "x")).1.2.stdout.IsTerminatedLine := by
  intro v r
  have hlexed : Lexer.tokenize false (Text.lit "x") =
      ([⟨.identifier, Text.lit "x", 0⟩] ++ [⟨.eof, [], 1⟩], none) := by
    rw [Lexer.tokenize, Lexer.drain_eq_tokens (Lexer.agrees_ofText _ _)]
    decide +kernel
  have hparse : parse false (Text.lit "x") = .ok (.identifier (Text.lit "x")) :=
    parse_of_derives hlexed rfl (by decide)
      (Derives.of_le (Nat.zero_le 3) (.of_isLiteral (t := ⟨.identifier, Text.lit "x", 0⟩) rfl))
  have hoptions : r.session.options.skipBlanks = false := rfl
  have hprinted : (r.act (Text.lit "x")).1 = (true, ⟨Text.lit "a\nb = 1\n", []⟩) := by
    rw [Runner.output_of_value rfl, SessionOptions.eval, hoptions, hparse]
    rfl
  refine ⟨rfl, hprinted, ?_⟩
  rw [hprinted]
  rintro ⟨line, hline, htext⟩
  -- the newline at the end is the last one, so the line would have to hold the other one
  have hinit : line = Text.lit "a\nb = 1" := List.append_cancel_right htext.symm
  exact absurd (hinit ▸ hline) (by decide)

end Reckon
