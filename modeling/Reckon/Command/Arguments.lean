import Reckon.Command.Flag
import Reckon.Decimal.Reader
import Reckon.Settings.Basic
import Reckon.Text.Lines

/-!
# Arguments of the program

Arguments are cut into marks: long flags (`--name`, with a value after `=`), letters (`-ds` is two
of them, and what follows a letter that takes a value is the value), and words. After `--` there are
only words. An argument `@file` stands for the lines of the file, in which there may be more of its
kind without an end; so the number of files that are read is given, and it is told apart if they
were not enough.

`Invocation.read` then sorts the marks into a command, choices and words. As long as no command is
named, anything that only makes sense for evaluating equations, or makes no sense at all, settles on
that command.
-/

namespace Reckon

/-- Why a file of arguments cannot be put in place of its name. -/
inductive ArgumentFileFault where
  | noName
  | unreadable (name : Text) (fault : FileFault)
  /-- A file with a line that is too long. -/
  | longLine (name : Text)
deriving DecidableEq, Repr

namespace ArgumentFileFault

/-- What the user is told. A directory fails only when it is read. -/
def message : ArgumentFileFault → Text
  | noName => Text.lit "expected @ file to expand arguments from"
  | unreadable name .directory =>
    Text.lit "failed to read arguments from " ++ Text.quote name ++ Text.lit ": "
      ++ FileFault.directory.message name
  | unreadable name fault =>
    Text.lit "failed to open arguments file " ++ Text.quote name ++ Text.lit ": "
      ++ fault.message name
  | longLine name =>
    Text.lit "failed to read arguments from " ++ Text.quote name
      ++ Text.lit ": bufio.Scanner: token too long"

end ArgumentFileFault

/-- A part of the arguments. -/
inductive Mark where
  | long (name : Text)
  | letter (name : Text)
  | word (t : Text)
  | badFile (fault : ArgumentFileFault)
  /-- A file of arguments that is one too many. -/
  | unread (file : Text)
deriving DecidableEq, Repr

namespace Mark

/-- A mark as it is written. -/
def text : Mark → Text
  | long name => Text.lit "--" ++ name
  | letter name => Text.lit "-" ++ name
  | word t => t
  | badFile fault => fault.message
  | unread file => Text.lit "@" ++ file

/-- A long flag, given without its dashes. -/
def ofLong (t : Text) : List Mark :=
  match Text.cut '='.toUInt8 t with
  | some (name, value) => [long name, word value]
  | none => [long t]

/-- Reads the first letter of an argument, given without its dash. A letter that takes a value
takes the rest of the argument, if there is one. After any other letter the rest is an argument with
a dash of its own, so that `-d-` is `-d` and `--`. -/
def ofLetters (t : Text) : List Mark × List Text :=
  match t.uncons with
  | none => ([letter []], [])
  | some (r, rest) =>
    let name := Text.ofChar r.char
    if rest.isEmpty then ([letter name], [])
    else if (Flag.ofLetter? name).any Flag.takesValue then ([letter name, word rest], [])
    else ([letter name], ['-'.toUInt8 :: rest])

/-- How much there is to read in some arguments. -/
def weight : List Text → Nat
  | [] => 0
  | t :: args => t.length + 1 + weight args

theorem weight_cons (t : Text) (args : List Text) :
    weight (t :: args) = t.length + 1 + weight args :=
  rfl

theorem weight_append (a b : List Text) : weight (a ++ b) = weight a + weight b := by
  induction a with
  | nil => simp [weight]
  | cons t a ih =>
    rw [List.cons_append, weight_cons, weight_cons, ih]
    omega

/-- What is left of an argument after its first letter is shorter than the argument. -/
theorem weight_ofLetters (t : Text) : weight (ofLetters t).2 < t.length + 2 := by
  unfold ofLetters
  split
  · simp [weight]
  · rename_i h
    have := Text.length_of_uncons h
    dsimp only
    split
    · simp [weight]
    · split
      · simp [weight]
      · simp [weight]; omega

/-- The arguments in a file, one per line; lines that start with `#` do not count. There are none in
a file with a line that is too long. -/
def fileArguments (file : Text) : Option (List Text) :=
  let lines := Text.lines file
  if lines.all Text.fitsLine then
    some ((lines.map (Text.dropLastByte '\r'.toUInt8)).filter fun t => t.head? != some '#'.toUInt8)
  else none

variable {m : Type → Type} [Monad m]

/-- The marks of some arguments, in which at most the given number of files are put in place of
their names. Nothing is read after a file that cannot be read, or after one too many. -/
def ofArguments (readFile : Text → m (Except FileFault Text)) (files : Nat) (args : List Text) :
    m (List Mark) :=
  match args with
  | [] => pure []
  | t :: rest =>
    if t == Text.lit "--" then pure (rest.map word)
    else
      match t with
      | 0x2D :: 0x2D :: name => do return ofLong name ++ (← ofArguments readFile files rest)
      | 0x2D :: letters => do
        let first := ofLetters letters
        return first.1 ++ (← ofArguments readFile files (first.2 ++ rest))
      | [0x40] => pure [badFile .noName]
      | 0x40 :: name => do
        match files with
        | 0 => return [unread name]
        | files + 1 =>
          match ← readFile name with
          | .error fault => return [badFile (.unreadable name fault)]
          | .ok file =>
            match fileArguments file with
            | none => return [badFile (.longLine name)]
            | some args => ofArguments readFile files (args ++ rest)
      | t => do return word t :: (← ofArguments readFile files rest)
termination_by (files, weight args)
decreasing_by
  · apply Prod.Lex.right
    simp only [weight_cons, List.length_cons]
    omega
  · apply Prod.Lex.right
    have := weight_ofLetters letters
    simp only [weight_cons, weight_append, List.length_cons]
    omega
  · exact Prod.Lex.left _ _ (Nat.lt_succ_self _)
  · apply Prod.Lex.right
    simp only [weight_cons]
    omega

end Mark

/-! ### Errors -/

/-- What is wrong with the arguments. -/
inductive ArgumentError where
  | unknownFlag (m : Mark)
  | missingValue (m : Mark)
  | unexpected (t : Text)
  | expectedCommand (t : Text)
  | badFile (fault : ArgumentFileFault)
  | repeated (f : Flag)
  | badNumber (t : Text) (fault : FloatText.Fault)
  | settings (e : SettingsError)

namespace ArgumentError

/-- What the user is told. -/
def message : ArgumentError → Text
  | unknownFlag m =>
    let kind := match m with
      | .letter _ => Text.lit "short"
      | _ => Text.lit "long"
    Text.lit "unknown " ++ kind ++ Text.lit " flag '" ++ m.text ++ Text.lit "'"
  | missingValue m => Text.lit "expected argument for flag '" ++ m.text ++ Text.lit "'"
  | unexpected t => Text.lit "unexpected " ++ t
  | expectedCommand t => Text.lit "expected command but got " ++ Text.quote t
  | badFile fault => fault.message
  | repeated f => Text.lit "flag '" ++ f.name ++ Text.lit "' cannot be repeated"
  | badNumber t fault =>
    let reason := match fault with
      | .malformed => Text.lit "invalid syntax"
      | .outOfRange => Text.lit "value out of range"
    Text.lit "strconv.ParseFloat: parsing " ++ Text.quote t ++ Text.lit ": " ++ reason
  | settings e => e.message

end ArgumentError

/-! ### Commands, choices and words -/

/-- What a mark means. -/
inductive Choice where
  /-- A flag with its value. -/
  | value (f : Flag) (t : Text)
  /-- A flag without value, possibly negated. -/
  | switch (f : Flag) (on : Bool)
  | word (t : Text)
  | command (c : Subcommand)
deriving DecidableEq, Repr

/-- Why the reading of arguments stops before their end. -/
inductive Stop where
  | error (e : ArgumentError)
  /-- There are more files of arguments than may be read. -/
  | unread

/-- The arguments in order, up to where their reading stops. -/
structure Invocation where
  choices : List Choice
  stop? : Option Stop

namespace Invocation

/-- The known flag that a mark names; the truth value tells whether it is not negated. -/
def flag? (command : Option Subcommand) : Mark → Option (Flag × Bool)
  | .long name =>
    match Flag.ofName? command name with
    | some f => some (f, true)
    | none => do
      let f ← Flag.ofName? command (← Text.afterStart? (Text.lit "no-") name)
      if f.takesValue then none else some (f, false)
  | .letter name => ((Flag.ofLetter? name).filter (Flag.isKnown command)).map fun f => (f, true)
  | _ => none

/-- Why reading stops at a flag without its value, given the marks after it. -/
def valueStop (m : Mark) : List Mark → Stop
  | .unread _ :: _ => .unread
  | _ => .error (.missingValue m)

/-- Reads the marks after a command, with the choices made before them (last one first). -/
def afterCommand (c : Subcommand) (done : List Choice) : List Mark → Invocation
  | [] => ⟨done.reverse, none⟩
  | .unread _ :: _ => ⟨done.reverse, some .unread⟩
  | .badFile fault :: _ => ⟨done.reverse, some (.error (.badFile fault))⟩
  | .word t :: rest =>
    if c.takesWords then afterCommand c (.word t :: done) rest
    else ⟨done.reverse, some (.error (.unexpected t))⟩
  | m :: rest =>
    match flag? (some c) m with
    | none => ⟨done.reverse, some (.error (.unknownFlag m))⟩
    | some (f, on) =>
      if f.takesValue then
        match rest with
        | .word t :: rest => afterCommand c (.value f t :: done) rest
        | rest => ⟨done.reverse, some (valueStop m rest)⟩
      else afterCommand c (.switch f on :: done) rest

/-- Names a command and reads on. -/
def choose (c : Subcommand) (done : List Choice) (marks : List Mark) : Invocation :=
  afterCommand c (.command c :: done) marks

/-- Reads marks before a command is named, with the choices made before them (last one first). A
flag without its value is passed over, and the mark that stands in place of the value is then read
twice. -/
def beforeCommand (done : List Choice) : List Mark → Invocation
  | [] => choose .eval done []
  | .unread file :: rest => choose .eval done (.unread file :: rest)
  | .badFile fault :: rest => choose .eval done (.badFile fault :: rest)
  | .word t :: rest =>
    match Subcommand.ofText? t with
    | some c => choose c done rest
    | none => choose .eval done (.word t :: rest)
  | m :: rest =>
    match flag? none m with
    | none => choose .eval done (m :: rest)
    | some (f, on) =>
      if f.takesValue then
        match rest with
        | .word t :: rest => beforeCommand (.value f t :: done) rest
        | [] => choose .eval done []
        | next :: rest => choose .eval done (next :: next :: rest)
      else beforeCommand (.switch f on :: done) rest

/-- Reads the arguments of the program. -/
def read (marks : List Mark) : Invocation := beforeCommand [] marks

/-- Why the reading of words stops that should name a command to be explained. No command is taken
for granted here. -/
def topicStop? : List Mark → Option Stop
  | [] => none
  | .unread _ :: _ => some .unread
  | .badFile fault :: _ => some (.error (.badFile fault))
  | .word t :: rest =>
    match Subcommand.ofText? t with
    | some c => (afterCommand c [] rest).stop?
    | none => some (.error (.expectedCommand t))
  | m :: rest =>
    match flag? none m with
    | none => some (.error (.unknownFlag m))
    | some (f, _) =>
      if f.takesValue then
        match rest with
        | .word _ :: rest => topicStop? rest
        | rest => some (valueStop m rest)
      else topicStop? rest

end Invocation

end Reckon
