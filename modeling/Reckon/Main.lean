import Reckon.Command.Notice
import Reckon.Command.Plan

/-!
# The program

Carries out the plan for the arguments of the program. Files and standard input are read and the
outputs are written here; everything else is decided by `Plan`. What listens for requests, which
reach the calculator through `Service.serve`, and what explains how the program is used are given
from outside (`Main.Outside`).
-/

namespace Reckon

namespace Main

/-- What an error of the system says about a file. -/
def fileFault : IO.Error → FileFault
  | .permissionDenied .. => .forbidden
  | .inappropriateType _ code _ => if code = 20 then .notDirectory else .directory
  | .invalidArgument .. => .longName
  | _ => .missing

/-- The content of a file. -/
def readFile (name : Text) : IO (Except FileFault Text) := do
  match String.fromUTF8? ⟨name.toArray⟩ with
  | none => return .error .missing
  | some path =>
    try
      let bytes ← IO.FS.readBinFile path
      return .ok bytes.data.toList
    catch e => return .error (fileFault e)

/-- What is left on a stream. -/
partial def readAll (stream : IO.FS.Stream) (done : ByteArray) : IO ByteArray := do
  let bytes ← stream.read 65536
  if bytes.isEmpty then return done else readAll stream (done ++ bytes)

/-- Writes to both outputs. -/
def write (o : Output) : IO Unit := do
  let stdout ← IO.getStdout
  stdout.write ⟨o.stdout.toArray⟩
  stdout.flush
  let stderr ← IO.getStderr
  stderr.write ⟨o.stderr.toArray⟩
  stderr.flush

/-- What the program is given to work with. -/
structure Outside where
  /-- Listens for requests until it is stopped, and gives the exit code. -/
  listen : Settings → IO UInt32
  /-- Writes an explanation for the given arguments. -/
  explain : Topic → List Text → IO Unit

/-- Carries out the plan for some arguments and gives the exit code. If there are more files of
arguments than were allowed to be read, there is another plan, for which twice as many and one more
may be read. -/
partial def carryOut (outside : Outside) (files : Nat) (args : List Text) : IO UInt32 := do
  match ← Plan.ofArguments readFile files args with
  | .stop code output =>
    write output
    return code.toUInt32
  | .explain code complaint topic =>
    write ⟨[], complaint⟩
    outside.explain topic args
    return code.toUInt32
  | .evaluate settings mode equations =>
    let input ← if equations.isEmpty then readAll (← IO.getStdin) ByteArray.empty
      else pure ByteArray.empty
    let batch := Plan.batch settings mode equations input.data.toList
    write batch.output
    return (Plan.exitCode batch).toUInt32
  | .serve settings =>
    write settings.startNotice
    outside.listen settings
  | .unread => carryOut outside (2 * files + 1) args

/-- Runs the program. -/
def run (outside : Outside) (args : List String) : IO UInt32 :=
  carryOut outside 0 (args.map Text.lit)

end Main

end Reckon
