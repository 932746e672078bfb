import Reckon.Data.Basic
import Reckon.Session

/-!
# Refused requests

A request is refused for one of a few causes. The client sees a `Failure`: the status of the
response, a message, details, and the byte offset of the culprit if an equation could not be read.
-/

namespace Reckon

/-- What a client is told about a refused request. -/
structure Failure where
  status : Int64
  message : Text
  details : Text
  /-- The byte offset of the culprit in the equation. -/
  pos : Option Nat

namespace Failure

/-- A failure without details. -/
def ofMessage (status : Int64) (message : Text) : Failure := ⟨status, message, [], none⟩

/-- The failure in one line. -/
def describe (f : Failure) : Text :=
  let line := Text.ofInt f.status.toInt ++ Text.lit " " ++ f.message
  if f.details.isEmpty then line else line ++ Text.lit " (" ++ f.details ++ Text.lit ")"

/-- The failure as a document; what is empty is left out. -/
def data (f : Failure) : Data :=
  .fields ([(Text.lit "status", .int f.status)]
    ++ Data.optionalText "message" f.message
    ++ Data.optionalText "details" f.details
    ++ Data.optional "pos" (f.pos.map fun n => .int (Int64.ofNat n)))

end Failure

/-- Why a request is refused. -/
inductive Refusal where
  /-- The parameters of the request cannot be had, for the given cause. -/
  | malformedParameters (cause : Text)
  | equation (e : EquationError)
  | tooManySessions
  | noSession (name : Text)
  /-- A log level that cannot be set. -/
  | level (message : Text)
  /-- A failure of the program itself. -/
  | breakdown (message : Text)

namespace Refusal

/-- What the client is told. -/
def failure : Refusal → Failure
  | malformedParameters cause =>
    ⟨400, cause, Text.lit "failed to parse request parameters", none⟩
  | equation e => ⟨400, e.message, Text.lit "failed to evaluate equation", e.pos?⟩
  | tooManySessions =>
    ⟨429, Text.lit "too many sessions", Text.lit "drop a session first", none⟩
  | noSession name => ⟨404, Text.lit "no such session", name, none⟩
  | level message => ⟨400, message, Text.lit "failed to change logging level", none⟩
  | breakdown message => Failure.ofMessage 500 message

end Refusal

end Reckon
