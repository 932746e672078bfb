import Reckon.Batch
import Reckon.Http.Server
import Reckon.Settings.Basic

/-!
# What is said when the service starts

In debug mode the service lists its routes on standard output before it listens: every endpoint
under each of its methods, and the version of the program. Otherwise it starts without a word.
-/

namespace Reckon

/-- A route as it is listed. -/
structure Route where
  method : Text
  path : Text
  /-- The name of what answers a request. -/
  handler : Text
deriving DecidableEq, Repr

namespace Route

/-- The name of what answers a request to an endpoint. -/
def handlerOf (e : Endpoint) : Text :=
  let action := match e with
    | .eval => "DoEval"
    | .bindings => "DoVars"
    | .drop => "DoDropSession"
    | .levels => "DoLoggingLevel"
  Text.lit "go.creack.net/eqcalc/rest.(*Server)." ++ Text.lit action ++ Text.lit "-fm"

/-- All routes, in the order in which they are listed. -/
def all : List Route :=
  (Endpoint.all.flatMap fun e => e.methods.map fun method => ⟨method, e.path, handlerOf e⟩)
    ++ [⟨Text.lit "GET", Text.lit "/version", Text.lit "main.runServe.func1"⟩]

/-- A text followed by blanks, up to a width. -/
def padded (width : Nat) (t : Text) : Text := t ++ List.replicate (width - t.length) ' '.toUInt8

/-- The line that lists a route. -/
def line (r : Route) : Text :=
  Text.lit "[GIN-debug] " ++ padded 6 r.method ++ Text.lit " " ++ padded 25 r.path
    ++ Text.lit " --> " ++ r.handler ++ Text.lit " (2 handlers)\n"

end Route

/-- What is written when the service starts. -/
def Settings.startNotice (s : Settings) : Output :=
  if s.debug then
    let warning := Text.lit ("[GIN-debug] [WARNING] Running in \"debug\" mode. "
      ++ "Switch to \"release\" mode in production.\n - using env:\texport GIN_MODE=release\n"
      ++ " - using code:\tgin.SetMode(gin.ReleaseMode)\n\n")
    ⟨warning ++ Route.all.flatMap Route.line, []⟩
  else Output.empty

end Reckon
