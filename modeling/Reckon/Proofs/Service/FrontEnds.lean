import Reckon.Proofs.Batch.Lines
import Reckon.Proofs.Batch.Reports
import Reckon.Proofs.Http.WrittenForms
import Reckon.Proofs.Service.Isolation
import Reckon.Proofs.Service.Leftovers
import Reckon.Proofs.Session.Messages

/-!
# The front ends agree

Equations can be given to a runner, which prints what comes of them, or be sent to a service. Both
are drivers of the same sessions, written apart from each other: each has its own way to start a
session, to keep it over failures, to tell failures that have a place from others, and to show a
value.

`Service.front_ends_agree` says that on every list of equations they tell the same story.
`Reply.Agrees` is what this means for one equation: a printed line is the result in the reply, and a
printed report has the message of the reply in its first line and a caret exactly at the place that
the reply gives.

The states go together (`Service.Follows`): under the name of its session the service holds the
session and the table of the runner. One equation keeps this, and so does a run.
-/

namespace Reckon

open Text

/-! ### One equation -/

/-- A reply to a request to evaluate an equation agrees with what a runner makes of that equation:
whether it succeeds, and what is written to the two outputs. -/
def Reply.Agrees (equation : Text) (reply : Reply) (printed : Bool × Output) : Prop :=
  match reply with
  | .answer (.ok (.result r)) _ =>
    printed.1 = true ∧ reply.response.status = 200 ∧
      printed.2 = ⟨r.result ++ Text.lit "\n", []⟩
  | .answer (.error e) _ =>
    printed.1 = false ∧ reply.response.status = 400 ∧ printed.2.stdout = [] ∧
      printed.2.stderr.firstLine = Text.lit "eqcalc: " ++ e.failure.message ∧
      (∀ pos, e.failure.pos = some pos ↔ ShowsCaret printed.2.stderr equation pos) ∧
      (e.failure.pos = none → printed.2.stderr = printed.2.stderr.firstLine ++ Text.lit "\n")
  | _ => False

/-- What a client learns about a value is how it is written. -/
theorem EvalResult.result_ofValue (session equation : Text) (v : Value) :
    (ofValue session equation v).result = v.text := by
  cases v <;> rfl

namespace Runner

/-- The session of a runner with its table. -/
def calculator (r : Runner) : Calculator := ⟨r.session, r.table⟩

/-- A runner for values prints what comes of an equation in its session. -/
theorem act_of_value {r : Runner} (h : r.mode = .value) (equation : Text) :
    let (result, c) := r.calculator.eval equation
    r.act equation = (printed equation result, ⟨c.session, c.table, .value⟩) := by
  obtain ⟨session, table, mode⟩ := r
  obtain rfl : mode = .value := h
  rw [act, line, answer, Calculator.eval, calculator]
  dsimp only
  rcases session.eval table equation with ⟨e | v, session', table'⟩
  · rfl
  · rfl

end Runner

namespace SessionCall

/-- What is replied of the result of an equation. -/
def replied (name equation : Text) : Except EquationError Value → Except Refusal Outcome
  | .ok v => .ok (.result (EvalResult.ofValue name equation v))
  | .error e => .error (.equation e)

/-- A session replies what comes of an equation in it. -/
theorem answer_eval (o : SessionOptions) (name equation : Text) (present : Option Calculator) :
    let (result, c) := (present.getD (Calculator.ofOptions o)).eval equation
    (SessionCall.eval equation).answer o name present = (replied name equation result, some c) := by
  rw [answer]
  rcases (present.getD (Calculator.ofOptions o)).eval equation with ⟨e | v, c⟩
  · rfl
  · rfl

end SessionCall

/-- **What is printed of an equation agrees with what is replied.** -/
theorem Calculator.agrees_eval (c : Calculator) (hplain : Plain c.table) (name equation : Text)
    (format : Format) :
    Reply.Agrees equation (.answer (SessionCall.replied name equation (c.eval equation).1) format)
      (Runner.printed equation (c.eval equation).1) := by
  have hresult : (c.eval equation).1 = (c.session.options.eval c.table equation).1 :=
    (c.session.eval_eq c.table equation).1
  have hline := c.session.options.oneLine_eval hplain.legible equation
  rw [← hresult] at hline
  rcases heval : (c.eval equation).1 with e | v <;> rw [heval] at hresult hline
  · -- the message is one line and the place is at a cut, so the report can be read back
    have hplace : ∀ pos, e.pos? = some pos →
        ∃ before after, equation.Cut before after ∧ before.length = pos :=
      fun pos hpos => SessionOptions.cut_of_eval_error hresult.symm hpos
    exact ⟨rfl, rfl, rfl, EquationError.firstLine_report hline,
      EquationError.pos?_eq_some_iff_showsCaret hline hplace, EquationError.report_of_no_pos hline⟩
  · refine ⟨rfl, rfl, ?_⟩
    rw [EvalResult.result_ofValue]
    rfl

/-! ### Requests -/

namespace Request

/-- A request to evaluate an equation in a session, with the parameters that are taken from it. -/
structure Sends (bind : Binder) (session : Text) (r : Request) (equation : Text) : Prop where
  method_eq : r.method = Text.lit "POST"
  path_eq : r.url.path = Text.lit "/eval"
  bind_eq : bind r = .ok ⟨session, equation⟩

/-- A request for the variables of a session. -/
structure Lists (session : Text) (r : Request) : Prop where
  method_eq : r.method = Text.lit "GET"
  path_eq : r.url.path = Text.lit "/vars"
  session_eq : r.session = session

/-- **Every list of equations can be sent**, if none of them is empty. -/
theorem exists_sends (d : Decoders) (session : Text) {equations : List Text}
    (h : ∀ equation ∈ equations, equation ≠ []) :
    ∃ requests, List.Forall₂ (Sends (parameters d) session) requests equations := by
  refine ⟨equations.map fun equation => ofParameters ⟨session, equation⟩, ?_⟩
  rw [List.forall₂_map_left_iff, List.forall₂_same]
  exact fun equation hequation => ⟨rfl, rfl, parameters_ofParameters d (h equation hequation)⟩

/-- The variables of every session can be asked for. -/
theorem lists_ofSession (session : Text) : (ofSession session).Lists session :=
  ⟨rfl, rfl, session_ofSession session⟩

end Request

namespace Service

variable {bind : Binder} {s : Service} {r : Runner} {name session equation : Text}
  {request : Request}

/-- What a request that sends an equation asks for. -/
theorem call?_of_sends (h : request.Sends bind session equation) :
    s.call? bind request = some (.eval (.ok ⟨session, equation⟩)) := by
  rw [call?_eval h.method_eq h.path_eq, h.bind_eq]

/-- A service and a runner go together. The service has no limit, and what it has under a name, or
else a new session, is the session of the runner with its table. -/
structure Follows (name : Text) (present : Option Calculator) (s : Service) (r : Runner) :
    Prop where
  no_limit : s.settings.server.maxSessions.toInt ≤ 0
  find?_eq : s.sessions.find? name = present
  calculator_eq : present.getD (Calculator.ofOptions s.settings.sessionOptions) = r.calculator
  mode_eq : r.mode = .value
  plain : Plain r.table

/-- **One equation is told alike**, and the service and the runner go on together. -/
theorem Follows.step {present : Option Calculator} (h : Follows name present s r)
    (hsends : request.Sends bind session equation)
    (hname : Parameters.target ⟨session, equation⟩ = name) :
    Reply.Agrees equation (s.serve bind request).1 (r.act equation).1 ∧
      Follows name (some (r.act equation).2.calculator) (s.serve bind request).2
        (r.act equation).2 := by
  have haddressed : (Call.eval (.ok ⟨session, equation⟩)).addressed? =
      some (name, .eval equation) := congrArg (fun n => some (n, SessionCall.eval equation)) hname
  obtain ⟨hanswer, hsessions⟩ :=
    perform_addressed haddressed (isSome_open? (isFull_of_no_limit h.no_limit) name)
  have hfind := (hsessions name).trans (if_pos rfl)
  -- whether the session is there or new, it is that of the runner
  rw [h.find?_eq, SessionCall.answer_eval, h.calculator_eq] at hanswer hfind
  have hlimit : (s.serve bind request).2.settings.server.maxSessions.toInt ≤ 0 := by
    rw [(fixed_serve bind s request).1]
    exact h.no_limit
  rw [serve_of_call (call?_of_sends hsends)] at hlimit ⊢
  rw [hanswer, r.act_of_value h.mode_eq]
  exact ⟨r.calculator.agrees_eval h.plain name equation _, hlimit, hfind, rfl, rfl,
    r.session.plain_eval h.plain equation⟩

/-- A service and a runner go together over matching equations. -/
theorem lockstep_follows (bind : Binder) (session : Text) :
    Lockstep (serve bind) Runner.act (Request.Sends bind session)
      (fun s r => Follows (Parameters.target ⟨session, []⟩) (some r.calculator) s r)
      (fun served printed => Reply.Agrees printed.input served.output printed.output) where
  step h hsends := h.step hsends rfl

/-- The service lists the variables of the runner. -/
theorem Follows.reply_bindings (h : Follows name (some r.calculator) s r)
    (hlists : request.Lists name) :
    (s.serve bind request).1 =
      .answer (.ok (.bindings name (r.table.entries.map fun b => (b.1, b.2.text))))
        (Format.negotiate (request.header "accept")) := by
  rw [serve_of_call (call?_bindings hlists.method_eq hlists.path_eq), hlists.session_eq, perform,
    h.find?_eq]
  rfl

/-- **The front ends agree.** A service without a limit gets the equations of a list, one request
after another, for a session that it does not have yet. A runner for values, with a new session of
the same settings, gets the list too. However the parameters are taken from the requests, if they
are these equations for this session and the list is not empty, then:

* each reply agrees with what the runner makes of the equation;
* in the end the service lists the variables of the runner's table, as their values are written. -/
theorem front_ends_agree (bind : Binder) (s : Service)
    (hlimit : s.settings.server.maxSessions.toInt ≤ 0) (session : Text)
    (hnew : s.sessions.find? (Parameters.target ⟨session, []⟩) = none) {equations : List Text}
    (hne : equations ≠ []) {requests : List Request}
    (hsends : List.Forall₂ (Request.Sends bind session) requests equations) :
    let name := Parameters.target ⟨session, []⟩
    let r := Runner.ofOptions s.settings.sessionOptions .value
    List.Forall₂ (fun served printed => Reply.Agrees printed.input served.output printed.output)
        (transcript (serve bind) s requests) (transcript Runner.act r equations) ∧
      ∀ query : Request, query.Lists name →
        ((stateAfter (serve bind) s requests).serve bind query).1 =
          .answer (.ok (.bindings name
              ((stateAfter Runner.act r equations).table.entries.map fun b => (b.1, b.2.text))))
            (Format.negotiate (query.header "accept")) := by
  intro name r
  have hstart : Follows name none s r := ⟨hlimit, hnew, rfl, rfl, plain_empty⟩
  cases hsends with
  | nil => exact absurd rfl hne
  | cons hfirst hrest =>
    -- the first equation opens the session, which is there from then on
    obtain ⟨hagrees, hfollows⟩ := hstart.step hfirst rfl
    obtain ⟨hrun, hend⟩ := (lockstep_follows bind session).run hfollows hrest
    refine ⟨.cons hagrees hrun, fun query hlists => ?_⟩
    exact hend.reply_bindings hlists

/-- For example, of an assignment, an equation with a name that stands for nothing, and one that
cannot be read. -/
theorem front_ends_agree_of_two_failures :
    let bind := Request.parameters .none
    let settings := { Settings.default with server := ⟨Text.lit ":8765", 0, Text.lit "5s"⟩ }
    let s := ofSettings settings none LogLevels.initial
    let r := Runner.ofOptions settings.sessionOptions .value
    let name := Text.lit "a"
    let equations := [Text.lit "x=2", Text.lit "x+y", Text.lit "x*$"]
    let requests : List Request :=
      [.bare (Text.lit "POST") (Text.lit "/eval") (some (Text.lit "session=a&equation=x%3D2")),
        .bare (Text.lit "POST") (Text.lit "/eval") (some (Text.lit "session=a&equation=x%2By")),
        .bare (Text.lit "POST") (Text.lit "/eval") (some (Text.lit "session=a&equation=x*%24"))]
    let query : Request :=
      .bare (Text.lit "GET") (Text.lit "/vars") (some (Text.lit "session=a"))
    s.settings.server.maxSessions.toInt ≤ 0 ∧ s.sessions.find? name = none ∧ equations ≠ [] ∧
      List.Forall₂ (Request.Sends bind name) requests equations ∧ query.Lists name ∧
      List.Forall₂ (fun served printed => Reply.Agrees printed.input served.output printed.output)
        (transcript (serve bind) s requests) (transcript Runner.act r equations) ∧
      ((stateAfter (serve bind) s requests).serve bind query).1 =
        .answer
          (.ok (.bindings name
            ((stateAfter Runner.act r equations).table.entries.map fun b => (b.1, b.2.text))))
          .json := by
  intro bind settings s r name equations requests query
  have hlimit : s.settings.server.maxSessions.toInt ≤ 0 := by decide
  have hne : equations ≠ [] := by decide
  have hsends : List.Forall₂ (Request.Sends bind name) requests equations :=
    .cons ⟨rfl, rfl, rfl⟩ (.cons ⟨rfl, rfl, rfl⟩ (.cons ⟨rfl, rfl, rfl⟩ .nil))
  have hlists : query.Lists name := ⟨rfl, rfl, rfl⟩
  obtain ⟨hrun, hend⟩ := front_ends_agree bind s hlimit name rfl hne hsends
  exact ⟨hlimit, rfl, hne, hsends, hlists, hrun, hend query hlists⟩

end Service

end Reckon
