import Reckon.Http.Server

/-!
# What a call does to the sessions

A call is about one session or about none (`Call.addressed?`). To a service with room for another
session it makes no difference which other sessions there are: the call is answered as
`SessionCall.answer` says of a session on its own, which is there or not, and only that session
changes (`Service.perform_addressed`). Calls that are about no session change none of them
(`Service.sessions_of_not_addressed`).
-/

namespace Reckon

/-! ### A session on its own -/

/-- What can be asked of a session. -/
inductive SessionCall where
  | eval (equation : Text)
  | bindings
  | drop

/-- How a session under a name answers, and what becomes of it. It may not be there: then an
equation starts it with an empty table. -/
def SessionCall.answer (o : SessionOptions) (name : Text) (present : Option Calculator) :
    SessionCall → Except Refusal Outcome × Option Calculator
  | .eval equation =>
    match (present.getD (Calculator.ofOptions o)).eval equation with
    | (.error e, c) => (.error (.equation e), some c)
    | (.ok v, c) => (.ok (.result (EvalResult.ofValue name equation v)), some c)
  | .bindings =>
    match present with
    | none => (.error (.noSession name), none)
    | some c => (.ok (.bindings name c.bindings), some c)
  | .drop =>
    match present with
    | none => (.error (.noSession name), none)
    | some _ => (.ok (.dropped name), none)

/-- The session that parameters name; an empty name stands for the default session. -/
def Parameters.target (p : Parameters) : Text :=
  if p.session.isEmpty then Service.defaultSession else p.session

/-- The session that a call is about, and what is asked of it. -/
def Call.addressed? : Call → Option (Text × SessionCall)
  | .eval (.ok p) => some (p.target, .eval p.equation)
  | .eval (.error _) => none
  | .bindings name => some (name, .bindings)
  | .drop name => some (name, .drop)
  | .levels _ => none

/-! ### Calls -/

namespace Service

variable {s : Service} {call : Call} {name : Text}

/-- A session is opened as it is, or new. -/
theorem eq_of_open? {c : Calculator} (h : s.open? name = some c) :
    c = (s.sessions.find? name).getD (Calculator.ofOptions s.settings.sessionOptions) := by
  rw [open?] at h
  split at h
  · rename_i c' hfind
    rw [hfind]
    exact (Option.some.inj h).symm
  · rename_i hfind
    rw [hfind]
    split at h
    · cases h
    · exact (Option.some.inj h).symm

/-- A service with room opens every session. -/
theorem isSome_open? (h : s.isFull = false) (name : Text) : (s.open? name).isSome = true := by
  rw [open?, h]
  split <;> rfl

/-- A service without room opens no new session. -/
theorem isSome_open?_of_find?_eq_none (h : s.sessions.find? name = none) :
    (s.open? name).isSome = !s.isFull := by
  rw [open?, h]
  cases s.isFull <;> rfl

/-- A call that is about no session changes none. -/
theorem sessions_of_not_addressed (h : call.addressed? = none) :
    (s.perform call).2.sessions = s.sessions := by
  cases call with
  | eval parameters =>
    cases parameters with
    | error e => rfl
    | ok p => cases h
  | bindings name => cases h
  | drop name => cases h
  | levels changes =>
    rw [perform]
    split <;> rfl

/-- An equation is evaluated in the session that is opened for it, which is then kept. -/
theorem evaluate_of_open? {p : Parameters} {c : Calculator} (h : s.open? p.target = some c) :
    s.evaluate p =
      (((SessionCall.eval p.equation).answer s.settings.sessionOptions p.target (some c)).1,
        { s with sessions := s.sessions.insert p.target (c.eval p.equation).2 }) := by
  change s.open? (if p.session.isEmpty then defaultSession else p.session) = some c at h
  rw [SessionCall.answer, evaluate, h, Option.getD_some]
  dsimp only
  rcases c.eval p.equation with ⟨e | v, c'⟩ <;> rfl

/-- Without room for its session an equation is refused. -/
theorem evaluate_of_open?_eq_none {p : Parameters} (h : s.open? p.target = none) :
    s.evaluate p = (.error .tooManySessions, s) := by
  change s.open? (if p.session.isEmpty then defaultSession else p.session) = none at h
  rw [evaluate, h]

/-- **A call is answered by its session alone**, if that can be opened, and changes no other. -/
theorem perform_addressed {c : SessionCall} (h : call.addressed? = some (name, c))
    (hopen : (s.open? name).isSome = true) :
    let after := c.answer s.settings.sessionOptions name (s.sessions.find? name)
    (s.perform call).1 = after.1 ∧
      ∀ other, (s.perform call).2.sessions.find? other =
        if other = name then after.2 else s.sessions.find? other := by
  have hkept : ∀ other, s.sessions.find? other =
      if other = name then s.sessions.find? name else s.sessions.find? other := by
    intro other
    split
    · rename_i hother
      rw [hother]
    · rfl
  cases call with
  | levels changes => cases h
  | eval parameters =>
    cases parameters with
    | error e => cases h
    | ok p =>
      cases h
      obtain ⟨opened, ho⟩ := Option.isSome_iff_exists.mp hopen
      -- the session is kept also if the equation fails
      have hopened := eq_of_open? ho
      rw [perform, evaluate_of_open? ho, SessionCall.answer, SessionCall.answer, ← hopened,
        Option.getD_some]
      dsimp only
      rcases opened.eval p.equation with ⟨e | v, c⟩
      · exact ⟨rfl, fun other => Dict.find?_insert s.sessions p.target other c⟩
      · exact ⟨rfl, fun other => Dict.find?_insert s.sessions p.target other c⟩
  | bindings _ =>
    cases h
    rcases hfind : s.sessions.find? name with _ | present <;> rw [hfind] at hkept <;>
      rw [perform, hfind]
    · exact ⟨rfl, hkept⟩
    · exact ⟨rfl, hkept⟩
  | drop _ =>
    cases h
    rcases hfind : s.sessions.find? name with _ | present <;> rw [hfind] at hkept <;>
      rw [perform, Dict.contains, hfind]
    · exact ⟨rfl, hkept⟩
    · exact ⟨rfl, fun other => Dict.find?_erase s.sessions name other⟩

/-- No call changes the settings, or how log levels are set. -/
theorem fixed_perform (s : Service) (call : Call) :
    (s.perform call).2.settings = s.settings ∧ (s.perform call).2.setLevel = s.setLevel := by
  cases call with
  | eval parameters =>
    cases parameters with
    | error e => exact ⟨rfl, rfl⟩
    | ok p =>
      rw [perform, evaluate]
      dsimp only
      split
      · exact ⟨rfl, rfl⟩
      · split <;> exact ⟨rfl, rfl⟩
  | bindings name =>
    rw [perform]
    split <;> exact ⟨rfl, rfl⟩
  | drop name =>
    rw [perform]
    split <;> exact ⟨rfl, rfl⟩
  | levels changes =>
    rw [perform]
    split <;> exact ⟨rfl, rfl⟩

/-! ### Requests -/

variable {bind : Binder} {r : Request}

/-- Which calls requests are depends on nothing but whether log levels can be set. -/
theorem call?_congr {s' : Service} (h : s.setLevel = s'.setLevel) (bind : Binder) (r : Request) :
    s.call? bind r = s'.call? bind r := by
  unfold call? endpoint?
  rw [h]

/-- A request with a method and the path of an endpoint is a call of it. Only the endpoint for log
levels may not be there. -/
theorem call?_of_endpoint {e : Endpoint} (he : e ≠ .levels) (hmethod : r.method ∈ e.methods)
    (hpath : r.url.path = e.path) : s.call? bind r = some (e.call bind r) := by
  have hendpoint : s.endpoint? r.method r.url.path = some e := by
    cases e with
    | levels => contradiction
    | eval | bindings | drop =>
      rw [hpath, List.mem_singleton.mp hmethod]
      rfl
  rw [call?, hendpoint]
  rfl

/-- What a request to evaluate an equation asks for. -/
theorem call?_eval (hmethod : r.method = Text.lit "POST")
    (hpath : r.url.path = Text.lit "/eval") : s.call? bind r = some (.eval (bind r)) :=
  call?_of_endpoint (e := .eval) (by decide) (List.mem_singleton.mpr hmethod) hpath

/-- What a request for variables asks for. -/
theorem call?_bindings (hmethod : r.method = Text.lit "GET")
    (hpath : r.url.path = Text.lit "/vars") : s.call? bind r = some (.bindings r.session) :=
  call?_of_endpoint (e := .bindings) (by decide) (List.mem_singleton.mpr hmethod) hpath

/-- What a request to drop a session asks for. -/
theorem call?_drop (hmethod : r.method = Text.lit "DELETE")
    (hpath : r.url.path = Text.lit "/session") : s.call? bind r = some (.drop r.session) :=
  call?_of_endpoint (e := .drop) (by decide) (List.mem_singleton.mpr hmethod) hpath

/-- A request that is a call is answered with what comes of it. -/
theorem serve_of_call (h : s.call? bind r = some call) :
    s.serve bind r = (.answer (s.perform call).1 (Format.negotiate (r.header "accept")),
      (s.perform call).2) := by
  rw [serve, h]

/-- Any other request changes nothing. -/
theorem serve_of_no_call (h : s.call? bind r = none) : (s.serve bind r).2 = s := by
  rw [serve, h]
  dsimp only
  split <;> rfl

/-- No request changes the settings, or how log levels are set. -/
theorem fixed_serve (bind : Binder) (s : Service) (r : Request) :
    (s.serve bind r).2.settings = s.settings ∧ (s.serve bind r).2.setLevel = s.setLevel := by
  rcases hcall : s.call? bind r with _ | call
  · rw [serve_of_no_call hcall]
    exact ⟨rfl, rfl⟩
  · rw [serve_of_call hcall]
    exact fixed_perform s call

end Service

end Reckon
