import Reckon.Proofs.Parser.Reading
import Reckon.Proofs.Service.Sessions
import Reckon.Proofs.Session.Atomicity
import Reckon.Proofs.Session.Refinement

/-!
# What a refused equation leaves behind

A request to evaluate an equation can be refused because its parameters cannot be had, because there
is no room for its session, or because the equation fails. None of these changes a table
(`Service.tables_of_refused_eval`). But the session of the request is opened before its equation is
looked at, so a session that was not there is there after the failure, with an empty table.
`Service.opens` says when; in no other case is anything left behind. Such sessions count, and can
use up the room for others (`Service.refused_eval_takes_room`).
-/

namespace Reckon

/-! ### Failed equations -/

/-- A failed equation leaves the table as it was. -/
theorem Calculator.table_of_eval_error {c : Calculator} {equation : Text} {e : EquationError}
    (h : (c.eval equation).1 = .error e) : (c.eval equation).2.table = c.table := by
  rcases hs : c.session.eval c.table equation with ⟨result, session, table⟩
  rw [eval, hs] at h ⊢
  obtain rfl : result = .error e := h
  exact Session.table_of_eval_error hs

/-- A session that refuses an equation has the table it had, or the empty one that it starts
with. -/
theorem SessionCall.table_of_refusal {o : SessionOptions} {name equation : Text}
    {present : Option Calculator} {e : Refusal}
    (h : ((SessionCall.eval equation).answer o name present).1 = .error e) :
    ((SessionCall.eval equation).answer o name present).2.map Calculator.table =
      some ((present.map Calculator.table).getD Dict.empty) := by
  have hstart : (present.getD (Calculator.ofOptions o)).table =
      (present.map Calculator.table).getD Dict.empty := by
    cases present <;> rfl
  rw [answer] at h ⊢
  rcases heval : (present.getD (Calculator.ofOptions o)).eval equation with ⟨e' | v, c⟩ <;>
    rw [heval] at h
  · have htable := Calculator.table_of_eval_error (congrArg Prod.fst heval)
    rw [heval, hstart] at htable
    exact congrArg some htable
  · cases h

namespace Service

variable {bind : Binder} {s : Service} {r : Request}

/-! ### Refused requests -/

/-- The table of a session, if it exists. -/
def table? (s : Service) (name : Text) : Option Table :=
  (s.sessions.find? name).map Calculator.table

/-- Whether a request to evaluate an equation makes a session: the parameters can be had and name
it, it is not there, and there is room. -/
def opens (s : Service) (bind : Binder) (r : Request) (name : Text) : Bool :=
  match bind r with
  | .ok p => p.target == name && !s.sessions.contains name && !s.isFull
  | .error _ => false

/-- A session that is opened was not there. -/
theorem table?_of_opens {name : Text} (h : s.opens bind r name = true) : s.table? name = none := by
  rw [opens] at h
  split at h
  · simp only [Dict.contains, Bool.and_eq_true, Bool.not_eq_true', Option.isSome_eq_false_iff,
      Option.isNone_iff_eq_none] at h
    rw [table?, h.1.2]
    rfl
  · cases h

/-- Only refusals have another status than 200. -/
theorem eq_error_of_status {result : Except Refusal Outcome} {format : Format}
    (h : (Reply.answer result format).response.status ≠ 200) : ∃ e, result = .error e := by
  rcases result with e | outcome
  · exact ⟨e, rfl⟩
  · exact absurd rfl h

/-- The tables after a refused evaluation. -/
theorem table?_of_refused_evaluate {p : Parameters} {e : Refusal}
    (h : (s.evaluate p).1 = .error e) (name : Text) :
    (s.evaluate p).2.table? name =
      if p.target == name && !s.sessions.contains name && !s.isFull then some Dict.empty
      else s.table? name := by
  rcases ho : s.open? p.target with _ | c
  · -- refused for lack of room, before anything is done
    have hfull : s.isFull = true := by
      cases hroom : s.isFull with
      | true => rfl
      | false => simpa [ho] using isSome_open? hroom p.target
    rw [evaluate_of_open?_eq_none ho, hfull]
    simp
  · have hopen : (s.open? p.target).isSome = true := by rw [ho]; rfl
    have haddressed : (Call.eval (.ok p)).addressed? = some (p.target, .eval p.equation) := rfl
    obtain ⟨hanswer, hsessions⟩ := perform_addressed haddressed hopen
    have hafter : (s.evaluate p).2.sessions.find? name = _ := hsessions name
    rw [table?, hafter]
    by_cases hname : name = p.target
    · -- the session of the request: it was there, or it is there now with an empty table
      subst hname
      rw [if_pos rfl, SessionCall.table_of_refusal (hanswer.symm.trans h), table?, Dict.contains]
      rcases hfind : s.sessions.find? p.target with _ | present
      · have hroom := isSome_open?_of_find?_eq_none hfind
        rw [hopen] at hroom
        simp [← hroom]
      · simp
    · have hne : (p.target == name) = false := beq_eq_false_iff_ne.mpr (Ne.symm hname)
      rw [if_neg hname, hne]
      rfl

/-- **Refused equations change no table**, but may leave a session behind: after a request to
evaluate an equation that is answered with another status than 200, the sessions and their tables
are as before, except for a session that the request has opened, which has an empty table. So
nothing is left behind exactly if no session is opened. This holds however parameters are taken from
requests. -/
theorem tables_of_refused_eval (hmethod : r.method = Text.lit "POST")
    (hpath : r.url.path = Text.lit "/eval") (hstatus : (s.serve bind r).1.response.status ≠ 200) :
    (∀ name, (s.serve bind r).2.table? name =
        if s.opens bind r name then some Dict.empty else s.table? name) ∧
      ((∀ name, (s.serve bind r).2.table? name = s.table? name) ↔
        ∀ name, s.opens bind r name = false) := by
  have htables : ∀ name, (s.serve bind r).2.table? name =
      if s.opens bind r name then some Dict.empty else s.table? name := by
    intro name
    rw [serve_of_call (call?_eval hmethod hpath)] at hstatus ⊢
    obtain ⟨e, he⟩ := eq_error_of_status hstatus
    rw [opens]
    rcases hp : bind r with cause | p <;> rw [hp] at he
    · rfl
    · exact table?_of_refused_evaluate he name
  refine ⟨htables, ?_, ?_⟩
  · intro hkept name
    rcases hopens : s.opens bind r name with _ | _
    · rfl
    · -- a session that was opened has a table now, and had none
      have hafter := htables name
      rw [hkept, table?_of_opens hopens, hopens] at hafter
      cases hafter
  · intro hopens name
    rw [htables, hopens]
    rfl

/-- An equation that cannot be read is refused as the client's fault. -/
theorem status_of_unreadable {p : Parameters} {c : Calculator} {e : InputError}
    (hcall : s.call? bind r = some (.eval (.ok p))) (ho : s.open? p.target = some c)
    (hparse : parse c.session.options.skipBlanks p.equation = .error e) :
    (s.serve bind r).1.response.status = 400 := by
  have hresult : (c.eval p.equation).1 = .error (.input e) := by
    have heval := (c.session.eval_eq c.table p.equation).1
    rw [SessionOptions.eval, hparse] at heval
    exact heval
  rw [serve_of_call hcall, perform, evaluate_of_open? ho, SessionCall.answer, Option.getD_some]
  rcases heval : c.eval p.equation with ⟨e' | v, c'⟩ <;> rw [heval] at hresult <;> cases hresult
  rfl

/-- No token starts with a dollar sign. -/
theorem parse_dollar : parse false (Text.lit "$") = .error (.lexical (.symbol 0 '$')) := by
  rw [parse, Parser.equation, Parser.readExpr_val, Parser.readOperand_val]
  rfl

/-- For example, in a session with a variable. -/
theorem tables_of_refused_eval_of_dollar :
    let bind := Request.parameters .none
    let c : Calculator :=
      ⟨Session.ofOptions ⟨false, 0⟩, Dict.empty.insert (Text.lit "x") (.number (.int 1))⟩
    let s : Service := { ofSettings Settings.default none LogLevels.initial with
      sessions := Dict.empty.insert (Text.lit "a") c }
    let r : Request :=
      .bare (Text.lit "POST") (Text.lit "/eval") (some (Text.lit "session=a&equation=%24"))
    r.method = Text.lit "POST" ∧ r.url.path = Text.lit "/eval" ∧
      (s.serve bind r).1.response.status ≠ 200 ∧
      (∀ name, (s.serve bind r).2.table? name =
        if s.opens bind r name then some Dict.empty else s.table? name) ∧
      ((∀ name, (s.serve bind r).2.table? name = s.table? name) ↔
        ∀ name, s.opens bind r name = false) := by
  intro bind c s r
  have hcall : s.call? bind r = some (.eval (.ok ⟨Text.lit "a", Text.lit "$"⟩)) := rfl
  have hstatus : (s.serve bind r).1.response.status = 400 :=
    status_of_unreadable hcall (c := c) rfl parse_dollar
  have hne : (s.serve bind r).1.response.status ≠ 200 := by
    rw [hstatus]
    decide
  exact ⟨rfl, rfl, hne, tables_of_refused_eval rfl rfl hne⟩

/-- **A refused equation can take the room of another session.** A service for one session is asked
to evaluate `$` in `a`. The equation is refused, but from then on there is a session `a`, and there
is no room for a session `b`. -/
theorem refused_eval_takes_room :
    let bind := Request.parameters .none
    let settings := { Settings.default with server := ⟨Text.lit ":8765", 1, Text.lit "5s"⟩ }
    let s := ofSettings settings none LogLevels.initial
    let r : Request :=
      .bare (Text.lit "POST") (Text.lit "/eval") (some (Text.lit "session=a&equation=%24"))
    let r' : Request :=
      .bare (Text.lit "POST") (Text.lit "/eval") (some (Text.lit "session=b&equation=1"))
    (s.serve bind r).1.response.status = 400 ∧
      s.table? (Text.lit "a") = none ∧
      (s.serve bind r).2.table? (Text.lit "a") = some Dict.empty ∧
      ((s.serve bind r).2.serve bind r').1.response.status = 429 := by
  intro bind settings s r r'
  let p : Parameters := ⟨Text.lit "a", Text.lit "$"⟩
  let p' : Parameters := ⟨Text.lit "b", Text.lit "1"⟩
  have hcall : s.call? bind r = some (.eval (.ok p)) := rfl
  have hopen : s.open? p.target = some (Calculator.ofOptions settings.sessionOptions) := rfl
  have hstatus : (s.serve bind r).1.response.status = 400 :=
    status_of_unreadable hcall hopen parse_dollar
  have hserve : (s.serve bind r).2 = (s.evaluate p).2 := by
    rw [serve_of_call hcall]
    rfl
  refine ⟨hstatus, rfl, ?_, ?_⟩
  · have hne : (s.serve bind r).1.response.status ≠ 200 := by
      rw [hstatus]
      decide
    rw [serve_of_call hcall] at hne
    obtain ⟨e, he⟩ := eq_error_of_status hne
    rw [hserve]
    exact table?_of_refused_evaluate he (Text.lit "a")
  · have hcall' : (s.serve bind r).2.call? bind r' = some (.eval (.ok p')) :=
      (call?_congr (fixed_serve bind s r).2 bind r').trans rfl
    have hfull : (s.serve bind r).2.open? p'.target = none := by
      rw [hserve, evaluate_of_open? hopen]
      rfl
    rw [serve_of_call hcall', perform, evaluate_of_open?_eq_none hfull]
    rfl

end Service

end Reckon
