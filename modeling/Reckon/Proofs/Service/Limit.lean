import Reckon.Proofs.Service.Isolation
import Reckon.Proofs.Service.Leftovers

/-!
# The limit of sessions

A service may be limited to a number of sessions. Sessions come with equations, which may fail, and
go when they are dropped, in any order and among requests of all other kinds. Only `Service.open?`
looks at the limit, so what keeps a run within it is a property of single steps: `KeepsTo.serve`
says that no request leads beyond the limit, and `stateAfter_induction` that no run does.

Within the limit a service has no room exactly if the limit is reached (`KeepsTo.isFull_iff`). This
makes the refusal with status 429 exact:

* `Service.session_limit_holds`: at most as many sessions as the limit allows exist after any run. A
  request to evaluate an equation is refused for their number if and only if its parameters can be
  had, its session does not exist and the limit is reached. Such a refusal changes no session, it
  never meets a session that exists, and it cannot follow on a session that was dropped.
-/

namespace Reckon

/-! ### Refusals by their status -/

/-- One cause alone is reported with status 429. -/
theorem Refusal.status_eq_429_iff (e : Refusal) :
    e.failure.status = 429 ↔ e = .tooManySessions := by
  cases e <;> simp [failure, Failure.ofMessage]

namespace Service

variable {bind : Binder} {s : Service} {r : Request} {name : Text} {limit : Int}

/-- A reply has status 429 if there are too many sessions. -/
theorem status_answer_eq_429_iff {result : Except Refusal Outcome} {format : Format} :
    (Reply.answer result format).response.status = 429 ↔ result = .error .tooManySessions := by
  rcases result with e | outcome
  · rw [Except.error.injEq, ← Refusal.status_eq_429_iff]
    rfl
  · constructor
    · intro h
      exact absurd h (by decide : (200 : Int64) ≠ 429)
    · rintro ⟨⟩

/-! ### When sessions are refused -/

/-- A session cannot be opened if it does not exist and there is no room for it. -/
theorem open?_eq_none_iff :
    s.open? name = none ↔ s.sessions.contains name = false ∧ s.isFull = true := by
  rw [open?, Dict.contains]
  cases s.sessions.find? name <;> cases s.isFull <;> simp

/-- An evaluation is refused for the number of sessions if its session cannot be opened. -/
theorem evaluate_refused_iff {p : Parameters} :
    (s.evaluate p).1 = .error .tooManySessions ↔ s.open? p.target = none := by
  constructor
  · intro h
    rcases ho : s.open? p.target with _ | c
    · rfl
    · rw [evaluate_of_open? ho, SessionCall.answer, Option.getD_some] at h
      rcases heval : c.eval p.equation with ⟨e | v, c'⟩ <;> rw [heval] at h <;> cases h
  · intro h
    rw [evaluate_of_open?_eq_none h]

/-- A request to evaluate an equation is refused for the number of sessions if its parameters can be
had, and its session cannot be opened. -/
theorem status_eval_eq_429_iff (hmethod : r.method = Text.lit "POST")
    (hpath : r.url.path = Text.lit "/eval") :
    (s.serve bind r).1.response.status = 429 ↔
      ∃ p, bind r = .ok p ∧ s.open? p.target = none := by
  rw [serve_of_call (call?_eval hmethod hpath), status_answer_eq_429_iff]
  rcases hp : bind r with cause | p
  · -- parameters that cannot be had are refused for what they are
    constructor
    · rintro ⟨⟩
    · rintro ⟨p, ⟨⟩, -⟩
  · change (s.evaluate p).1 = _ ↔ _
    rw [evaluate_refused_iff]
    constructor
    · intro h
      exact ⟨p, rfl, h⟩
    · rintro ⟨p', ⟨⟩, h⟩
      exact h

/-- No call but an evaluation can be refused for the number of sessions, as far as sessions are
concerned. -/
theorem perform_ne_tooManySessions {call : Call} (h : call = .bindings name ∨ call = .drop name) :
    (s.perform call).1 ≠ .error .tooManySessions := by
  rcases h with rfl | rfl
  · rw [perform]
    split <;> rintro ⟨⟩
  · rw [perform]
    split <;> rintro ⟨⟩

/-- A request that is refused for the number of sessions changes none of them. -/
theorem sessions_of_status_429 (h : (s.serve bind r).1.response.status = 429) :
    (s.serve bind r).2.sessions = s.sessions := by
  rcases hcall : s.call? bind r with _ | call
  · rw [serve_of_no_call hcall]
  · rw [serve_of_call hcall] at h ⊢
    have hresult := status_answer_eq_429_iff.mp h
    cases call with
    | eval parameters =>
      cases parameters with
      | error e => rfl
      | ok p =>
        have hopen := evaluate_refused_iff.mp hresult
        change (s.evaluate p).2.sessions = s.sessions
        rw [evaluate_of_open?_eq_none hopen]
    | bindings name => exact absurd hresult (perform_ne_tooManySessions (.inl rfl))
    | drop name => exact absurd hresult (perform_ne_tooManySessions (.inr rfl))
    | levels changes => exact sessions_of_not_addressed rfl

/-- A request about a session that exists is not refused for the number of sessions. -/
theorem status_ne_429_of_contains {ask : SessionCall × Format}
    (hask : s.asks? bind name r = some ask) (hin : s.sessions.contains name = true) :
    (s.serve bind r).1.response.status ≠ 429 := by
  obtain ⟨call, hcall, haddressed, -⟩ := asks?_eq_some hask
  rw [serve_of_call hcall, Ne, status_answer_eq_429_iff]
  cases call with
  | eval parameters =>
    cases parameters with
    | error e => cases haddressed
    | ok p =>
      obtain ⟨rfl, -⟩ := Prod.mk.inj (Option.some.inj haddressed)
      intro h
      have hopen := open?_eq_none_iff.mp (evaluate_refused_iff.mp h)
      rw [hin] at hopen
      cases hopen.1
  | bindings other => exact perform_ne_tooManySessions (.inl rfl)
  | drop other => exact perform_ne_tooManySessions (.inr rfl)
  | levels changes => cases haddressed

/-! ### Within the limit -/

/-- A service keeps to a limit: it is the one in the settings, and there are no more sessions. -/
structure KeepsTo (limit : Int) (s : Service) : Prop where
  limit_eq : s.settings.server.maxSessions.toInt = limit
  size_le : s.sessions.size ≤ limit

namespace KeepsTo

/-- Within the limit there is no room exactly if the limit is reached. -/
theorem isFull_iff (h : KeepsTo limit s) (hpos : 0 < limit) :
    s.isFull = true ↔ (s.sessions.size : Int) = limit := by
  have hsize := h.size_le
  simp only [isFull, h.limit_eq, Bool.and_eq_true, decide_eq_true_eq]
  omega

/-- No call leads beyond the limit. -/
theorem perform (h : KeepsTo limit s) (hpos : 0 < limit) (call : Call) :
    KeepsTo limit (s.perform call).2 := by
  refine ⟨by rw [(s.fixed_perform call).1, h.limit_eq], ?_⟩
  have hsize := h.size_le
  cases call with
  | eval parameters =>
    cases parameters with
    | error e => exact hsize
    | ok p =>
      change ((s.evaluate p).2.sessions.size : Int) ≤ limit
      rcases ho : s.open? p.target with _ | c
      · rw [evaluate_of_open?_eq_none ho]
        exact hsize
      · rw [evaluate_of_open? ho]
        change ((s.sessions.insert p.target _).size : Int) ≤ limit
        rw [Dict.size_insert]
        split
        · exact hsize
        · -- a session is new only where there is room for one more
          rename_i hnew
          have hroom : ¬ s.isFull = true := by
            intro hfull
            have hnone := open?_eq_none_iff.mpr ⟨Bool.eq_false_iff.mpr hnew, hfull⟩
            rw [ho] at hnone
            cases hnone
          rw [h.isFull_iff hpos] at hroom
          omega
  | bindings name =>
    rw [Service.perform]
    split <;> exact hsize
  | drop name =>
    rw [Service.perform]
    split
    · rename_i hin
      have herase := Dict.size_erase hin
      change ((s.sessions.erase name).size : Int) ≤ limit
      omega
    · exact hsize
  | levels changes =>
    rw [sessions_of_not_addressed rfl]
    exact hsize

/-- **No request leads beyond the limit.** -/
theorem serve (h : KeepsTo limit s) (hpos : 0 < limit) (bind : Binder) (r : Request) :
    KeepsTo limit (s.serve bind r).2 := by
  rcases hcall : s.call? bind r with _ | call
  · rwa [serve_of_no_call hcall]
  · rw [serve_of_call hcall]
    exact h.perform hpos call

end KeepsTo

/-- After a session was dropped there is room for another one. -/
theorem isFull_of_dropped (h : KeepsTo limit s) (hpos : 0 < limit)
    (hmethod : r.method = Text.lit "DELETE") (hpath : r.url.path = Text.lit "/session")
    (hstatus : (s.serve bind r).1.response.status = 200) : (s.serve bind r).2.isFull = false := by
  have hafter := h.serve hpos bind r
  rw [Bool.eq_false_iff, Ne, hafter.isFull_iff hpos]
  rw [serve_of_call (call?_drop hmethod hpath), perform] at hstatus ⊢
  split at hstatus
  · rename_i hin
    rw [if_pos hin]
    have herase := Dict.size_erase hin
    have hsize := h.size_le
    change ¬ ((s.sessions.erase r.session).size : Int) = limit
    omega
  · exact absurd hstatus (by decide : (404 : Int64) ≠ 200)

/-- **The limit of sessions holds over every run.** Of a service that is limited to a number of
sessions and starts without any, after requests of any kind:

* there are at most as many sessions as the limit says;
* a request to evaluate an equation is answered with status 429 if and only if its parameters can be
  had, the session it names does not exist, and there are as many sessions as the limit says;
* a request that is answered so changes no session;
* a request about a session that exists is never answered so;
* after a session was dropped, no request to evaluate an equation is answered so.

All this holds however parameters are taken from requests. -/
theorem session_limit_holds (bind : Binder) (settings : Settings)
    (hlimit : 0 < settings.server.maxSessions.toInt) (setLevel : Option LevelSetter)
    (levels : LogLevels) (history : List Request) :
    let limit := settings.server.maxSessions.toInt
    let s := stateAfter (serve bind) (ofSettings settings setLevel levels) history
    (s.sessions.size : Int) ≤ limit ∧
      (∀ r : Request, r.method = Text.lit "POST" → r.url.path = Text.lit "/eval" →
        ((s.serve bind r).1.response.status = 429 ↔
          ∃ p, bind r = .ok p ∧ s.sessions.contains p.target = false ∧
            (s.sessions.size : Int) = limit)) ∧
      (∀ r, (s.serve bind r).1.response.status = 429 →
        (s.serve bind r).2.sessions = s.sessions) ∧
      (∀ r name ask, s.asks? bind name r = some ask → s.sessions.contains name = true →
        (s.serve bind r).1.response.status ≠ 429) ∧
      ∀ dropping r : Request, dropping.method = Text.lit "DELETE" →
        dropping.url.path = Text.lit "/session" →
        (s.serve bind dropping).1.response.status = 200 →
        r.method = Text.lit "POST" → r.url.path = Text.lit "/eval" →
        ((s.serve bind dropping).2.serve bind r).1.response.status ≠ 429 := by
  intro limit s
  have hstart : KeepsTo limit (ofSettings settings setLevel levels) := ⟨rfl, Int.le_of_lt hlimit⟩
  have hkeeps : KeepsTo limit s :=
    stateAfter_induction (P := KeepsTo limit) (fun s r h => h.serve hlimit bind r) hstart history
  refine ⟨hkeeps.size_le, ?_, ?_, ?_, ?_⟩
  · intro r hmethod hpath
    rw [status_eval_eq_429_iff hmethod hpath]
    refine exists_congr fun p => and_congr_right fun _ => ?_
    rw [open?_eq_none_iff, hkeeps.isFull_iff hlimit]
  · intro r h
    exact sessions_of_status_429 h
  · intro r name ask hask hin
    exact status_ne_429_of_contains hask hin
  · intro dropping r hdelete hsession hstatus hmethod hpath
    have hroom := isFull_of_dropped hkeeps hlimit hdelete hsession hstatus
    rw [Ne, status_eval_eq_429_iff hmethod hpath]
    rintro ⟨p, -, hnone⟩
    have hfull := (open?_eq_none_iff.mp hnone).2
    rw [hroom] at hfull
    cases hfull

/-- For example, of a service for one session, with an equation in `a` and then one in `b`. The
second is refused and changes nothing. An equation in `a` is not refused, and once `a` is dropped
neither is the one in `b`. -/
theorem session_limit_holds_of_two_names :
    let bind := Request.parameters .none
    let settings := { Settings.default with server := ⟨Text.lit ":8765", 1, Text.lit "5s"⟩ }
    let r : Request :=
      .bare (Text.lit "POST") (Text.lit "/eval") (some (Text.lit "session=a&equation=1"))
    let r' : Request :=
      .bare (Text.lit "POST") (Text.lit "/eval") (some (Text.lit "session=b&equation=1"))
    let dropping : Request :=
      .bare (Text.lit "DELETE") (Text.lit "/session") (some (Text.lit "session=a"))
    let s := stateAfter (serve bind) (ofSettings settings none LogLevels.initial) [r]
    0 < settings.server.maxSessions.toInt ∧ (s.sessions.size : Int) = 1 ∧
      (s.serve bind r').1.response.status = 429 ∧ (s.serve bind r').2.sessions = s.sessions ∧
      (s.serve bind r).1.response.status ≠ 429 ∧
      (s.serve bind dropping).1.response.status = 200 ∧
      ((s.serve bind dropping).2.serve bind r').1.response.status ≠ 429 := by
  intro bind settings r r' dropping
  have hlimit : 0 < settings.server.maxSessions.toInt := by decide
  have hholds := session_limit_holds bind settings hlimit none LogLevels.initial [r]
  -- the session that the first equation opens, whatever comes of the equation
  let p : Parameters := ⟨Text.lit "a", Text.lit "1"⟩
  let s₀ := ofSettings settings none LogLevels.initial
  let c := ((Calculator.ofOptions settings.sessionOptions).eval p.equation).2
  have hs : stateAfter (serve bind) s₀ [r] =
      { s₀ with sessions := s₀.sessions.insert p.target c } := by
    have hcall : s₀.call? bind r = some (.eval (.ok p)) := rfl
    have hopen : s₀.open? p.target = some (Calculator.ofOptions settings.sessionOptions) := rfl
    change (s₀.serve bind r).2 = _
    rw [serve_of_call hcall, perform, evaluate_of_open? hopen]
  dsimp only at hholds ⊢
  generalize stateAfter (serve bind) (ofSettings settings none LogLevels.initial) [r] = s
    at hs hholds ⊢
  obtain ⟨-, heval, hkept, hexisting, hdropped⟩ := hholds
  have hsize : (s.sessions.size : Int) = 1 := by rw [hs]; rfl
  have hin : s.sessions.contains (Text.lit "a") = true := by rw [hs]; rfl
  have hout : s.sessions.contains (Text.lit "b") = false := by rw [hs]; rfl
  have hasks : s.asks? bind (Text.lit "a") r = some (.eval (Text.lit "1"), .json) := by rw [hs]; rfl
  have hrefused : (s.serve bind r').1.response.status = 429 :=
    (heval r' rfl rfl).mpr ⟨⟨Text.lit "b", Text.lit "1"⟩, rfl, hout, hsize⟩
  have hstatus : (s.serve bind dropping).1.response.status = 200 := by
    have hname : dropping.session = Text.lit "a" := rfl
    rw [serve_of_call (call?_drop rfl rfl), perform, hname, if_pos hin]
    rfl
  exact ⟨hlimit, hsize, hrefused, hkept r' hrefused, hexisting r (Text.lit "a") _ hasks hin,
    hstatus, hdropped dropping r' rfl rfl hstatus rfl rfl⟩

end Service

end Reckon
