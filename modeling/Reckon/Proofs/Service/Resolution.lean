import Reckon.Proofs.Parser.Names
import Reckon.Proofs.Service.FrontEnds
import Reckon.Proofs.Service.Limit

/-!
# Which session a request means

Three endpoints take the name of a session. The parameters of an evaluation have an empty name if
the request leaves it out, and an empty name then stands for the default session. The other two
take the name from the query, and the default session if there is none there; but an empty name is
one. So an empty name means the default session to the first endpoint, and to the others a session
that no run ever makes (`Service.find?_nil_stateAfter`).

* `Service.endpoints_resolve_alike`: with any other name, an evaluation is followed up under the
  name it was asked for, and a request that leaves the name out is answered like one for the default
  session, at all three endpoints. Of the binder it takes that it gives an empty name for a session
  that is left out (`Binder.LeavesUnnamed`), as `Request.parameters` does.
* `Service.empty_name_resolved_differently`: an equation is evaluated under an empty name, and then
  there is no session of that name to be listed or dropped.
-/

namespace Reckon

/-! ### Requests -/

/-- What every step of a fold keeps is kept by the fold, if it does not fail. -/
theorem foldlM_invariant {α β : Type} {f : β → α → Option β} {P : β → Prop} {l : List α}
    (hstep : ∀ a ∈ l, ∀ b b', P b → f b a = some b' → P b') {b b' : β} (hb : P b)
    (h : l.foldlM f b = some b') : P b' := by
  induction l generalizing b with
  | nil =>
    cases h
    exact hb
  | cons a l ih =>
    obtain ⟨ha, hl⟩ := List.forall_mem_cons.mp hstep
    rw [List.foldlM_cons] at h
    rcases hfirst : f b a with _ | b₁ <;> rw [hfirst] at h
    · cases h
    · exact ih hl (ha b b₁ hb hfirst) h

/-- A form without a name has no value of that name. -/
theorem Form.first?_append {f g : Form} {name : Text} (hf : f.first? name = none)
    (hg : g.first? name = none) : (f ++ g).first? name = none := by
  simp only [first?, Option.map_eq_none_iff] at hf hg
  have hpairs : (f ++ g).pairs = f.pairs ++ g.pairs := rfl
  rw [first?, hpairs, List.find?_append, hf, hg]
  rfl

namespace Request

/-- A request to an endpoint that takes the session from the query, where its parameter has the
given value or is left out. -/
structure Names (e : Endpoint) (session : Option Text) (r : Request) : Prop where
  method_mem : r.method ∈ e.methods
  path_eq : r.url.path = e.path
  first?_eq : r.query.first? (Text.lit "session") = session

/-- A request that is read here and names no session, neither in the query nor in the body. -/
structure LeavesOutSession (r : Request) : Prop where
  type : r.statedType ∉ otherTypes
  query : r.query.first? (Text.lit "session") = none
  form : ∀ type ∈ r.mediaType?, ∀ f, r.bodyForm? type = some f →
    f.first? (Text.lit "session") = none
  members : r.statedType = Text.lit "application/json" →
    ∀ members, JsonValue.first? r.body = some (.object members) →
      ∀ m ∈ members, Text.foldEq m.1 (Text.lit "session") = false
  parts : ∀ type ∈ r.mediaType?, ∀ parts, r.parts? type = some parts →
    ∀ p ∈ parts, p.name ≠ Text.lit "session"

theorem Names.session_eq {e : Endpoint} {session : Option Text} {r : Request}
    (h : r.Names e session) : r.session = session.getD Service.defaultSession := by
  rw [Request.session, h.first?_eq]

variable {r : Request} {p : Parameters}

theorem session_of_formParameters? {f : Form} (hf : f.first? (Text.lit "session") = none)
    (h : formParameters? f = some p) : p.session = [] := by
  rw [formParameters?] at h
  split at h <;> cases h
  rw [hf]
  rfl

/-- Only a member for the session stores one. -/
theorem session_of_storeMember {p' : Parameters} {m : Text × JsonValue}
    (hm : Text.foldEq m.1 (Text.lit "session") = false) (h : storeMember p m = some p') :
    p'.session = p.session := by
  rw [storeMember, hm] at h
  split at h
  · split at h <;> cases h
    · rfl
    · rfl
  · cases h
    rfl

theorem session_of_jsonParameters? {body : Text}
    (hmembers : ∀ members, JsonValue.first? body = some (.object members) →
      ∀ m ∈ members, Text.foldEq m.1 (Text.lit "session") = false)
    (h : jsonParameters? body = some p) : p.session = [] := by
  rw [jsonParameters?] at h
  split at h
  · rename_i members hbody
    have hstep : ∀ m ∈ members, ∀ p p', p.session = [] → storeMember p m = some p' →
        p'.session = [] := fun m hm p p' hp hstore =>
      (session_of_storeMember (hmembers members hbody m hm) hstore).trans hp
    exact foldlM_invariant hstep rfl h
  · cases h
    rfl
  · cases h

theorem LeavesOutSession.session_of_filledParameters? (hr : r.LeavesOutSession)
    (h : r.filledParameters? = some p) : p.session = [] := by
  have hparts : ∀ {l : List FormPart}, (∀ part ∈ l, part.name ≠ Text.lit "session") →
      Form.first? ⟨l.map fun part => (part.name, part.content), true⟩ (Text.lit "session") =
        none := by
    intro l hl
    simpa [Form.first?] using hl
  obtain ⟨type, htype, h⟩ := Option.bind_eq_some_iff.mp h
  obtain ⟨parts, hread, h⟩ := Option.bind_eq_some_iff.mp h
  have hnone := hr.parts type htype parts hread
  split at h
  · split at h
    · rw [partParameters?] at h
      dsimp only at h
      split at h
      · cases h
      · exact session_of_formParameters? (hparts hnone) h
    · cases h
  · obtain ⟨body, hbody, h⟩ := Option.bind_eq_some_iff.mp h
    have hform := Form.first?_append (hr.form type htype body hbody) hr.query
    refine session_of_formParameters? (Form.first?_append hform ?_) h
    exact hparts fun part hpart => hnone part (List.mem_of_mem_filter hpart)

end Request

/-- A binder gives an empty name for a session that is left out. -/
def Binder.LeavesUnnamed (bind : Binder) : Prop :=
  ∀ r p, r.LeavesOutSession → bind r = .ok p → p.session = []

/-- **What leaves the session out has an empty name for it**, whatever the decoders do with bodies
of other media types. -/
theorem Request.leavesUnnamed_parameters (d : Decoders) : (parameters d).LeavesUnnamed := by
  intro r p hr h
  have htype : ¬ otherTypes.contains r.statedType = true := by
    simpa using hr.type
  rw [parameters, if_neg htype] at h
  dsimp only at h
  split at h
  · cases h
  · rename_i p' hread
    split at h <;> cases h
    split at hread
    · rename_i hjson
      exact session_of_jsonParameters? (hr.members (beq_iff_eq.mp hjson)) hread
    · exact hr.session_of_filledParameters? hread

/-! ### The service -/

namespace Service

variable {bind : Binder} {s : Service} {q q' r : Request} {n name equation : Text}
  {c : Calculator}

theorem call?_of_names_bindings {session : Option Text} (h : q.Names .bindings session) :
    s.call? bind q = some (.bindings (session.getD defaultSession)) := by
  rw [call?_bindings (List.mem_singleton.mp h.method_mem) h.path_eq, h.session_eq]

theorem call?_of_names_drop {session : Option Text} (h : q.Names .drop session) :
    s.call? bind q = some (.drop (session.getD defaultSession)) := by
  rw [call?_drop (List.mem_singleton.mp h.method_mem) h.path_eq, h.session_eq]

/-- Requests that are the same call are answered alike. -/
theorem serve_congr {call : Call} (h : s.call? bind q = some call)
    (h' : s.call? bind q' = some call)
    (haccept : q.header "accept" = q'.header "accept") : s.serve bind q = s.serve bind q' := by
  rw [serve_of_call h, serve_of_call h', haccept]

/-- A session can be followed up under a name: its variables are listed, and it is dropped, it
alone. -/
structure Offers (s : Service) (bind : Binder) (name : Text) (c : Calculator) : Prop where
  listed : ∀ q : Request, q.Names .bindings (some name) →
    s.serve bind q =
      (.answer (.ok (.bindings name c.bindings)) (Format.negotiate (q.header "accept")), s)
  dropped : ∀ q : Request, q.Names .drop (some name) →
    (s.serve bind q).1 = .answer (.ok (.dropped name)) (Format.negotiate (q.header "accept")) ∧
      ∀ other, (s.serve bind q).2.sessions.find? other =
        if other = name then none else s.sessions.find? other

/-- Nothing is found under a name, to be listed or dropped, and nothing changes. -/
def Lacks (s : Service) (bind : Binder) (name : Text) : Prop :=
  ∀ q : Request, q.Names .bindings (some name) ∨ q.Names .drop (some name) →
    (s.serve bind q).1.response.status = 404 ∧ (s.serve bind q).2 = s

theorem offers_of_find? (h : s.sessions.find? name = some c) : s.Offers bind name c where
  listed q hq := by
    rw [serve_of_call (call?_of_names_bindings hq), Option.getD_some, perform, h]
  dropped q hq := by
    have hin : s.sessions.contains name = true := by
      rw [Dict.contains, h]
      rfl
    rw [serve_of_call (call?_of_names_drop hq), Option.getD_some, perform, if_pos hin]
    exact ⟨rfl, Dict.find?_erase s.sessions name⟩

theorem lacks_of_find? (h : s.sessions.find? name = none) : s.Lacks bind name := by
  rintro q (hq | hq)
  · rw [serve_of_call (call?_of_names_bindings hq), Option.getD_some, perform, h]
    exact ⟨rfl, rfl⟩
  · have hout : ¬ s.sessions.contains name = true := by
      rw [Dict.contains, h]
      exact Bool.false_ne_true
    rw [serve_of_call (call?_of_names_drop hq), Option.getD_some, perform, if_neg hout]
    exact ⟨rfl, rfl⟩

/-- An evaluation that is answered has opened its session, which is kept. -/
theorem exists_open?_of_status (hr : r.Sends bind n equation)
    (hstatus : (s.serve bind r).1.response.status = 200) :
    ∃ c, s.open? (Parameters.target ⟨n, equation⟩) = some c ∧
      (s.serve bind r).2 = { s with
        sessions := s.sessions.insert (Parameters.target ⟨n, equation⟩) (c.eval equation).2 } := by
  rw [serve_of_call (call?_of_sends hr)] at hstatus ⊢
  rcases ho : s.open? (Parameters.target ⟨n, equation⟩) with _ | c
  · rw [perform, evaluate_of_open?_eq_none ho] at hstatus
    exact absurd hstatus (by decide : (429 : Int64) ≠ 200)
  · exact ⟨c, rfl, congrArg Prod.snd (evaluate_of_open? ho)⟩

/-! ### No session has an empty name -/

theorem target_ne_nil (p : Parameters) : p.target ≠ [] := by
  rw [Parameters.target]
  split
  · decide
  · rename_i hne
    simpa using hne

theorem find?_nil_perform (h : s.sessions.find? [] = none) (call : Call) :
    (s.perform call).2.sessions.find? [] = none := by
  cases call with
  | eval parameters =>
    cases parameters with
    | error e => exact h
    | ok p =>
      rw [perform]
      rcases ho : s.open? p.target with _ | c
      · rw [evaluate_of_open?_eq_none ho]
        exact h
      · -- the only call that adds a session, under a name that is not empty
        rw [evaluate_of_open? ho]
        exact (Dict.find?_insert _ _ _ _).trans ((if_neg (target_ne_nil p).symm).trans h)
  | bindings name =>
    rw [perform]
    split <;> exact h
  | drop name =>
    rw [perform]
    split
    · refine (Dict.find?_erase _ _ _).trans ?_
      split
      · rfl
      · exact h
    · exact h
  | levels changes =>
    rw [sessions_of_not_addressed rfl]
    exact h

/-- **No session has an empty name**, after any requests. -/
theorem find?_nil_stateAfter (bind : Binder) (settings : Settings) (setLevel : Option LevelSetter)
    (levels : LogLevels) (history : List Request) :
    (stateAfter (serve bind) (ofSettings settings setLevel levels) history).sessions.find? [] =
      none := by
  refine stateAfter_induction (P := fun s : Service => s.sessions.find? [] = none) ?_ rfl history
  intro s r h
  rcases hcall : s.call? bind r with _ | call
  · rw [serve_of_no_call hcall]
    exact h
  · rw [serve_of_call hcall]
    exact find?_nil_perform h call

/-! ### The three endpoints -/

/-- An evaluation under an empty name is one in the default session. -/
theorem serve_of_empty_name (hq : q.Sends bind [] equation)
    (hq' : q'.Sends bind defaultSession equation)
    (haccept : q.header "accept" = q'.header "accept") : s.serve bind q = s.serve bind q' := by
  have hsame : s.perform (.eval (.ok ⟨[], equation⟩)) =
      s.perform (.eval (.ok ⟨defaultSession, equation⟩)) := rfl
  rw [serve_of_call (call?_of_sends hq), serve_of_call (call?_of_sends hq'), hsame, haccept]

/-- An evaluation under a name is followed up under this name, unless it is empty. -/
theorem offers_of_sends (hr : r.Sends bind n equation)
    (hstatus : (s.serve bind r).1.response.status = 200) (hn : n ≠ []) :
    ∃ c, s.open? n = some c ∧ (s.serve bind r).2.Offers bind n (c.eval equation).2 := by
  obtain ⟨c, ho, hafter⟩ := exists_open?_of_status hr hstatus
  have htarget : Parameters.target ⟨n, equation⟩ = n := by
    rw [Parameters.target, if_neg]
    simpa using hn
  rw [htarget] at ho hafter
  refine ⟨c, ho, offers_of_find? ?_⟩
  rw [hafter]
  exact (Dict.find?_insert _ _ _ _).trans (if_pos rfl)

/-- A request that leaves the name out is answered like one for the default session. -/
theorem serve_of_names_none {e : Endpoint} (he : e ∈ [Endpoint.bindings, Endpoint.drop])
    (hq : q.Names e none) (hq' : q'.Names e (some defaultSession))
    (haccept : q.header "accept" = q'.header "accept") : s.serve bind q = s.serve bind q' := by
  simp only [List.mem_cons, List.not_mem_nil, or_false] at he
  rcases he with rfl | rfl
  · have hcall : s.call? bind q = some (.bindings defaultSession) := call?_of_names_bindings hq
    have hcall' : s.call? bind q' = some (.bindings defaultSession) := call?_of_names_bindings hq'
    exact serve_congr hcall hcall' haccept
  · have hcall : s.call? bind q = some (.drop defaultSession) := call?_of_names_drop hq
    have hcall' : s.call? bind q' = some (.drop defaultSession) := call?_of_names_drop hq'
    exact serve_congr hcall hcall' haccept

/-- **All endpoints mean the same session by a name**, unless it is empty. In every state that
requests have led to, an evaluation under a name `n` is answered with status 200. Then:

* If `n` is not empty, the variables that are listed under `n` are those that the evaluation has
  left in the session it was made in; and dropping `n` drops this session and no other.
* If `n` is empty, there is nothing to be listed or dropped under `n`, and nothing changes.

A request that leaves the name out is answered like one that gives that of the default session, at
all three endpoints, and has the same effect; so is an evaluation for which the binder gives an
empty name, in whichever way the request was sent. -/
theorem endpoints_resolve_alike {bind : Binder} (hbind : bind.LeavesUnnamed)
    (settings : Settings) (setLevel : Option LevelSetter)
    (levels : LogLevels) (history : List Request) :
    let s := stateAfter (serve bind) (ofSettings settings setLevel levels) history
    (∀ (n equation : Text) (r : Request), r.Sends bind n equation →
      (s.serve bind r).1.response.status = 200 →
      (n ≠ [] → ∃ c, s.open? n = some c ∧
        (s.serve bind r).2.Offers bind n (c.eval equation).2) ∧
        (n = [] → (s.serve bind r).2.Lacks bind n)) ∧
    ∀ q q' : Request, q.header "accept" = q'.header "accept" →
      (∀ e ∈ [Endpoint.bindings, Endpoint.drop], q.Names e none →
        q'.Names e (some defaultSession) → s.serve bind q = s.serve bind q') ∧
      ∀ n equation, q.LeavesOutSession ∨ n = [] → q.Sends bind n equation →
        q'.Sends bind defaultSession equation → s.serve bind q = s.serve bind q' := by
  intro s
  refine ⟨fun n equation r hr hstatus => ⟨offers_of_sends hr hstatus, ?_⟩,
    fun q q' haccept => ⟨fun e he hq hq' => serve_of_names_none he hq hq' haccept, ?_⟩⟩
  · -- the session is kept under the default name, and no request makes one with an empty name
    rintro rfl
    have hrun := find?_nil_stateAfter bind settings setLevel levels (history ++ [r])
    rw [stateAfter, List.foldl_append] at hrun
    exact lacks_of_find? hrun
  · intro n equation hleft hq hq'
    have hn : n = [] := by
      rcases hleft with hleft | hn
      · exact hbind q _ hleft hq.bind_eq
      · exact hn
    subst hn
    exact serve_of_empty_name hq hq' haccept

/-- An evaluation is answered with status 200 if the equation has a value. -/
theorem status_of_value {v : Value} (hr : r.Sends bind n equation)
    (ho : s.open? (Parameters.target ⟨n, equation⟩) = some c)
    (hvalue : (c.eval equation).1 = .ok v) : (s.serve bind r).1.response.status = 200 := by
  rw [serve_of_call (call?_of_sends hr), perform, evaluate_of_open? ho, SessionCall.answer,
    Option.getD_some]
  rcases heval : c.eval equation with ⟨e | v', c'⟩ <;> rw [heval] at hvalue <;> cases hvalue
  rfl

/-- The equation `1` has a value in every session. -/
theorem eval_one (c : Calculator) : (c.eval (Text.lit "1")).1 = .ok (.number (.int 1)) := by
  have hrunes : (Text.lit "1").runes = [⟨'1', Text.lit "1"⟩] :=
    Text.runes_of_ascii (by decide +kernel)
  have hword : Token.IsWord ⟨.int, Text.lit "1", 0⟩ := by
    rw [Token.IsWord, hrunes]
    exact .number (by decide) (by decide) (by decide) (by decide)
  have hparse : parse c.session.options.skipBlanks (Text.lit "1") = .ok (.int 1) :=
    parse_literal _ hword rfl (by decide)
  have heval := (c.session.eval_eq c.table (Text.lit "1")).1
  rw [SessionOptions.eval, hparse] at heval
  exact heval

/-- For example, in a service that has had no requests. -/
theorem endpoints_resolve_alike_of_named_session :
    let bind := Request.parameters .none
    let s := ofSettings Settings.default none LogLevels.initial
    let r : Request :=
      .bare (Text.lit "POST") (Text.lit "/eval") (some (Text.lit "session=a&equation=1"))
    let listing : Request :=
      .bare (Text.lit "GET") (Text.lit "/vars") (some (Text.lit "session=a"))
    let dropping : Request :=
      .bare (Text.lit "DELETE") (Text.lit "/session") (some (Text.lit "session=a"))
    let bare : Request :=
      .bare (Text.lit "POST") (Text.lit "/eval") (some (Text.lit "equation=1"))
    let full : Request :=
      .bare (Text.lit "POST") (Text.lit "/eval") (some (Text.lit "equation=1&session=default"))
    let c := Calculator.ofOptions Settings.default.sessionOptions
    r.Sends bind (Text.lit "a") (Text.lit "1") ∧ (s.serve bind r).1.response.status = 200 ∧
      listing.Names .bindings (some (Text.lit "a")) ∧
      dropping.Names .drop (some (Text.lit "a")) ∧
      ((s.serve bind r).2.serve bind listing).1 =
        .answer (.ok (.bindings (Text.lit "a") (c.eval (Text.lit "1")).2.bindings)) .json ∧
      ((s.serve bind r).2.serve bind dropping).1 = .answer (.ok (.dropped (Text.lit "a"))) .json ∧
      bare.LeavesOutSession ∧ s.serve bind bare = s.serve bind full := by
  intro bind s r listing dropping bare full c
  have hr : r.Sends bind (Text.lit "a") (Text.lit "1") := ⟨rfl, rfl, rfl⟩
  have hlisting : listing.Names .bindings (some (Text.lit "a")) :=
    ⟨List.mem_singleton.mpr rfl, rfl, rfl⟩
  have hdropping : dropping.Names .drop (some (Text.lit "a")) :=
    ⟨List.mem_singleton.mpr rfl, rfl, rfl⟩
  have hleft : bare.LeavesOutSession := by
    refine ⟨by decide, rfl, ?_, ?_, ?_⟩
    · rintro type ⟨⟩ f ⟨⟩
      rfl
    · intro hjson
      exact absurd hjson (by decide)
    · rintro type ⟨⟩ parts ⟨⟩ p hp
      contradiction
  have hbare : bare.Sends bind [] (Text.lit "1") := ⟨rfl, rfl, rfl⟩
  have hfull : full.Sends bind defaultSession (Text.lit "1") := ⟨rfl, rfl, rfl⟩
  have hopen : s.open? (Parameters.target ⟨Text.lit "a", Text.lit "1"⟩) = some c := rfl
  have hstatus : (s.serve bind r).1.response.status = 200 := status_of_value hr hopen (eval_one c)
  obtain ⟨hfollowed, halike⟩ := endpoints_resolve_alike
    (Request.leavesUnnamed_parameters .none) Settings.default none LogLevels.initial []
  obtain ⟨c', ho, hoffers⟩ := (hfollowed _ _ r hr hstatus).1 (by decide)
  obtain rfl : c = c' := Option.some.inj ho
  refine ⟨hr, hstatus, hlisting, hdropping, congrArg Prod.fst (hoffers.listed listing hlisting),
    (hoffers.dropped dropping hdropping).1, hleft, ?_⟩
  exact (halike bare full rfl).2 [] (Text.lit "1") (.inl hleft) hbare hfull

/-- **An empty name is not resolved alike.** The equation `1` is evaluated in the session of an
empty name, with status 200. Then the variables of this session are asked for, or it is to be
dropped. There is no such session; the one that the equation was evaluated in goes on under another
name. -/
theorem empty_name_resolved_differently :
    let bind := Request.parameters .none
    let s := ofSettings Settings.default none LogLevels.initial
    let r : Request :=
      .bare (Text.lit "POST") (Text.lit "/eval") (some (Text.lit "session=&equation=1"))
    let listing : Request :=
      .bare (Text.lit "GET") (Text.lit "/vars") (some (Text.lit "session="))
    let dropping : Request :=
      .bare (Text.lit "DELETE") (Text.lit "/session") (some (Text.lit "session="))
    r.Sends bind [] (Text.lit "1") ∧ listing.Names .bindings (some []) ∧
      dropping.Names .drop (some []) ∧
      (s.serve bind r).1.response.status = 200 ∧
      ((s.serve bind r).2.serve bind listing).1.response.status = 404 ∧
      ((s.serve bind r).2.serve bind dropping).1.response.status = 404 ∧
      (((s.serve bind r).2.serve bind dropping).2.sessions.find? defaultSession).isSome = true := by
  intro bind s r listing dropping
  have hr : r.Sends bind [] (Text.lit "1") := ⟨rfl, rfl, rfl⟩
  have hlisting : listing.Names .bindings (some []) := ⟨List.mem_singleton.mpr rfl, rfl, rfl⟩
  have hdropping : dropping.Names .drop (some []) := ⟨List.mem_singleton.mpr rfl, rfl, rfl⟩
  have hopen : s.open? (Parameters.target ⟨[], Text.lit "1"⟩) =
      some (Calculator.ofOptions Settings.default.sessionOptions) := rfl
  have hstatus : (s.serve bind r).1.response.status = 200 := status_of_value hr hopen (eval_one _)
  obtain ⟨c, -, hafter⟩ := exists_open?_of_status hr hstatus
  have hlacks : (s.serve bind r).2.Lacks bind [] := by
    refine lacks_of_find? ?_
    rw [hafter]
    rfl
  refine ⟨hr, hlisting, hdropping, hstatus, (hlacks listing (.inl hlisting)).1,
    (hlacks dropping (.inr hdropping)).1, ?_⟩
  rw [(hlacks dropping (.inr hdropping)).2, hafter]
  rfl

end Service

end Reckon
