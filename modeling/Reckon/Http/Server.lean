import Reckon.Http.Format
import Reckon.Http.Path
import Reckon.Http.Request

/-!
# The HTTP front end

A request is a call of the service if its method and path are known (`Service.call?`). A known path
with a slash too many is answered with a redirection to the path without it, below the path at which
a proxy says that it offers the service, and everything else is not found. `Service.serve` answers a
request and gives the service after it, and `Reply.response` puts the answer into the format that
the client prefers. The parameters of an evaluation are taken from the request by any binder.
-/

namespace Reckon

/-- What the service can be asked for under a path. -/
inductive Endpoint where
  | eval
  | bindings
  | drop
  | levels
deriving DecidableEq, Repr

namespace Endpoint

/-- All endpoints. -/
def all : List Endpoint := [eval, bindings, drop, levels]

/-- The path of an endpoint. -/
def path : Endpoint → Text
  | eval => Text.lit "/eval"
  | bindings => Text.lit "/vars"
  | drop => Text.lit "/session"
  | levels => Text.lit "/logging/level"

/-- The methods of an endpoint. -/
def methods : Endpoint → List Text
  | eval => [Text.lit "POST"]
  | bindings => [Text.lit "GET"]
  | drop => [Text.lit "DELETE"]
  | levels => [Text.lit "GET", Text.lit "POST"]

/-- What a request to an endpoint asks for. -/
def call (e : Endpoint) (bind : Binder) (r : Request) : Call :=
  match e with
  | eval => .eval (bind r)
  | bindings => .bindings r.session
  | drop => .drop r.session
  | levels => .levels r.query.pairs

end Endpoint

/-- How a request is answered. -/
inductive Reply where
  /-- With the answer of the service, in a format. -/
  | answer (r : Except Refusal Outcome) (format : Format)
  /-- With another target to ask; `byReading` tells whether the request was one that only reads. -/
  | redirect (target : Text) (byReading : Bool)
  | notFound

/-- A response. -/
structure Response where
  status : Int64
  contentType : Text
  location : Option Text
  body : Text

namespace Reply

/-- A text as it is written inside HTML. -/
def htmlText (t : Text) : Text :=
  t.flatMap fun b =>
    if b == '&'.toUInt8 then Text.lit "&amp;"
    else if b == '<'.toUInt8 then Text.lit "&lt;"
    else if b == '>'.toUInt8 then Text.lit "&gt;"
    else if b == '"'.toUInt8 then Text.lit "&#34;"
    else if b == '\''.toUInt8 then Text.lit "&#39;"
    else [b]

/-- A target as it is written in a header, where only ASCII may stand. -/
def headerText (t : Text) : Text :=
  t.flatMap fun b => if b < 0x80 then [b] else Text.lit "%" ++ Text.hex 2 b.toNat

/-- The response of a reply. -/
def response : Reply → Response
  | answer (.ok outcome) format =>
    ⟨200, format.contentType, none, format.encode outcome.data⟩
  | answer (.error e) format =>
    ⟨e.failure.status, format.contentType, none, format.encode e.failure.data⟩
  | redirect target true =>
    ⟨301, Text.lit "text/html; charset=utf-8", some (headerText target),
      Text.lit "<a href=\"" ++ htmlText target ++ Text.lit "\">Moved Permanently</a>.\n\n"⟩
  | redirect target false => ⟨307, [], some (headerText target), []⟩
  | notFound => ⟨404, Text.lit "text/plain", none, Text.lit "404 page not found"⟩

end Reply

namespace Service

/-- The endpoint for a method and a path. Log levels are only there if they can be set. -/
def endpoint? (s : Service) (method path : Text) : Option Endpoint :=
  Endpoint.all.find? fun e =>
    e.path == path && e.methods.contains method && (e != .levels || s.setLevel.isSome)

/-- The call that a request is. -/
def call? (s : Service) (bind : Binder) (r : Request) : Option Call :=
  (s.endpoint? r.method r.url.path).map fun e => e.call bind r

/-- The path at which a proxy offers the service, reduced to letters, digits, hyphens and single
slashes. -/
def proxyPath? (r : Request) : Option Text :=
  let path := Path.clean (r.header "x-forwarded-prefix")
  let isKept (b : UInt8) : Bool :=
    let c := Char.ofNat b.toNat
    c.isAlphanum || c == '/' || c == '-'
  if path == Text.lit "." then none else some (Path.singleSlashes (path.filter isKept))

/-- A path as a client is told to ask for it, when the request is taken to be for that path. Two
slashes in front would name a host, and such a path is left alone. -/
def resolved (path : Text) : Text :=
  let slashes := path.takeWhile fun b => b == '/'.toUInt8
  match slashes.length with
  | 0 => Path.clean (Path.directory path ++ path)
  | 2 => path
  | _ => Path.clean path

/-- An address with another path, as a client is told to ask for it. -/
def told (url : Url) (path : Text) : Text :=
  let target :=
    match url.origin with
    | none => resolved path
    | some o =>
      let slash := if !o.host.isEmpty && !Path.isAbsolute path then Text.lit "/" else []
      o.scheme ++ Text.lit "://" ++ o.user ++ o.host ++ slash ++ path
  match url.query with
  | some query => target ++ Text.lit "?" ++ query
  | none => target

/-- The target of a request without the slash at the end of its path, if that makes it known. -/
def redirection? (s : Service) (r : Request) : Option Text := do
  if r.url.path.getLast? == some '/'.toUInt8 then
    let endpoint ← s.endpoint? r.method r.url.path.dropLast
    match proxyPath? r with
    | some proxy => return told r.url (proxy ++ Text.lit "/" ++ endpoint.path)
    | none => return told r.url endpoint.path
  else none

/-- Answers a request, with parameters as they are taken from it. -/
def serve (bind : Binder) (s : Service) (r : Request) : Reply × Service :=
  match s.call? bind r with
  | some call =>
    let (result, s) := s.perform call
    (.answer result (Format.negotiate (r.header "accept")), s)
  | none =>
    match s.redirection? r with
    | some target => (.redirect target (r.method == Text.lit "GET"), s)
    | none => (.notFound, s)

end Service

end Reckon
