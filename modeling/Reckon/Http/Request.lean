import Reckon.Data.JsonReader
import Reckon.Http.Form
import Reckon.Http.Multipart
import Reckon.Service.Basic

/-!
# Requests

A request has a method, an address, headers and a body. A `Binder` takes the parameters of an
evaluation from it, or says why it cannot; what the service does with them does not depend on the
way in which they were sent.

`Request.parameters` is a binder. It reads JSON, forms of several parts, and plain forms, to which
the query belongs too. The first value of a name counts; in JSON the last one does. Bodies of some
other media types are left to `Decoders`, and so is what is said of a request that cannot be read.
-/

namespace Reckon

/-- Where an absolute address leads to. -/
structure Origin where
  scheme : Text
  /-- Who asks, with an `@` behind; usually nothing. -/
  user : Text
  host : Text

/-- The address in a request. -/
structure Url where
  origin : Option Origin
  /-- The path, without escapes. -/
  path : Text
  /-- What stands behind the first `?`, as it is written. -/
  query : Option Text

/-- A request. -/
structure Request where
  method : Text
  url : Url
  headers : List (Text × Text)
  body : Text

/-- Takes the parameters of an evaluation from a request, or says why they cannot be had. -/
abbrev Binder : Type := Request → Except Text Parameters

namespace Request

/-- A request without headers and body. -/
def bare (method path : Text) (query : Option Text) : Request :=
  ⟨method, ⟨none, path, query⟩, [], []⟩

/-- The first header of a given name, in any case; empty if there is none. -/
def header (r : Request) (name : String) : Text :=
  ((r.headers.find? fun h => Text.lower h.1 == Text.lit name).map Prod.snd).getD []

/-- The query. -/
def query (r : Request) : Form := Form.read (r.url.query.getD [])

/-- The session that the query names. -/
def session (r : Request) : Text :=
  (r.query.first? (Text.lit "session")).getD Service.defaultSession

/-! ### Media types -/

/-- The media type that a request states, without its parameters. -/
def statedType (r : Request) : Text :=
  (r.header "content-type").takeWhile fun b => b != ' '.toUInt8 && b != ';'.toUInt8

/-- The media type of a body, if none is given. -/
def unknownType : MediaType := ⟨Text.lit "application/octet-stream", []⟩

/-- The media type of the body of a request, if it can be told. -/
def mediaType? (r : Request) : Option MediaType :=
  if (r.header "content-type").isEmpty then some unknownType
  else MediaType.read? (r.header "content-type")

/-! ### Parameters that are read here -/

/-- Parameters with one member of a JSON object stored. Names are told apart by letters only, not by
their case. -/
def storeMember (p : Parameters) (m : Text × JsonValue) : Option Parameters :=
  let isSession := Text.foldEq m.1 (Text.lit "session")
  let isEquation := Text.foldEq m.1 (Text.lit "equation")
  if isSession || isEquation then
    match m.2 with
    | .text t => some (if isSession then { p with session := t } else { p with equation := t })
    | .null => some p
    | _ => none
  else some p

/-- Parameters from a JSON body. -/
def jsonParameters? (body : Text) : Option Parameters :=
  match JsonValue.first? body with
  | some (.object members) => members.foldlM storeMember ⟨[], []⟩
  | some .null => some ⟨[], []⟩
  | _ => none

/-- Parameters from a form. -/
def formParameters? (f : Form) : Option Parameters :=
  if f.clean then
    some ⟨(f.first? (Text.lit "session")).getD [], (f.first? (Text.lit "equation")).getD []⟩
  else none

/-- Parameters from the parts of a body. They are texts, so none may come from a file. -/
def partParameters? (parts : List FormPart) : Option Parameters :=
  let used (p : FormPart) : Bool := p.name == Text.lit "session" || p.name == Text.lit "equation"
  if parts.any fun p => p.isFile && used p then none
  else formParameters? ⟨parts.map fun p => (p.name, p.content), true⟩

/-- The parts of a body, if it has the media type of such bodies. -/
def parts? (r : Request) (type : MediaType) : Option (List FormPart) :=
  if type.name == Text.lit "multipart/form-data" then do
    Multipart.read? (← type.parameterValue? "boundary") r.body
  else some []

/-- How long a form in a body may be. -/
def maxForm : Nat := 10 * 1024 * 1024

/-- The form in a body, if it has the media type of forms. -/
def bodyForm? (r : Request) (type : MediaType) : Option Form :=
  if type.name == Text.lit "application/x-www-form-urlencoded" then
    if r.body.length ≤ maxForm then some (Form.read r.body) else none
  else some ⟨[], true⟩

/-- Parameters from a form in the body and the query, or from parts of the body. -/
def filledParameters? (r : Request) : Option Parameters := do
  let type ← r.mediaType?
  let parts ← r.parts? type
  if r.statedType == Text.lit "multipart/form-data" then
    if r.query.clean then partParameters? parts else none
  else
    let body ← r.bodyForm? type
    let values := (parts.filter fun p => !p.isFile).map fun p => (p.name, p.content)
    formParameters? (body ++ r.query ++ ⟨values, true⟩)

/-! ### All parameters -/

/-- What the reading of parameters leaves to others. -/
structure Decoders where
  /-- The parameters in a body of a media type that is not read here. -/
  decode : (type body : Text) → Except Text Parameters
  /-- Why the parameters of a request cannot be read. -/
  complaint : Request → Text

/-- Decoders that read nothing. -/
def Decoders.none : Decoders := ⟨fun _ _ => .error [], fun _ => []⟩

/-- The media types that are not read here. -/
def otherTypes : List Text :=
  [Text.lit "application/xml", Text.lit "text/xml", Text.lit "application/x-protobuf",
    Text.lit "application/x-msgpack", Text.lit "application/msgpack",
    Text.lit "application/x-yaml", Text.lit "application/toml"]

/-- What is said of parameters without an equation, or with an empty one. -/
def missingEquation : Text :=
  Text.lit "Key: 'EvalParams.Equation' Error:" ++
    Text.lit "Field validation for 'Equation' failed on the 'required' tag"

/-- The parameters of an evaluation. -/
def parameters (d : Decoders) : Binder := fun r =>
  if otherTypes.contains r.statedType then d.decode r.statedType r.body
  else
    let read? := if r.statedType == Text.lit "application/json" then jsonParameters? r.body
      else r.filledParameters?
    match read? with
    | none => .error (d.complaint r)
    | some p => if p.equation.isEmpty then .error missingEquation else .ok p

end Request

end Reckon
