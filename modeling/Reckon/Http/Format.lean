import Reckon.Data.JsonWriter
import Reckon.Data.Msgpack
import Reckon.Text.Blank

/-!
# Formats of answers

Answers are sent as JSON or as MessagePack, whichever the client names first among what it accepts.
An entry of the client's list matches every format whose media type starts with it, and a `*` matches
whatever is left. JSON is sent when nothing matches.
-/

namespace Reckon

/-- The formats in which answers are sent. -/
inductive Format where
  | json
  | msgpack
  /-- MessagePack under its older name. -/
  | xMsgpack
deriving DecidableEq, Repr

namespace Format

/-- All formats, the most preferred one first. -/
def all : List Format := [json, msgpack, xMsgpack]

/-- The media type by which a client asks for a format. -/
def mediaType : Format → Text
  | json => Text.lit "application/json"
  | msgpack => Text.lit "application/msgpack"
  | xMsgpack => Text.lit "application/x-msgpack"

/-- The media type under which a format is sent. -/
def contentType : Format → Text
  | json => json.mediaType ++ Text.lit "; charset=utf-8"
  | f => f.mediaType

/-- A document in a format. -/
def encode : Format → Data → Text
  | json => Data.json
  | msgpack => Data.msgpack
  | xMsgpack => Data.msgpack

/-- Whether an entry of the client's list matches a media type. -/
def accepts : (entry mediaType : Text) → Bool
  | [], _ => true
  | _ :: _, [] => false
  | a :: entry, b :: mediaType => a == '*'.toUInt8 || (a == b && accepts entry mediaType)

/-- An entry of the client's list, without its parameters. -/
def entry (t : Text) : Text :=
  match t with
  | [] => []
  | b :: rest => Text.trimmed (b :: rest.takeWhile fun c => c != ';'.toUInt8)

/-- The entries of the client's list. -/
def entries (header : Text) : List Text :=
  ((Text.splitOn ','.toUInt8 header).map entry).filter fun t => !t.isEmpty

/-- The format for a client that accepts the given list. -/
def negotiate (header : Text) : Format :=
  ((entries header).findSome? fun e => all.find? fun f => accepts e f.mediaType).getD json

end Format

end Reckon
