import Reckon.Eval.Value

/-!
# Documents

Answers of the HTTP front end are records of named fields in a fixed order. A `Data` value holds
such a document without regard to the format in which it is sent.
-/

namespace Reckon

/-- A document. -/
inductive Data where
  | bool (b : Bool)
  | int (n : Int64)
  | float (x : Float)
  | text (t : Text)
  /-- Named fields, in the order in which they are written. -/
  | fields (l : List (Text × Data))
deriving Inhabited

namespace Data

/-- A field that is left out when its text is empty. -/
def optionalText (name : String) (t : Text) : List (Text × Data) :=
  if t.isEmpty then [] else [(Text.lit name, text t)]

/-- A field that is left out when there is no value. -/
def optional (name : String) (d : Option Data) : List (Text × Data) :=
  match d with
  | some d => [(Text.lit name, d)]
  | none => []

/-- The texts of a dictionary as fields. -/
def ofTexts (l : List (Text × Text)) : Data := fields (l.map fun (name, t) => (name, text t))

end Data

end Reckon
