import Reckon.Text.Basic

/-!
# Paths

A path is a list of names with slashes between them; a slash in front makes it absolute. `Path.clean`
gives the shortest path that leads to the same place: empty names and `.` lead nowhere, and `..` takes
the name before it back.
-/

namespace Reckon

namespace Path

/-- The names on the way after those already walked (last one first). Nothing lies above the start of
an absolute path. -/
def walk (absolute : Bool) (done : List Text) : List Text → List Text
  | [] => done.reverse
  | name :: rest =>
    if name.isEmpty || name == Text.lit "." then walk absolute done rest
    else if name == Text.lit ".." then
      match done with
      | [] => walk absolute (if absolute then [] else [name]) rest
      | last :: before =>
        if last == Text.lit ".." then walk absolute (name :: done) rest
        else walk absolute before rest
    else walk absolute (name :: done) rest

/-- Whether a path starts with a slash. -/
def isAbsolute (path : Text) : Bool := path.head? == some '/'.toUInt8

/-- The shortest path to the same place. -/
def clean (path : Text) : Text :=
  let names := walk (isAbsolute path) [] (Text.splitOn '/'.toUInt8 path)
  if isAbsolute path then Text.lit "/" ++ Text.join (Text.lit "/") names
  else if names.isEmpty then Text.lit "."
  else Text.join (Text.lit "/") names

/-- The path with one slash in place of several in a row. -/
def singleSlashes : Text → Text
  | a :: b :: rest =>
    if a == '/'.toUInt8 && b == '/'.toUInt8 then singleSlashes (b :: rest)
    else a :: singleSlashes (b :: rest)
  | path => path

/-- The path up to its last slash. -/
def directory (path : Text) : Text :=
  (path.reverse.dropWhile fun b => b != '/'.toUInt8).reverse

end Path

end Reckon
