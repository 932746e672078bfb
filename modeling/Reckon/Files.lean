import Reckon.Text.Basic

/-!
# Files that cannot be read

A file is named by its path. `FileFault` is why there is nothing to read under a path, and
`FileFault.message` is how the user is told.
-/

namespace Reckon

/-- Why a file cannot be read. -/
inductive FileFault where
  | missing
  /-- The path goes through something that is not a directory. -/
  | notDirectory
  /-- The path leads to a directory. -/
  | directory
  /-- The path, or a name in it, is too long. -/
  | longName
  | forbidden
deriving DecidableEq, Repr

namespace FileFault

/-- What the user is told. A directory can be opened, but not read. -/
def message (fault : FileFault) (path : Text) : Text :=
  let (action, reason) := match fault with
    | missing => (Text.lit "open ", Text.lit ": no such file or directory")
    | notDirectory => (Text.lit "open ", Text.lit ": not a directory")
    | directory => (Text.lit "read ", Text.lit ": is a directory")
    | longName => (Text.lit "open ", Text.lit ": file name too long")
    | forbidden => (Text.lit "open ", Text.lit ": permission denied")
  action ++ path ++ reason

end FileFault

end Reckon
