import Stencil.Text.Line
import Stencil.Text.Split

/-!
# Paths

A path leads from the working directory, or from the root if it begins with a slash, through
directories to a file. Repeated slashes count as one; a slash at the end says that a directory is
meant. The system bounds the bytes of a path and of every name on the way.

## Main definitions

* `FilePath.ofText`: the path that a text spells
* `FilePath.fileName?`: the name of the file that a path leads to
* `FilePath.maxBytes`, `FilePath.maxNameBytes`: how long paths and names may be
-/

namespace Stencil

/-- A path: where it begins, the names on the way, and whether a slash ends it. -/
structure FilePath where
  absolute : Bool
  steps : List String
  endsWithSlash : Bool
deriving Repr, DecidableEq

namespace FilePath

/-- The step that leads nowhere. -/
def here : String := "."

/-- The step to the directory above. -/
def above : String := ".."

/-- How many bytes the text of a path may have. -/
def maxBytes : Nat := 4095

/-- How many bytes a name may have. -/
def maxNameBytes : Nat := 255

/-- Whether a text is longer than the text of a path may be. -/
def isTooLong (text : String) : Bool := maxBytes < Text.byteLength text.toList

/-- Whether a step is longer than a name may be. -/
def isLongName (step : String) : Bool := maxNameBytes < Text.byteLength step.toList

/-- The path that a text spells. -/
def ofText (text : String) : FilePath :=
  let parts := Text.splitAt '/' text.toList
  { absolute := text.toList.head? = some '/'
    steps := (parts.filter (!·.isEmpty)).map String.ofList
    endsWithSlash := text.toList.getLast? = some '/' }

/-- The name of the file that a path leads to: the last step that leads anywhere, unless that leads
to a directory above. -/
def fileName? (path : FilePath) : Option String :=
  match (path.steps.filter (· ≠ here)).getLast? with
  | some name => if name = above then none else some name
  | none => none

end FilePath

end Stencil
