import Stencil.Files.Tree

/-!
# Artifacts

What a run produces is a list of files to be written, in order. Writing stops at the first file that
cannot be written; those before it stay written, and so does what that file took.

## Main definitions

* `Artifact`: a file to be written
* `FileTree.deliver`: writes artifacts in order
-/

namespace Stencil

/-- A file to be written, and how the message begins that it could not be. -/
structure Artifact where
  path : String
  text : String
  complaint : String := "Failed to write "
deriving Repr, DecidableEq

/-- The message that an artifact could not be written. -/
def Artifact.failure (a : Artifact) (fault : FileFault) : String :=
  s!"{a.complaint}{a.path}: {fault.message}"

/-- Writes artifacts in order, up to the first that cannot be written; gives the tree afterwards and
the message about that one. -/
def FileTree.deliver (t : FileTree) : List Artifact → FileTree × Option String
  | [] => (t, none)
  | a :: rest =>
    match t.write a.path a.text with
    | (written, none) => written.deliver rest
    | (left, some fault) => (left, some (a.failure fault))

end Stencil
