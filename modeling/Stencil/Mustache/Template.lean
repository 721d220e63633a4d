import Stencil.Files.Fault
import Stencil.Mustache.Node

/-!
# Text templates with their partials

A template may include others, its partials, which are files of the working directory. They are
read when the template is, in the order in which they are first mentioned, those that a partial
mentions directly after it; each is read once, however often it is mentioned and even if it
mentions itself. A partial that does not exist is empty.

## Main definitions

* `Template`: the nodes of a template and those of its partials
* `Template.parse`: reads a template and its partials
-/

namespace Stencil.Mustache

/-- A text template: its nodes, and those of its partials by name. -/
structure Template where
  nodes : List Node
  partials : List (String × List Node)
deriving Repr, DecidableEq

namespace Template

/-- The file of a partial: below the working directory, unless the name begins at the root. -/
def fileOf (name : String) : String :=
  (if name.toList.head? = some '/' then name else "./" ++ name) ++ ".mustache"

/-- The files of the partials that a template mentions. -/
def files (text : String) : List String :=
  match Node.parse text with
  | .ok nodes => (Node.allInclusions nodes).map fileOf
  | .error _ => []

/-- The nodes of a partial. -/
def parsePartial (read : FileReader) (name : String) : Except TemplateFault (List Node) :=
  match read (fileOf name) with
  | .ok text => Node.parse text
  | .error .missing => .ok []
  | .error _ => .error .unreadablePartial

/-- The partials that can be reached from the names in a list, added to those already read. At most
`limit` more are read. -/
def parsePartials (read : FileReader) (limit : Nat) (known : List (String × List Node)) :
    List String → Except TemplateFault (List (String × List Node))
  | [] => .ok known
  | name :: names =>
    if (known.lookup name).isSome then parsePartials read limit known names
    else
      match limit with
      | 0 => .error .tooManyPartials
      | limit + 1 =>
        match parsePartial read name with
        | .error fault => .error fault
        | .ok nodes =>
          parsePartials read limit ((name, nodes) :: known) (Node.allInclusions nodes ++ names)
termination_by names => (limit, names.length)

/-- How many partials a template may reach: more than there can be files. -/
def maxPartials : Nat := Nat.pow 2 64

/-- Reads a template and its partials. -/
def parse (read : FileReader) (text : String) : Except TemplateFault Template := do
  let nodes ← Node.parse text
  let partials ← parsePartials read maxPartials [] (Node.allInclusions nodes)
  return ⟨nodes, partials⟩

end Template

end Stencil.Mustache
