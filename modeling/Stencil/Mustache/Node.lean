import Stencil.Mustache.Piece

/-!
# The structure of a text template

Sections nest, so a template is a list of nodes: text, values, sections with their contents, and
partials. A tag that writes nothing and stands on a line of its own leaves no trace of that line:
the newline after it and the blanks before it are dropped, and the blanks before a partial become
its indent.

A tag stands on a line of its own if the line ends after it and, before it, the last node so far is
blank back to the start of its line. What counts as the last node is the text or closed section
before the tag, or else the start of the section around it.

## Main definitions

* `Node`: a node of a template
* `Nesting.feed`: takes in a piece
* `Nesting.ofPieces`: the nodes of a template
-/

namespace Stencil.Mustache

open Stencil.Text

/-- A node of a text template. -/
inductive Node where
  | text (value : String)
  | value (path : Path) (escaped : Bool)
  | block (path : Path) (inverted : Bool) (body : List Node)
  | inclusion (name : String) (indent : String)
deriving Repr

-- nodes are nested in lists of nodes, for which no equality can be derived
mutual

/-- Whether two nodes are the same. -/
def Node.decEq : (a b : Node) → Decidable (a = b)
  | .text s, .text s' => decidable_of_iff (s = s') (by simp)
  | .value path escaped, .value path' escaped' =>
    decidable_of_iff (path = path' ∧ escaped = escaped') (by simp)
  | .block path inverted body, .block path' inverted' body' =>
    haveI := Node.decEqAll body body'
    decidable_of_iff (path = path' ∧ inverted = inverted' ∧ body = body') (by simp)
  | .inclusion name indent, .inclusion name' indent' =>
    decidable_of_iff (name = name' ∧ indent = indent') (by simp)
  | .text _, .value .. | .text _, .block .. | .text _, .inclusion ..
  | .value .., .text _ | .value .., .block .. | .value .., .inclusion ..
  | .block .., .text _ | .block .., .value .. | .block .., .inclusion ..
  | .inclusion .., .text _ | .inclusion .., .value .. | .inclusion .., .block .. => .isFalse nofun

/-- Whether two lists of nodes are the same. -/
def Node.decEqAll : (as bs : List Node) → Decidable (as = bs)
  | [], [] => .isTrue rfl
  | a :: as, b :: bs =>
    haveI := Node.decEq a b
    haveI := Node.decEqAll as bs
    decidable_of_iff (a = b ∧ as = bs) (by simp)
  | [], _ :: _ | _ :: _, [] => .isFalse nofun

end

instance : DecidableEq Node := Node.decEq

/-- A section that is not closed yet, with the nodes before it, the last one first. -/
structure OpenSection where
  path : Path
  inverted : Bool
  /-- Whether its tag stood on a line of its own. -/
  ownLine : Bool
  before : List Node
deriving Repr

/-- Where reading stands after some pieces. -/
structure Nesting where
  /-- The sections that are open, the innermost one first. -/
  opened : List OpenSection := []
  /-- The nodes in the innermost one, or in none, the last one first. -/
  nodes : List Node := []
  /-- Whether the newline that follows is dropped. -/
  dropsNewline : Bool := false
deriving Repr

/-- The text before a tag that stands on a line of its own: what is kept of it, and the blanks
before the tag. There are none if the line is not the tag's own. -/
def splitIndent (s : List Char) (first : Bool) : Option (List Char × List Char) :=
  let blanks := (s.reverse.takeWhile fun c => c ≠ '\n' && isBlank c).reverse
  let kept := s.take (s.length - blanks.length)
  if kept.getLast? = some '\n' ∨ (kept.isEmpty ∧ first) then some (kept, blanks) else none

/-- A text without the newline that begins it. -/
def dropNewline : List Char → List Char
  | '\r' :: '\n' :: s => s
  | '\n' :: s => s
  | s => s

namespace Nesting

/-- Adds a node. -/
def push (n : Nesting) (node : Node) : Nesting :=
  { n with nodes := node :: n.nodes, dropsNewline := false }

/-- Adds text, unless there is none. -/
def pushText (n : Nesting) (s : List Char) : Nesting :=
  if s.isEmpty then { n with dropsNewline := false } else n.push (.text (String.ofList s))

/-- Before a tag after which the line ends: the state without the blanks before the tag, and those,
if the line is the tag's own. -/
def ownLine? (n : Nesting) : Option (Nesting × List Char) :=
  match n.nodes with
  | .text value :: nodes =>
    if value.isEmpty then none
    else
      (splitIndent value.toList (nodes.isEmpty && n.opened.isEmpty)).map fun (kept, blanks) =>
        if blanks.isEmpty then (n, [])
        else ({ n with nodes := .text (String.ofList kept) :: nodes }, blanks)
  | _ :: _ => none
  | [] =>
    match n.opened with
    | [] => some (n, [])
    | enclosing :: _ => if enclosing.ownLine then some (n, []) else none

/-- Takes care of the line around a tag that writes nothing: gives the state without what is
dropped, the blanks before the tag, and whether the line was its own. -/
def settleLine (n : Nesting) (endsLine : Bool) : Nesting × List Char × Bool :=
  let n := { n with dropsNewline := false }
  if endsLine then
    match n.ownLine? with
    | some (n, blanks) => ({ n with dropsNewline := true }, blanks, true)
    | none => (n, [], false)
  else (n, [], false)

/-- Closes the innermost section. -/
def close (n : Nesting) (path : Path) : Except TemplateFault Nesting :=
  match n.opened with
  | [] => .error .unopenedSection
  | s :: outer =>
    if s.path = path then
      .ok { n with opened := outer, nodes := .block path s.inverted n.nodes.reverse :: s.before }
    else .error .unclosedSection

/-- Takes in a piece. -/
def feed (n : Nesting) : Piece → Except TemplateFault Nesting
  | .text s => .ok (n.pushText (if n.dropsNewline then dropNewline s else s))
  | .tag (.value path escaped) _ => .ok (n.push (.value path escaped))
  | .tag tag endsLine =>
    let (n, blanks, ownLine) := n.settleLine endsLine
    match tag with
    | .sectionStart path inverted =>
      .ok { n with opened := ⟨path, inverted, ownLine, n.nodes⟩ :: n.opened, nodes := [] }
    | .sectionEnd path => n.close path
    | .inclusion name =>
      .ok { n with nodes := .inclusion name (String.ofList blanks) :: n.nodes }
    | _ => .ok n

/-- The nodes of a template, once no pieces are left. -/
def finish (n : Nesting) : Except TemplateFault (List Node) :=
  if n.opened.isEmpty then .ok n.nodes.reverse else .error .unclosedSection

/-- The nodes of a template whose pieces up to the first fault are given. -/
def ofPieces (pieces : List Piece) (fault : Option TemplateFault) :
    Except TemplateFault (List Node) := do
  let n ← pieces.foldlM feed {}
  match fault with
  | some fault => .error fault
  | none => n.finish

end Nesting

/-- The nodes of a text template. -/
def Node.parse (text : String) : Except TemplateFault (List Node) :=
  let (pieces, fault) := Piece.scan text.toList
  Nesting.ofPieces pieces fault

mutual

/-- The names of the partials at a node, in the order in which they are mentioned. -/
def Node.inclusions : Node → List String
  | .text _ | .value _ _ => []
  | .block _ _ body => Node.allInclusions body
  | .inclusion name _ => [name]

/-- The names of the partials in a template, in the order in which they are mentioned. -/
def Node.allInclusions : List Node → List String
  | [] => []
  | node :: nodes => node.inclusions ++ Node.allInclusions nodes

end

end Stencil.Mustache
