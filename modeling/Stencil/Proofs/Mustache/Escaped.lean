import Stencil.Mustache.Template

/-!
# Which values are escaped

Every value tag tells whether its value is escaped. Nothing else about a template depends on it: if
the tags tell something else, the template has the same sections, partials and lines, and its values
are marked accordingly.

## Main definitions

* `Node.mapEscaped`: a node, some of its values being escaped and others not
* `Node.unescaped`: a node none of whose values is escaped
* `Tag.mapEscaped`, `Piece.mapEscaped`, `Nesting.mapEscaped`: a tag, a piece, and what is read so
  far, in the same way

## Main results

* `Nesting.ofPieces_mapEscaped`: the nodes of a template whose tags are marked otherwise
* `Node.allInclusions_mapEscapedAll`: it includes the same partials
-/

namespace Stencil.Mustache

variable (f : Bool → Bool)

/-- A tag in which `f` tells whether its value is escaped, by whether it was before. -/
def Tag.mapEscaped : Tag → Tag
  | .value path escaped => .value path (f escaped)
  | tag => tag

/-- A piece in which `f` tells whether a value is escaped. -/
def Piece.mapEscaped : Piece → Piece
  | .text s => .text s
  | .tag t endsLine => .tag (t.mapEscaped f) endsLine

mutual

/-- A node in which `f` tells which values are escaped. -/
def Node.mapEscaped : Node → Node
  | .text s => .text s
  | .value path escaped => .value path (f escaped)
  | .block path inverted body => .block path inverted (Node.mapEscapedAll body)
  | .inclusion name indent => .inclusion name indent
termination_by structural node => node

/-- Nodes in which `f` tells which values are escaped. -/
def Node.mapEscapedAll : List Node → List Node
  | [] => []
  | node :: nodes => node.mapEscaped :: Node.mapEscapedAll nodes
termination_by structural nodes => nodes

end

/-- A node none of whose values is escaped. -/
abbrev Node.unescaped : Node → Node := Node.mapEscaped fun _ => false

/-- Nodes none of whose values is escaped. -/
abbrev Node.unescapedAll : List Node → List Node := Node.mapEscapedAll fun _ => false

/-- A piece in which no value is escaped. -/
abbrev Piece.unescaped : Piece → Piece := Piece.mapEscaped fun _ => false

namespace Node

theorem mapEscapedAll_eq_map (nodes : List Node) :
    mapEscapedAll f nodes = nodes.map (mapEscaped f) := by
  induction nodes with
  | nil => rfl
  | cons node nodes ih => rw [mapEscapedAll, ih, List.map_cons]

/-- Induction on nodes: what holds of a section may be derived from what holds of the nodes in
it. -/
@[elab_as_elim, induction_eliminator]
theorem induction {motive : Node → Prop}
    (text : ∀ value, motive (.text value))
    (value : ∀ path escaped, motive (.value path escaped))
    (block : ∀ path inverted body, (∀ node ∈ body, motive node) →
      motive (.block path inverted body))
    (inclusion : ∀ name indent, motive (.inclusion name indent)) :
    ∀ node, motive node
  | .text s => text s
  | .value path escaped => value path escaped
  | .block path inverted body =>
    block path inverted body fun node _ => induction text value block inclusion node
  | .inclusion name indent => inclusion name indent

theorem inclusions_mapEscaped (node : Node) :
    (node.mapEscaped f).inclusions = node.inclusions := by
  induction node with
  | text s => rfl
  | value path escaped => rfl
  | inclusion name indent => rfl
  | block path inverted body ih =>
    rw [mapEscaped, inclusions, inclusions]
    induction body with
    | nil => rfl
    | cons node nodes ihBody =>
      obtain ⟨first, others⟩ := List.forall_mem_cons.mp ih
      rw [mapEscapedAll, allInclusions, allInclusions, first, ihBody others]

theorem allInclusions_mapEscapedAll (nodes : List Node) :
    allInclusions (mapEscapedAll f nodes) = allInclusions nodes := by
  induction nodes with
  | nil => rfl
  | cons node nodes ih =>
    rw [mapEscapedAll, allInclusions, allInclusions, inclusions_mapEscaped, ih]

end Node

/-- A section that is not closed yet, in which `f` tells which values are escaped. -/
def OpenSection.mapEscaped (s : OpenSection) : OpenSection :=
  { s with before := s.before.map (Node.mapEscaped f) }

namespace Nesting

variable (n : Nesting)

/-- What is read so far, where `f` tells which values are escaped. -/
def mapEscaped : Nesting :=
  { n with
    opened := n.opened.map (OpenSection.mapEscaped f)
    nodes := n.nodes.map (Node.mapEscaped f) }

theorem pushText_mapEscaped (s : List Char) :
    (n.mapEscaped f).pushText s = (n.pushText s).mapEscaped f := by
  unfold pushText
  split <;> rfl

theorem ownLine?_mapEscaped :
    (n.mapEscaped f).ownLine? = n.ownLine?.map fun (m, blanks) => (m.mapEscaped f, blanks) := by
  obtain ⟨opened, nodes, dropsNewline⟩ := n
  cases nodes with
  | nil =>
    cases opened with
    | nil => rfl
    | cons enclosing outer =>
      simp only [ownLine?, mapEscaped, List.map_nil, List.map_cons, OpenSection.mapEscaped]
      split <;> rfl
  | cons node nodes =>
    cases node with
    | value path escaped | block path inverted body | inclusion name indent => rfl
    | text s =>
      simp only [ownLine?, mapEscaped, List.map_cons, Node.mapEscaped]
      split
      · rfl
      · rw [List.isEmpty_map, List.isEmpty_map, Option.map_map]
        refine congrArg (Option.map · _) (funext fun (kept, blanks) => ?_)
        simp only [Function.comp]
        split <;> rfl

theorem settleLine_mapEscaped (endsLine : Bool) :
    (n.mapEscaped f).settleLine endsLine =
      ((n.settleLine endsLine).1.mapEscaped f, (n.settleLine endsLine).2) := by
  have isSame : ({ n.mapEscaped f with dropsNewline := false } : Nesting) =
      ({ n with dropsNewline := false } : Nesting).mapEscaped f := rfl
  unfold settleLine
  cases endsLine with
  | false => rfl
  | true =>
    simp only [isSame, ownLine?_mapEscaped, if_true]
    cases ({ n with dropsNewline := false } : Nesting).ownLine? <;> rfl

theorem close_mapEscaped (path : Path) :
    (n.mapEscaped f).close path = (n.close path).map (mapEscaped f) := by
  obtain ⟨opened, nodes, dropsNewline⟩ := n
  cases opened with
  | nil => rfl
  | cons s outer =>
    simp only [close, mapEscaped, List.map_cons, OpenSection.mapEscaped]
    split
    · simp [Except.map, mapEscaped, Node.mapEscaped, Node.mapEscapedAll_eq_map]
    · rfl

theorem feed_mapEscaped (piece : Piece) :
    (n.mapEscaped f).feed (piece.mapEscaped f) = (n.feed piece).map (mapEscaped f) := by
  cases piece with
  | text s =>
    simp only [feed, Piece.mapEscaped, pushText_mapEscaped]
    rfl
  | tag tag endsLine =>
    cases tag with
    | value path escaped => rfl
    | sectionEnd path =>
      simp only [feed, Piece.mapEscaped, Tag.mapEscaped, settleLine_mapEscaped, close_mapEscaped]
    | comment | delimiters d | sectionStart path inverted | inclusion name =>
      simp only [feed, Piece.mapEscaped, Tag.mapEscaped, settleLine_mapEscaped]
      rfl

theorem foldlM_feed_mapEscaped (pieces : List Piece) :
    (pieces.map (Piece.mapEscaped f)).foldlM feed (n.mapEscaped f) =
      (pieces.foldlM feed n).map (mapEscaped f) := by
  induction pieces generalizing n with
  | nil => rfl
  | cons piece pieces ih =>
    rw [List.map_cons, List.foldlM_cons, List.foldlM_cons, feed_mapEscaped]
    cases n.feed piece with
    | error fault => rfl
    | ok m => exact ih m

theorem finish_mapEscaped :
    (n.mapEscaped f).finish = n.finish.map (Node.mapEscapedAll f) := by
  simp only [finish, mapEscaped, List.isEmpty_map]
  split
  · simp [Except.map, Node.mapEscapedAll_eq_map]
  · rfl

/-- The nodes of a template whose tags tell otherwise which values are escaped are the same nodes
but for that. -/
theorem ofPieces_mapEscaped (pieces : List Piece) (fault : Option TemplateFault) :
    ofPieces (pieces.map (Piece.mapEscaped f)) fault =
      (ofPieces pieces fault).map (Node.mapEscapedAll f) := by
  have start : ({} : Nesting) = ({} : Nesting).mapEscaped f := rfl
  unfold ofPieces
  rw [start, foldlM_feed_mapEscaped, ← start]
  cases pieces.foldlM feed {} with
  | error fault => rfl
  | ok n =>
    cases fault with
    | some fault => rfl
    | none => exact finish_mapEscaped f n

end Nesting

end Stencil.Mustache
