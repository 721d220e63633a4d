/-!
# Element trees

A document is a tree of elements and runs of text. Every node knows the line on which it begins.
An element's attributes keep the order in which they were written; a well-formed element has no
two of the same name.

## Main definitions

* `Tag`: what an opening tag says
* `Node`: a node of the tree
* `Element`: an element node, the root of a document in particular
-/

namespace Stencil.Markup

/-- What an opening tag says: a name, attributes in order, and the 1-based line it stands on. -/
structure Tag where
  name : String
  attributes : List (String × String)
  line : Nat
deriving Repr, DecidableEq

/-- The value of an attribute, if the tag has it. -/
def Tag.attribute? (tag : Tag) (name : String) : Option String :=
  tag.attributes.lookup name

/-- A node of a document: a run of text with the line of its first character, or an element. -/
inductive Node where
  | text (value : String) (line : Nat)
  | element (tag : Tag) (children : List Node)
deriving Repr

-- nodes are nested in lists of nodes, for which no equality can be derived
mutual

/-- Whether two nodes are the same. -/
def Node.decEq : (a b : Node) → Decidable (a = b)
  | .text value line, .text value' line' =>
    decidable_of_iff (value = value' ∧ line = line') (by simp)
  | .element tag children, .element tag' children' =>
    haveI := Node.decEqAll children children'
    decidable_of_iff (tag = tag' ∧ children = children') (by simp)
  | .text _ _, .element _ _ | .element _ _, .text _ _ => .isFalse nofun

/-- Whether two lists of nodes are the same. -/
def Node.decEqAll : (as bs : List Node) → Decidable (as = bs)
  | [], [] => .isTrue rfl
  | a :: as, b :: bs =>
    haveI := Node.decEq a b
    haveI := Node.decEqAll as bs
    decidable_of_iff (a = b ∧ as = bs) (by simp)
  | [], _ :: _ | _ :: _, [] => .isFalse nofun

end

instance : DecidableEq Node := Node.decEq

/-- An element: its opening tag and what it contains, in document order. -/
structure Element where
  tag : Tag
  children : List Node
deriving Repr, DecidableEq

/-- Induction on nodes: what holds of an element may be derived from what holds of its children. -/
@[elab_as_elim, induction_eliminator]
theorem Node.induction {motive : Node → Prop}
    (text : ∀ value line, motive (.text value line))
    (element : ∀ tag children, (∀ child ∈ children, motive child) →
      motive (.element tag children)) :
    ∀ node, motive node
  | .text value line => text value line
  | .element tag children => element tag children fun child _ => induction text element child

/-- The element at a node, unless the node is text. -/
def Node.element? : Node → Option Element
  | .text _ _ => none
  | .element tag children => some ⟨tag, children⟩

/-- The text at a node, unless the node is an element. -/
def Node.text? : Node → Option String
  | .text value _ => some value
  | .element _ _ => none

namespace Element

/-- The tag's name. -/
def name (e : Element) : String := e.tag.name

/-- The line of the opening tag. -/
def line (e : Element) : Nat := e.tag.line

/-- The value of an attribute, if the element has it. -/
def attribute? (e : Element) (name : String) : Option String := e.tag.attribute? name

/-- The element as a node of a tree. -/
def toNode (e : Element) : Node := .element e.tag e.children

/-- The text of the first child, if that child is text. -/
def text? (e : Element) : Option String := e.children.head?.bind Node.text?

/-- The children that are elements, in order. -/
def elements (e : Element) : List Element := e.children.filterMap Node.element?

/-- The child elements of one name, in order. -/
def elementsNamed (e : Element) (name : String) : List Element :=
  e.elements.filter (·.name = name)

/-- The first child element of a name. -/
def element? (e : Element) (name : String) : Option Element :=
  e.elements.find? (·.name = name)

end Element

end Stencil.Markup
