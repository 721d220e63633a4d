import Stencil.Proofs.Markup.Runs
import Stencil.Text.Blank

/-!
# Written documents

A tree can be written down in many ways: text can be given as it is, with references in it, or in a
`CDATA` section, a value can stand in either kind of quotes, an element with nothing in it can be
closed by its only tag, and comments and processing instructions can stand anywhere. A `Document` is
a tree together with such choices. It determines a text, and it determines the tree.

What cannot be written is no document: names are plain, attributes of one tag have different names,
and nothing contains the mark that ends it.

## Main definitions

* `Content`, `Document`: trees together with the ways they are written
* `escape`: text with references for the characters that markup uses
* `Document.print`: the text of a document
* `Document.tree`: the tree of a document, all lines being 0
-/

namespace Stencil.Markup.Written

open Stencil.Text

/-! ### Names and attributes -/

/-- Whether a name may begin with the character. -/
def beginsName (c : Char) : Bool := c.isAlpha || c = '_'

/-- Whether a name may go on with the character. -/
def isNameChar (c : Char) : Bool := c.isAlphanum || c = '_' || c = '-' || c = '.'

/-- A plain name: a letter or an underscore, then letters, digits, underscores, hyphens and dots,
all of them ASCII. -/
structure Name where
  first : Char
  others : List Char
  begins : beginsName first = true
  plain : others.all isNameChar = true

namespace Name

/-- The characters of a name. -/
def chars (name : Name) : List Char := name.first :: name.others

/-- The name as a text. -/
def text (name : Name) : String := String.ofList name.chars

end Name

/-- A character as it is written: the five characters that markup uses are named by the predefined
entities. -/
def escapeChar : Char → List Char
  | '&' => ['&', 'a', 'm', 'p', ';']
  | '<' => ['&', 'l', 't', ';']
  | '>' => ['&', 'g', 't', ';']
  | '"' => ['&', 'q', 'u', 'o', 't', ';']
  | '\'' => ['&', 'a', 'p', 'o', 's', ';']
  | c => [c]

/-- Text as it is written. -/
def escape (s : List Char) : List Char := s.flatMap escapeChar

/-- The kind of quotes around a value. -/
inductive Quote where
  | single
  | double
deriving Repr, DecidableEq

/-- The quote. -/
def Quote.char : Quote → Char
  | .single => '\''
  | .double => '"'

/-- An attribute: its name and value, and the quotes it is written with. -/
structure Attribute where
  name : Name
  value : String
  quote : Quote

/-- An attribute's text, with the blank before it. -/
def Attribute.chars (a : Attribute) : List Char :=
  ' ' :: (a.name.chars ++ '=' :: a.quote.char :: (escape a.value.toList ++ [a.quote.char]))

/-- The name of an element, and its attributes, no two of them of one name. -/
structure StartTag where
  name : Name
  attributes : List Attribute
  distinct : (attributes.map (·.name.chars)).Nodup

namespace StartTag

/-- What stands between the angle brackets of an opening tag. -/
def chars (t : StartTag) : List Char := t.name.chars ++ t.attributes.flatMap Attribute.chars

/-- What an opening tag says. -/
def tag (t : StartTag) : Tag where
  name := t.name.text
  attributes := t.attributes.map fun a => (a.name.text, a.value)
  line := 0

end StartTag

/-! ### Contents -/

/-- What says nothing to a reader: comments and processing instructions. -/
inductive Aside where
  | comment (text : String) (plain : '-' ∉ text.toList ∧ '>' ∉ text.toList)
  | instruction (text : String) (nonempty : text ≠ "")
    (plain : '?' ∉ text.toList ∧ '>' ∉ text.toList)

/-- The text of a comment or a processing instruction, after the `<`. -/
def Aside.chars : Aside → List Char
  | .comment text _ => '!' :: '-' :: '-' :: (text.toList ++ ['-', '-', '>'])
  | .instruction text _ _ => '?' :: (text.toList ++ ['?', '>'])

/-- A piece of what is in an element. An element with nothing in it may be `short`: closed by its
only tag. -/
inductive Content where
  | characters (value : String) (nonempty : value ≠ "")
  | cdata (value : String) (unended : ¬ [']', ']', '>'] <:+: value.toList)
  | aside (aside : Aside)
  | element (tag : StartTag) (short : Bool) (contents : List Content)

namespace Content

/-- Induction on contents: what holds of an element may be derived from what holds of the pieces in
it. -/
@[elab_as_elim, induction_eliminator]
theorem induction {motive : Content → Prop}
    (characters : ∀ value nonempty, motive (.characters value nonempty))
    (cdata : ∀ value unended, motive (.cdata value unended))
    (aside : ∀ aside, motive (.aside aside))
    (element : ∀ tag short contents, (∀ content ∈ contents, motive content) →
      motive (.element tag short contents)) :
    ∀ content, motive content
  | .characters value nonempty => characters value nonempty
  | .cdata value unended => cdata value unended
  | .aside a => aside a
  | .element tag short contents =>
    element tag short contents fun content _ => induction characters cdata aside element content

mutual

/-- The text of a piece. -/
def chars : Content → List Char
  | .characters value _ => escape value.toList
  | .cdata value _ =>
    '<' :: '!' :: '[' :: 'C' :: 'D' :: 'A' :: 'T' :: 'A' :: '[' :: (value.toList ++ [']', ']', '>'])
  | .aside a => '<' :: a.chars
  | .element tag short contents =>
    if short && contents.isEmpty then '<' :: (tag.chars ++ ['/', '>'])
    else '<' :: (tag.chars ++ ['>']) ++ charsAll contents ++ '<' :: '/' :: (tag.name.chars ++ ['>'])
termination_by structural content => content

/-- The text of several pieces. -/
def charsAll : List Content → List Char
  | [] => []
  | content :: contents => content.chars ++ charsAll contents
termination_by structural contents => contents

end

mutual

/-- The node that a piece makes by itself, if it makes one. -/
def nodes : Content → List Node
  | .characters value _ | .cdata value _ => [.text value 0]
  | .aside _ => []
  | .element tag _ contents => [.element tag.tag (joinTexts (nodesAll contents))]
termination_by structural content => content

/-- The nodes that several pieces make, each by itself. -/
def nodesAll : List Content → List Node
  | [] => []
  | content :: contents => content.nodes ++ nodesAll contents
termination_by structural contents => contents

end

end Content

/-! ### Documents -/

/-- What may stand before and after the outermost element. -/
inductive Outside where
  | blank (text : String) (isBlank : text.toList.all isBlank = true)
  | aside (aside : Aside)

/-- The text of something that stands outside the outermost element. -/
def Outside.chars : Outside → List Char
  | .blank text _ => text.toList
  | .aside a => '<' :: a.chars

/-- A document: its outermost element, and what stands before and after it. -/
structure Document where
  before : List Outside
  tag : StartTag
  short : Bool
  contents : List Content
  after : List Outside

namespace Document

/-- The outermost element, as a piece. -/
def root (d : Document) : Content := .element d.tag d.short d.contents

/-- The characters of a document's text. -/
def chars (d : Document) : List Char :=
  d.before.flatMap Outside.chars ++ d.root.chars ++ d.after.flatMap Outside.chars

/-- The text of a document. -/
def print (d : Document) : String := String.ofList d.chars

/-- The tree of a document: comments and processing instructions are gone, and neighbouring pieces
of text make up one node. All lines are 0. -/
def tree (d : Document) : Element := ⟨d.tag.tag, joinTexts (Content.nodesAll d.contents)⟩

end Document

end Stencil.Markup.Written
