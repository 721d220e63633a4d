import Stencil.Mustache.Node
import Stencil.Text.Blank

/-!
# Written text templates

A template of literal text, values, comments and sections can be written down in many ways: a value
in any of three forms, and names with blanks around them. An `Item` is a part of a template together
with such choices. Its segments, literal text and marks between two braces on either side, make up
its text; its outline tells which values and sections it has.

Text that would open a tag is no literal text, and names and remarks hold nothing that ends a mark
or makes it something else.

## Main definitions

* `Name`, `Margins`, `Literal`, `Remark`: what marks and text are made of
* `Mark`, `Segment`: what stands between braces, and outside them
* `Item`: a part of a template
* `Item.text`: the text of a template
* `Item.outlineAll`: its values and sections, as nodes
-/

namespace Stencil.Mustache.Written

open Stencil.Text

/-! ### Names and text -/

/-- The characters that no name has: braces, and those that tell one kind of tag from another. -/
def reserved : List Char := ['\x7b', '\x7d', '&', '#', '^', '/', '!', '>', '=']

/-- Whether a character may stand in a name. -/
def isNameChar (c : Char) : Bool := !isBlank c && !reserved.contains c

/-- A name: not empty, with neither blanks nor reserved characters in it. -/
structure Name where
  chars : List Char
  nonempty : chars ≠ []
  plain : chars.all isNameChar = true

/-- The path that a name spells. -/
def Name.path (name : Name) : Path := Path.ofName name.chars

/-- The blanks before and after a name. -/
structure Margins where
  before : List Char
  after : List Char
  blankBefore : before.all isBlank = true
  blankAfter : after.all isBlank = true

/-- A name with its margins. -/
def Margins.around (margins : Margins) (name : Name) : List Char :=
  margins.before ++ name.chars ++ margins.after

/-- Text that opens no tag: there are no two braces in it, and it does not end with one. -/
def Unopened (s : List Char) : Prop := ¬ ['\x7b', '\x7b'] <:+: s ∧ s.getLast? ≠ some '\x7b'

instance (s : List Char) : Decidable (Unopened s) := inferInstanceAs (Decidable (_ ∧ _))

/-- Literal text. -/
structure Literal where
  chars : List Char
  unopened : Unopened chars

/-- What a comment says: anything without braces. -/
structure Remark where
  chars : List Char
  noOpening : '\x7b' ∉ chars
  noClosing : '\x7d' ∉ chars

/-! ### Marks -/

/-- How a value is asked for. -/
inductive Form where
  /-- By its name alone. -/
  | plain
  /-- By an ampersand and its name. -/
  | ampersand
  /-- By its name in braces. -/
  | braces
deriving Repr, DecidableEq

/-- What stands between two braces on either side. -/
inductive Mark where
  | comment (remark : Remark)
  | value (form : Form) (name : Name) (margins : Margins)
  | opening (inverted : Bool) (name : Name) (margins : Margins)
  | closing (name : Name) (margins : Margins)

namespace Mark

/-- The text of a mark, without the two braces on either side. -/
def content : Mark → List Char
  | comment remark => '!' :: remark.chars
  | value .plain name margins => margins.around name
  | value .ampersand name margins => '&' :: margins.around name
  | value .braces name margins => '\x7b' :: (margins.around name ++ ['\x7d'])
  | opening inverted name margins => (if inverted then '^' else '#') :: margins.around name
  | closing name margins => '/' :: margins.around name

/-- The tag that a mark means. -/
def tag : Mark → Tag
  | comment _ => .comment
  | value form name _ => .value name.path (form = .plain)
  | opening inverted name _ => .sectionStart name.path inverted
  | closing name _ => .sectionEnd name.path

end Mark

/-- A segment of a template's text. -/
inductive Segment where
  | literal (literal : Literal)
  | mark (mark : Mark)

/-- The text of a segment. -/
def Segment.chars : Segment → List Char
  | .literal l => l.chars
  | .mark m => '\x7b' :: '\x7b' :: (m.content ++ ['\x7d', '\x7d'])

/-- The tag of a segment that is a mark. -/
def Segment.tag? : Segment → Option Tag
  | .literal _ => none
  | .mark m => some m.tag

/-! ### Items -/

/-- A part of a template. -/
inductive Item where
  | text (literal : Literal)
  | comment (remark : Remark)
  | value (form : Form) (name : Name) (margins : Margins)
  | block (inverted : Bool) (name : Name) (opening closing : Margins) (body : List Item)

namespace Item

mutual

/-- The segments of an item: a section has those of its contents between its two marks. -/
def segments : Item → List Segment
  | .text literal => [.literal literal]
  | .comment remark => [.mark (.comment remark)]
  | .value form name margins => [.mark (.value form name margins)]
  | .block inverted name opening closing body =>
    .mark (.opening inverted name opening) :: (segmentsAll body ++ [.mark (.closing name closing)])
termination_by structural item => item

/-- The segments of several items. -/
def segmentsAll : List Item → List Segment
  | [] => []
  | item :: items => item.segments ++ segmentsAll items
termination_by structural items => items

end

mutual

/-- What an item is besides text: a value, escaped if only its name is given, a section, or
nothing. -/
def outline : Item → List Node
  | .text _ | .comment _ => []
  | .value form name _ => [.value name.path (form = .plain)]
  | .block inverted name _ _ body => [.block name.path inverted (outlineAll body)]
termination_by structural item => item

/-- What several items are besides text. -/
def outlineAll : List Item → List Node
  | [] => []
  | item :: items => item.outline ++ outlineAll items
termination_by structural items => items

end

/-- The characters of a template's text. -/
def chars (items : List Item) : List Char := (segmentsAll items).flatMap Segment.chars

/-- The text of a template. -/
def print (items : List Item) : String := String.ofList (chars items)

end Item

end Stencil.Mustache.Written
