import Stencil.Markup.Event

/-!
# Documents

A document is a text whose events nest: every opened element is closed by a tag of its name, there
is one outermost element, and nothing but blank text stands outside it. Adjacent runs of character
data make up one text node; comments and the like do not separate them.

The events are taken in in order, and the first thing that is wrong decides how reading ends,
whether it is in the text or an element out of place.

## Main definitions

* `Nesting`: the elements that are open after some events, and the root if it is complete
* `Element.ofEvents`: the tree that a sequence of events describes
* `Element.parse`: the root element of a text
-/

namespace Stencil.Markup

open Stencil.Text

/-- An element that is not closed yet: its tag, and its children so far, the last one first. -/
structure OpenElement where
  tag : Tag
  reversed : List Node
deriving Repr

/-- The element closed at this point. -/
def OpenElement.close (e : OpenElement) : Element :=
  ⟨e.tag, e.reversed.reverse⟩

/-- Adds a child element. -/
def OpenElement.push (e : OpenElement) (child : Element) : OpenElement :=
  { e with reversed := child.toNode :: e.reversed }

/-- Adds character data; it joins a directly preceding run, which keeps its line. -/
def OpenElement.pushText (e : OpenElement) (value : String) (line : Nat) : OpenElement :=
  match e.reversed with
  | .text before start :: nodes => { e with reversed := .text (before ++ value) start :: nodes }
  | nodes => { e with reversed := .text value line :: nodes }

/-- Where reading stands after some events: the open elements, innermost first, and the root
element once it is closed. -/
structure Nesting where
  opened : List OpenElement := []
  root : Option Element := none
deriving Repr

namespace Nesting

/-- Puts a closed element into the one around it, or makes it the root. -/
def attach (n : Nesting) (element : Element) : Except DocumentFault Nesting :=
  match n.opened with
  | parent :: outer => .ok { n with opened := parent.push element :: outer }
  | [] =>
    match n.root with
    | some _ => .error (.secondRoot element.name element.line)
    | none => .ok { n with root := some element }

/-- Takes in one event. A closing tag closes the innermost open element, whatever its name. -/
def feed (n : Nesting) : Event → Except DocumentFault Nesting
  | .opening tag => .ok { n with opened := ⟨tag, []⟩ :: n.opened }
  | .selfClosing tag => n.attach ⟨tag, []⟩
  | .closing _ line =>
    match n.opened with
    | [] => .error (.unexpectedClose line)
    | e :: outer => attach { n with opened := outer } e.close
  | .characters value line =>
    match n.opened with
    | e :: outer => .ok { n with opened := e.pushText value line :: outer }
    | [] => if value.toList.all isBlank then .ok n else .error (.textOutsideRoot line)
  | .aside => .ok n

/-- The root element, once no events are left. -/
def finish (n : Nesting) : Except DocumentFault Element :=
  match n.opened, n.root with
  | e :: _, _ => .error (.unclosed e.tag.name e.tag.line)
  | [], some root => .ok root
  | [], none => .error .noRoot

end Nesting

/-- The tree that a sequence of events describes; `fault` is what ended the events, unless it was
the end of the text. The events before a fault are taken in first: one that is out of place is found
before anything that is wrong with the text after it. -/
def Element.ofEvents (events : List Event) (fault : Option DocumentFault) :
    Except DocumentFault Element := do
  let nesting ← events.foldlM Nesting.feed {}
  match fault with
  | some fault => .error fault
  | none => nesting.finish

/-- The root element of a document's text. -/
def Element.parse (text : String) : Except DocumentFault Element :=
  let (events, fault) := Event.ofText text.toList
  Element.ofEvents events fault

end Stencil.Markup
