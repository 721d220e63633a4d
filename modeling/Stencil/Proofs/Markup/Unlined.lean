import Stencil.Markup.Document

/-!
# Trees without their lines

Every element and every run of text knows its line, and so does every event. Nothing that is built
depends on lines: if they are left out of the events, they are missing in the tree, and that is all.

## Main definitions

* `Element.unlined`: an element, all lines in it being 0
* `Nesting.unlined`, `Event.unlined`: what is built so far, and an event, in the same way

## Main results

* `Nesting.feed_of_unlined`: an event that is in place without its line is in place with it
-/

namespace Stencil.Markup

/-! ### Leaving lines out -/

/-- A tag without its line. -/
def Tag.unlined (tag : Tag) : Tag := { tag with line := 0 }

mutual

/-- A node without its lines. -/
def Node.unlined : Node → Node
  | .text value _ => .text value 0
  | .element tag children => .element tag.unlined (Node.unlinedAll children)
termination_by structural node => node

/-- Nodes without their lines. -/
def Node.unlinedAll : List Node → List Node
  | [] => []
  | node :: nodes => node.unlined :: Node.unlinedAll nodes
termination_by structural nodes => nodes

end

theorem Node.unlinedAll_eq_map (nodes : List Node) : unlinedAll nodes = nodes.map unlined := by
  induction nodes with
  | nil => rfl
  | cons node nodes ih => rw [unlinedAll, ih, List.map_cons]

/-- An element without its lines. -/
def Element.unlined (e : Element) : Element := ⟨e.tag.unlined, Node.unlinedAll e.children⟩

/-! ### What is left

Names, attributes and elements are found in a tree without lines where they are found in the
tree. -/

theorem Tag.attribute?_unlined (tag : Tag) (name : String) :
    tag.unlined.attribute? name = tag.attribute? name := rfl

theorem Node.element?_unlined (node : Node) :
    node.unlined.element? = node.element?.map Element.unlined := by
  cases node <;> rfl

/-- What is an element without its lines is one with them. -/
theorem Node.exists_of_unlined_eq_element {node : Node} {tag : Tag} {children : List Node}
    (same : node.unlined = .element tag children) :
    ∃ tag' children', node = .element tag' children' ∧ tag'.unlined = tag ∧
      children'.map unlined = children := by
  cases node with
  | text value line => cases same
  | element tag' children' =>
    cases same
    exact ⟨tag', children', rfl, rfl, (unlinedAll_eq_map children').symm⟩

namespace Element

theorem attribute?_unlined (e : Element) (name : String) :
    e.unlined.attribute? name = e.attribute? name := rfl

theorem children_unlined (e : Element) : e.unlined.children = e.children.map Node.unlined :=
  Node.unlinedAll_eq_map e.children

theorem elements_unlined (e : Element) : e.unlined.elements = e.elements.map unlined := by
  rw [elements, elements, children_unlined, List.filterMap_map, List.map_filterMap]
  exact congrArg (List.filterMap · e.children) (funext Node.element?_unlined)

theorem elementsNamed_unlined (e : Element) (name : String) :
    e.unlined.elementsNamed name = (e.elementsNamed name).map unlined := by
  rw [elementsNamed, elementsNamed, elements_unlined, List.filter_map]
  rfl

theorem element?_unlined (e : Element) (name : String) :
    e.unlined.element? name = (e.element? name).map unlined := by
  rw [element?, element?, elements_unlined, List.find?_map]
  rfl

end Element

/-- An event without its line. -/
def Event.unlined : Event → Event
  | .opening tag => .opening tag.unlined
  | .selfClosing tag => .selfClosing tag.unlined
  | .closing name _ => .closing name 0
  | .characters value _ => .characters value 0
  | .aside => .aside

namespace OpenElement

variable (e : OpenElement)

/-- An open element without its lines. -/
def unlined : OpenElement := ⟨e.tag.unlined, Node.unlinedAll e.reversed⟩

theorem unlined_close : e.close.unlined = e.unlined.close := by
  simp [close, unlined, Element.unlined, Node.unlinedAll_eq_map]

theorem unlined_pushText (value : String) (line : Nat) :
    (e.pushText value line).unlined = e.unlined.pushText value 0 := by
  rcases e with ⟨tag, _ | ⟨last, reversed⟩⟩
  · rfl
  · cases last <;> rfl

end OpenElement

namespace Nesting

/-- What is built so far, without its lines. -/
def unlined (n : Nesting) : Nesting where
  opened := n.opened.map (·.unlined)
  root := n.root.map (·.unlined)

variable {n m : Nesting} {root : Element}

/-! ### Nothing depends on lines -/

theorem attach_of_unlined (element : Element)
    (attached : n.unlined.attach element.unlined = .ok m) :
    ∃ n', n.attach element = .ok n' ∧ n'.unlined = m := by
  rcases n with ⟨_ | ⟨parent, outer⟩, before⟩
  · cases before with
    | none =>
      cases attached
      exact ⟨_, rfl, rfl⟩
    | some first => cases attached
  · cases attached
    exact ⟨_, rfl, rfl⟩

/-- An event that is in place without its line is in place with it, and what is built differs only
by lines. -/
theorem feed_of_unlined (event : Event) (fed : n.unlined.feed event.unlined = .ok m) :
    ∃ n', n.feed event = .ok n' ∧ n'.unlined = m := by
  cases event with
  | opening tag =>
    cases fed
    exact ⟨_, rfl, rfl⟩
  | selfClosing tag => exact attach_of_unlined ⟨tag, []⟩ fed
  | closing name line =>
    rcases n with ⟨_ | ⟨e, outer⟩, before⟩
    · cases fed
    · refine attach_of_unlined (n := ⟨outer, before⟩) e.close ?_
      rw [e.unlined_close]
      exact fed
  | characters value line =>
    rcases n with ⟨_ | ⟨e, outer⟩, before⟩
    · simp only [unlined, Event.unlined, feed, List.map_nil] at fed ⊢
      split at fed
      · rename_i blank
        cases fed
        exact ⟨_, if_pos blank, rfl⟩
      · cases fed
    · cases fed
      refine ⟨_, rfl, ?_⟩
      simp [unlined, e.unlined_pushText]
  | aside =>
    cases fed
    exact ⟨n, rfl, rfl⟩

theorem finish_of_unlined (finished : n.unlined.finish = .ok root) :
    ∃ root', n.finish = .ok root' ∧ root'.unlined = root := by
  rcases n with ⟨_ | ⟨e, outer⟩, _ | before⟩
  all_goals cases finished
  exact ⟨before, rfl, rfl⟩

end Nesting

end Stencil.Markup
