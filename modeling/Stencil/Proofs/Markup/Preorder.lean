import Stencil.Proofs.Markup.Lines

/-!
# Trees in preorder

An element is put into the tree when it is closed, and character data is joined to what stands
before it, so the nodes of a tree are not finished in the order in which they come. The walk through
the tree visits them in that order all the same, each with the line on which it was begun: along the
preorder of a tree lines never decrease, provided that they do not along the events it is built
from. The events of a text are such, for an index finds no smaller line for a later place.

## Main definitions

* `Node.preorder`: the nodes of a tree, each before its children
* `Node.line`, `Event.line?`: the line on which a node begins, and that of an event

## Main results

* `Node.isChain_children`: where the walk has no two runs of character data side by side, the tree
  has none
* `Element.sublist_lines_of_ofEvents`: the lines of a tree are among those of its events
* `Event.pairwise_line_ofTokens`: the lines of the events of a text
* `Element.wellFormed_of_parse`: the shape and the lines of a tree that is read from a text
-/

namespace Stencil.Markup

open Stencil.Text
open List (Sublist)

/-! ### The nodes of a tree -/

namespace Node

/-- The line on which a node begins. -/
def line : Node → Nat
  | .text _ line => line
  | .element tag _ => tag.line

/-- The children of a node; text has none. -/
def children : Node → List Node
  | .text _ _ => []
  | .element _ children => children

mutual

/-- The nodes of a tree: a node comes first, and then those of its children, one after the other. -/
def preorder : Node → List Node
  | .text value line => [.text value line]
  | .element tag children => .element tag children :: preorderAll children
termination_by structural node => node

/-- The nodes of several trees, one after the other. -/
def preorderAll : List Node → List Node
  | [] => []
  | node :: nodes => node.preorder ++ preorderAll nodes
termination_by structural nodes => nodes

end

variable {node inner child : Node} {nodes : List Node}

theorem preorderAll_eq_flatMap (nodes : List Node) :
    preorderAll nodes = nodes.flatMap preorder := by
  induction nodes with
  | nil => rfl
  | cons node nodes ih => rw [preorderAll, ih, List.flatMap_cons]

theorem preorder_eq (node : Node) : node.preorder = node :: node.children.flatMap preorder := by
  cases node with
  | text value line => rfl
  | element tag children => rw [preorder, preorderAll_eq_flatMap, Node.children]

theorem mem_preorder_self (node : Node) : node ∈ node.preorder := by
  rw [preorder_eq]
  exact List.mem_cons_self

/-- A node is the tree itself or lies in that of a child. -/
theorem mem_preorder_iff :
    inner ∈ node.preorder ↔ inner = node ∨ ∃ child ∈ node.children, inner ∈ child.preorder := by
  rw [preorder_eq, List.mem_cons, List.mem_flatMap]

/-- The nodes below a node come in the same order as in the tree around it. -/
theorem isInfix_preorder (member : inner ∈ node.preorder) : inner.preorder <:+: node.preorder := by
  induction node with
  | text value line =>
    obtain rfl := List.mem_singleton.mp member
    exact List.infix_rfl
  | element tag children ih =>
    rcases mem_preorder_iff.mp member with rfl | ⟨child, isChild, inChild⟩
    · exact List.infix_rfl
    · rw [preorder_eq (.element tag children)]
      exact List.infix_cons
        ((ih child isChild inChild).trans (List.infix_flatMap_of_mem isChild preorder))

/-- Where lines never decrease, no child has a smaller line than its parent. -/
theorem line_le_of_pairwise (ascending : node.preorder.Pairwise (·.line ≤ ·.line))
    (member : inner ∈ node.preorder) (isChild : child ∈ inner.children) :
    inner.line ≤ child.line := by
  have below := ascending.sublist (isInfix_preorder member).sublist
  rw [preorder_eq, List.pairwise_cons] at below
  exact below.1 child (List.mem_flatMap.mpr ⟨child, isChild, child.mem_preorder_self⟩)

/-! ### Neighbours -/

theorem isInfix_walkAll (member : node ∈ nodes) : node.walk <:+: walkAll nodes := by
  rw [walkAll_eq_flatMap, List.flatMap_def]
  exact List.infix_of_mem_flatten (List.mem_map_of_mem member)

/-- Two neighbours that are text are visited one right after the other. -/
theorem isChain_of_walkAll (apart : (walkAll nodes).IsChain Apart) :
    nodes.IsChain fun a b => a.text? = none ∨ b.text? = none := by
  induction nodes with
  | nil => exact .nil
  | cons node nodes ih =>
    rw [walkAll] at apart
    cases nodes with
    | nil => exact .singleton node
    | cons next nodes =>
      refine .cons_cons ?_ (ih apart.right_of_append)
      cases node with
      | element tag children => exact .inl rfl
      | text value line =>
        cases next with
        | element tag children => exact .inr rfl
        | text more other =>
          have meets : Apart (Visit.text value line) (.text more other) :=
            (List.isChain_cons_cons.mp apart).1
          cases meets with
          | inl noText | inr noText => cases noText

/-- Where the walk has no two runs of character data side by side, no node has two neighbouring
children that are text. -/
theorem isChain_children (apart : node.walk.IsChain Apart) (member : inner ∈ node.preorder) :
    inner.children.IsChain fun a b => a.text? = none ∨ b.text? = none := by
  induction node with
  | text value line =>
    obtain rfl := List.mem_singleton.mp member
    exact .nil
  | element tag children ih =>
    have within : (walkAll children).IsChain Apart := by
      rw [walk] at apart
      exact apart.tail.left_of_append
    rcases mem_preorder_iff.mp member with rfl | ⟨child, isChild, inChild⟩
    · exact isChain_of_walkAll within
    · have apartBelow : child.walk.IsChain Apart :=
        List.IsChain.infix within (isInfix_walkAll isChild)
      exact ih child isChild apartBelow inChild

end Node

/-! ### Lines along a walk -/

/-- The line that is told at a visit. -/
def Visit.line? : Visit → Option Nat
  | opening tag => some tag.line
  | closing _ => none
  | text _ line => some line

/-- The line of an event. -/
def Event.line? : Event → Option Nat
  | opening tag | selfClosing tag => some tag.line
  | closing _ line | characters _ line => some line
  | aside => none

/-- A walk tells the lines of the nodes in preorder. -/
theorem Node.map_line_preorder (node : Node) :
    node.preorder.map line = node.walk.filterMap Visit.line? := by
  induction node with
  | text value line => rfl
  | element tag children ih =>
    have below : (children.flatMap preorder).map line =
        (walkAll children).filterMap Visit.line? := by
      rw [walkAll_eq_flatMap, List.map_flatMap, List.filterMap_flatMap]
      exact List.flatMap_congr ih
    rw [preorder_eq, List.map_cons, Node.children, below, walk]
    simp [Visit.line?, line]

theorem filterMap_cons_eq_append {α β : Type} (f : α → Option β) (a : α) (l : List α) :
    (a :: l).filterMap f = (f a).toList ++ l.filterMap f := by
  cases isValue : f a <;> simp [isValue]

/-- A run keeps the line on which it begins, and the other lines in it are forgotten. -/
theorem Visit.sublist_line_consText (a : Visit) (l : List Visit) :
    Sublist ((consText a l).filterMap line?) ((a :: l).filterMap line?) := by
  cases l with
  | nil => exact .refl _
  | cons b l =>
    have two : a :: b :: l = [a, b] ++ l := rfl
    rw [consText, two, List.filterMap_append, List.filterMap_append]
    refine Sublist.append ?_ (.refl _)
    cases a with
    | opening tag | closing name => exact .refl _
    | text value line =>
      cases b with
      | opening tag | closing name => exact .refl _
      | text more other => exact (List.nil_sublist [other]).cons_cons line

theorem Visit.sublist_line_joinTexts (visits : List Visit) :
    Sublist ((joinTexts visits).filterMap line?) (visits.filterMap line?) := by
  induction visits with
  | nil => exact .refl _
  | cons a visits ih =>
    refine (sublist_line_consText a (joinTexts visits)).trans ?_
    rw [filterMap_cons_eq_append, filterMap_cons_eq_append]
    exact (Sublist.refl _).append ih

theorem Event.sublist_line_visits (depth : Nat) (event : Event) :
    Sublist ((event.visits depth).filterMap Visit.line?) event.line?.toList := by
  cases event with
  | opening tag | selfClosing tag | aside => exact .refl _
  | closing name line => exact List.nil_sublist _
  | characters value line =>
    rw [visits]
    split
    · exact List.nil_sublist _
    · exact .refl _

theorem Event.sublist_line_visitsFrom (depth : Nat) (events : List Event) :
    Sublist ((visitsFrom depth events).filterMap Visit.line?) (events.filterMap line?) := by
  induction events generalizing depth with
  | nil => exact .refl _
  | cons event events ih =>
    rw [visitsFrom, List.filterMap_append, filterMap_cons_eq_append]
    exact (sublist_line_visits depth event).append (ih _)

namespace Element

/-- The nodes of an element, itself among them, each before its children. -/
def preorder (e : Element) : List Node := e.toNode.preorder

section Events

variable {events : List Event} {unclosed : List String} {root : Element}

/-- The lines of a tree are among those of the events it is built from, in the same order. -/
theorem sublist_lines_of_ofEvents (delivered : events.foldlM Event.nest [] = .ok unclosed)
    (built : ofEvents events none = .ok root) :
    Sublist (root.preorder.map Node.line) (events.filterMap Event.line?) := by
  have isWalk : root.toNode.walk = joinTexts (Event.visitsFrom 0 events) :=
    walk_of_ofEvents delivered built
  rw [preorder, Node.map_line_preorder, isWalk]
  exact (Visit.sublist_line_joinTexts _).trans (Event.sublist_line_visitsFrom 0 events)

/-- Character data is joined to what stands before it, whatever events there are. -/
theorem isChain_children_of_ofEvents (delivered : events.foldlM Event.nest [] = .ok unclosed)
    (built : ofEvents events none = .ok root) :
    ∀ node ∈ root.preorder,
      node.children.IsChain fun a b => a.text? = none ∨ b.text? = none := by
  have isWalk : root.toNode.walk = joinTexts (Event.visitsFrom 0 events) :=
    walk_of_ofEvents delivered built
  have apart : root.toNode.walk.IsChain Apart := isWalk ▸ isChain_joinTexts _
  exact fun node member => Node.isChain_children apart member

/-- If the lines of the events never decrease, then those of the tree do not. -/
theorem pairwise_line_of_ofEvents (delivered : events.foldlM Event.nest [] = .ok unclosed)
    (built : ofEvents events none = .ok root)
    (ascending : (events.filterMap Event.line?).Pairwise (· ≤ ·)) :
    root.preorder.Pairwise (·.line ≤ ·.line) :=
  List.pairwise_map.mp (ascending.sublist (sublist_lines_of_ofEvents delivered built))

end Events

end Element

/-! ### Lines of a text -/

theorem Event.line_of_ofToken {line : Nat} {token : Token} {event : Event}
    (isEvent : Event.ofToken line token = .ok event) : ∀ told ∈ event.line?, told = line := by
  obtain ⟨piece, lexeme⟩ := token
  cases piece with
  | text raw =>
    obtain ⟨value, -, rfl⟩ := Event.exists_decoded isEvent
    simp [Event.line?]
  | cdata content | comment content | instruction content | doctype content | closing name =>
    cases isEvent
    simp [Event.line?]
  | opening content | selfClosing content =>
    obtain ⟨tag, read, rfl⟩ := map_eq_ok_iff.mp isEvent
    simp [Event.line?, Tag.line_of_read read]

/-- The lines of events never decrease, and each is found at the place of a token. -/
theorem Event.pairwise_line_ofTokens {index : LineIndex}
    (ascending : LineIndex.Ascending index.starts) {cause : Option MarkupFault}
    {names : List String} {offset : Nat} {tokens : List Token}
    (noFault : (ofTokens index cause names offset tokens).2 = none) :
    ((ofTokens index cause names offset tokens).1.filterMap line?).Pairwise (· ≤ ·) ∧
      ∀ line ∈ (ofTokens index cause names offset tokens).1.filterMap line?,
        ∃ place, offset ≤ place ∧ line = index.lineOf place := by
  induction tokens generalizing names offset with
  | nil => exact ⟨.nil, List.forall_mem_nil _⟩
  | cons token tokens ih =>
    obtain ⟨event, inner, isEvent, -, noFaultLater, isCons⟩ := ofTokens_cons noFault
    obtain ⟨others, places⟩ := ih noFaultLater
    -- What comes later was found at places after the token, and those are after `offset`.
    have later : ∀ line ∈
        (ofTokens index cause inner (offset + byteLength token.lexeme) tokens).1.filterMap line?,
        ∃ place, offset ≤ place ∧ line = index.lineOf place := by
      intro line member
      obtain ⟨place, le, isPlace⟩ := places line member
      exact ⟨place, Nat.le_of_add_right_le le, isPlace⟩
    rw [isCons]
    cases told : event.line? with
    | none =>
      rw [List.filterMap_cons_none told]
      exact ⟨others, later⟩
    | some line =>
      obtain rfl := line_of_ofToken isEvent line told
      rw [List.filterMap_cons_some told, List.pairwise_cons, List.forall_mem_cons]
      refine ⟨⟨fun line member => ?_, others⟩, ⟨offset, Nat.le_refl _, rfl⟩, later⟩
      obtain ⟨place, le, rfl⟩ := later line member
      exact ascending.lineOf_le le

namespace Element

/-- **Trees are well formed.** In a tree that is read from a text, no element has two neighbouring
children that are text. The line of every node, element or text, lies between 1 and one more than
the number of newlines in the text. Along the preorder of the tree the lines never decrease, so no
child has a smaller line than its parent. -/
theorem wellFormed_of_parse {text : String} {root : Element} (parsed : parse text = .ok root) :
    (∀ node ∈ root.preorder,
        node.children.IsChain fun a b => a.text? = none ∨ b.text? = none) ∧
      (∀ node ∈ root.preorder, 1 ≤ node.line ∧ node.line ≤ 1 + text.toList.count '\n') ∧
      root.preorder.Pairwise (·.line ≤ ·.line) ∧
      ∀ node ∈ root.preorder, ∀ child ∈ node.children, node.line ≤ child.line := by
  obtain ⟨unclosed, delivered, noFault, built⟩ := exists_events_of_parse parsed
  obtain ⟨ascending, places⟩ :=
    Event.pairwise_line_ofTokens (LineIndex.ascending_ofText text.toList) noFault
  have inOrder := pairwise_line_of_ofEvents delivered built ascending
  refine ⟨isChain_children_of_ofEvents delivered built, fun node member => ?_, inOrder,
    fun node member child isChild => Node.line_le_of_pairwise inOrder member isChild⟩
  have isLine := (sublist_lines_of_ofEvents delivered built).subset (List.mem_map_of_mem member)
  obtain ⟨place, -, isPlace⟩ := places node.line isLine
  rw [isPlace]
  exact LineIndex.lineOf_ofText_bounds text.toList place

/-- Text on both sides of a comment is one child, with the line on which it begins, and the element
that comes after it stands on the second line. -/
theorem wellFormed_of_parse_commented :
    ∃ root, parse "<a>x<!--\n-->y<b/>\n<![CDATA[]]></a>" = .ok root ∧
      root.preorder = [root.toNode, .text "xy" 1, .element ⟨"b", [], 2⟩ [], .text "\n" 2] ∧
      root.preorder.Pairwise (·.line ≤ ·.line) ∧
      root.children.IsChain fun a b => a.text? = none ∨ b.text? = none := by
  have parsed : parse "<a>x<!--\n-->y<b/>\n<![CDATA[]]></a>" = .ok ⟨⟨"a", [], 1⟩,
      [.text "xy" 1, .element ⟨"b", [], 2⟩ [], .text "\n" 2]⟩ := by
    decide +kernel
  obtain ⟨parted, -, inOrder, -⟩ := wellFormed_of_parse parsed
  exact ⟨_, parsed, rfl, inOrder, parted _ (Node.mem_preorder_self _)⟩

end Element

end Stencil.Markup
