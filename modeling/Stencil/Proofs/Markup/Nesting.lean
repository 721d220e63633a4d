import Stencil.Markup.Document
import Stencil.Proofs.Except
import Stencil.Proofs.Markup.Runs

/-!
# Trees and their events

A tree can be walked through: an element is opened, what is in it is visited, and the element is
closed. A reader delivers a closing tag only if it closes the innermost open element. From such
events a tree is built exactly if they are those of one element with nothing but blank text around
it, and then the walk through the tree visits just what the events told of.

## Main definitions

* `Visit`, `Element.walk`: what is met on a walk through a tree
* `Event.visitsFrom`: what events tell of
* `Event.outside`: the events outside all elements
* `Nesting.walk`: the walk through what is built so far
* `Nesting.Takes`: what taking in an event comes to

## Main results

* `Nesting.takes_of_feed`, `Nesting.feed_eq_error`: what one event comes to
* `Nesting.walk_foldlM_feed`: building adds what the events tell of
* `Nesting.finishes_iff`: from which events a tree is built
* `Element.ofEvents_delivered`: both, and that no closing tag is unexpected
-/

namespace Stencil.Markup

open Stencil.Text

/-! ### Walks -/

/-- What is met on a walk through a tree. -/
inductive Visit where
  | opening (tag : Tag)
  | closing (name : String)
  | text (value : String) (line : Nat)
deriving Repr, DecidableEq

instance : HasText Visit where
  text := .text
  text?
    | .text value line => some (value, line)
    | .opening _ | .closing _ => none
  text?_text _ _ := rfl

theorem addLast_opening (walk : List Visit) (tag : Tag) :
    addLast walk (.opening tag) = walk ++ [.opening tag] := addLast_of_no_text rfl walk

theorem addLast_closing (walk : List Visit) (name : String) :
    addLast walk (.closing name) = walk ++ [.closing name] := addLast_of_no_text rfl walk

mutual

/-- The walk through a node. -/
def Node.walk : Node → List Visit
  | .text value line => [.text value line]
  | .element tag children => .opening tag :: (Node.walkAll children ++ [.closing tag.name])
termination_by structural node => node

/-- The walk through nodes in document order. -/
def Node.walkAll : List Node → List Visit
  | [] => []
  | node :: nodes => node.walk ++ Node.walkAll nodes
termination_by structural nodes => nodes

end

/-- The walk through an element. -/
def Element.walk (e : Element) : List Visit := e.toNode.walk

theorem Node.walkAll_eq_flatMap (nodes : List Node) : walkAll nodes = nodes.flatMap walk := by
  induction nodes with
  | nil => rfl
  | cons node nodes ih => rw [walkAll, ih, List.flatMap_cons]

theorem Node.walkAll_append (nodes others : List Node) :
    walkAll (nodes ++ others) = walkAll nodes ++ walkAll others := by
  simp only [walkAll_eq_flatMap, List.flatMap_append]

theorem Node.walkAll_singleton (node : Node) : walkAll [node] = node.walk := by
  rw [walkAll, walkAll, List.append_nil]

theorem Node.walk_ne_nil (node : Node) : node.walk ≠ [] := by
  cases node <;> simp [walk]

/-- Text after a node: the walk joins it to what it joins in the tree. -/
theorem Node.walkAll_meet_text (node : Node) (value : String) (line : Nat) :
    walkAll (meet node (.text value line)) = addLast node.walk (.text value line) := by
  cases node with
  | text before start => rfl
  | element tag children =>
    -- The last visit is that of a closing tag, from which text stays apart.
    have isElement : HasText.text? (Node.element tag children) = none := rfl
    have isClosing : HasText.text? (Visit.closing tag.name) = none := rfl
    rw [meet_of_left isElement, walk, ← List.cons_append, addLast_append _ (List.cons_ne_nil _ []),
      addLast, meet_of_left isClosing, walkAll, walkAll_singleton, walk, walk]
    simp

/-! ### What events tell of -/

namespace Event

/-- What an event tells of where `depth` elements are open. Text outside all elements is no part of
a tree. -/
def visits (depth : Nat) : Event → List Visit
  | opening tag => [.opening tag]
  | selfClosing tag => [.opening tag, .closing tag.name]
  | closing name _ => [.closing name]
  | characters value line => if depth = 0 then [] else [.text value line]
  | aside => []

/-- The number of elements open after an event. -/
def depthAfter (depth : Nat) : Event → Nat
  | opening _ => depth + 1
  | closing _ _ => depth - 1
  | selfClosing _ | characters _ _ | aside => depth

/-- What events tell of, the first of them where `depth` elements are open. -/
def visitsFrom (depth : Nat) : List Event → List Visit
  | [] => []
  | event :: events => event.visits depth ++ visitsFrom (event.depthAfter depth) events

/-- The events where no element is open, if at first `depth` elements are. -/
def outside (depth : Nat) : List Event → List Event
  | [] => []
  | event :: events =>
    if depth = 0 then event :: outside (event.depthAfter depth) events
    else outside (event.depthAfter depth) events

/-- Whether an element begins. -/
def beginsElement : Event → Bool
  | opening _ | selfClosing _ => true
  | closing _ _ | characters _ _ | aside => false

/-- The event is no character data other than blank text. -/
def IsBlankIfText : Event → Prop
  | characters value _ => value.toList.all isBlank = true
  | opening _ | selfClosing _ | closing _ _ | aside => True

/-- How many elements begin outside all others. -/
def rootCount (depth : Nat) (events : List Event) : Nat :=
  (outside depth events).countP beginsElement

/-- Character data outside all elements is blank. -/
def BlankOutside (depth : Nat) (events : List Event) : Prop :=
  ∀ event ∈ outside depth events, event.IsBlankIfText

theorem outside_cons (depth : Nat) (event : Event) (events : List Event) :
    outside depth (event :: events) =
      outside depth [event] ++ outside (event.depthAfter depth) events := by
  rw [outside, outside]
  split <;> rfl

@[simp] theorem rootCount_singleton (depth : Nat) (event : Event) :
    rootCount depth [event] = if depth = 0 ∧ event.beginsElement then 1 else 0 := by
  by_cases isOutside : depth = 0
  · simp [rootCount, outside, isOutside, List.countP_cons]
  · simp [rootCount, outside, isOutside]

@[simp] theorem blankOutside_singleton {depth : Nat} {event : Event} :
    BlankOutside depth [event] ↔ (depth = 0 → event.IsBlankIfText) := by
  by_cases isOutside : depth = 0
  · simp [BlankOutside, outside, isOutside]
  · simp [BlankOutside, outside, isOutside]

theorem rootCount_cons (depth : Nat) (event : Event) (events : List Event) :
    rootCount depth (event :: events) =
      rootCount depth [event] + rootCount (event.depthAfter depth) events := by
  rw [rootCount, outside_cons, List.countP_append, rootCount, rootCount]

theorem blankOutside_cons {depth : Nat} {event : Event} {events : List Event} :
    BlankOutside depth (event :: events) ↔
      BlankOutside depth [event] ∧ BlankOutside (event.depthAfter depth) events := by
  rw [BlankOutside, outside_cons, List.forall_mem_append, BlankOutside, BlankOutside]

/-- A closing tag that is delivered closes the innermost element. -/
theorem names_of_nest_closing {name : String} {line : Nat} {names names' : List String}
    (delivered : (closing name line).nest names = .ok names') : names = name :: names' := by
  cases names with
  | nil => cases delivered
  | cons expected outer =>
    simp only [nest] at delivered
    split at delivered
    · rename_i same
      cases delivered
      rw [same]
    · cases delivered

/-- As many names are known as elements are open. -/
theorem length_of_nest {event : Event} {names names' : List String}
    (delivered : event.nest names = .ok names') :
    names'.length = event.depthAfter names.length := by
  cases event with
  | closing name line =>
    rw [names_of_nest_closing delivered]
    rfl
  | opening tag | selfClosing tag | characters value line | aside =>
    cases delivered
    rfl

end Event

/-- The fault is not that a closing tag is unexpected. -/
def DocumentFault.Expected (fault : DocumentFault) : Prop := ∀ line, fault ≠ .unexpectedClose line

/-! ### What is built so far -/

namespace OpenElement

/-- The children so far, in document order. -/
def children (e : OpenElement) : List Node := e.reversed.reverse

/-- The walk through what there is of the element. -/
def walk (e : OpenElement) : List Visit := .opening e.tag :: Node.walkAll e.children

theorem tag_pushText (e : OpenElement) (value : String) (line : Nat) :
    (e.pushText value line).tag = e.tag := by
  rw [pushText]
  split <;> rfl

theorem children_push (e : OpenElement) (child : Element) :
    (e.push child).children = e.children ++ [child.toNode] := by
  simp [children, push]

theorem children_pushText (e : OpenElement) (value : String) (line : Nat) :
    (e.pushText value line).children = addLast e.children (.text value line) := by
  rcases e with ⟨tag, _ | ⟨last, reversed⟩⟩
  · rfl
  · simp only [children, List.reverse_cons, addLast_append _ (List.cons_ne_nil _ _), addLast]
    cases last with
    | text before start => simp [pushText, meet, HasText.text?, HasText.text]
    | element childTag grandchildren => simp [pushText, meet, HasText.text?]

theorem walk_push (e : OpenElement) (child : Element) :
    (e.push child).walk = e.walk ++ child.walk := by
  have sameTag : (e.push child).tag = e.tag := rfl
  rw [walk, walk, children_push, Node.walkAll_append, Node.walkAll_singleton, sameTag,
    List.cons_append]
  rfl

/-- Character data joins the last visit of the walk if that is character data. -/
theorem walk_pushText (e : OpenElement) (value : String) (line : Nat) :
    (e.pushText value line).walk = addLast e.walk (.text value line) := by
  rw [walk, walk, children_pushText, tag_pushText]
  rcases List.eq_nil_or_concat e.children with empty | ⟨before, last, isConcat⟩
  · rw [empty]
    rfl
  · rw [isConcat, List.concat_eq_append, addLast_append before (List.cons_ne_nil _ _), addLast,
      Node.walkAll_append, Node.walkAll_append, Node.walkAll_singleton, Node.walkAll_meet_text,
      ← List.cons_append, ← List.cons_append, addLast_append _ last.walk_ne_nil]

theorem walk_close (e : OpenElement) : e.close.walk = e.walk ++ [.closing e.tag.name] := rfl

end OpenElement

namespace Nesting

/-- The names of the open elements, innermost first. -/
def names (n : Nesting) : List String := n.opened.map (·.tag.name)

/-- The walk through what is built so far: the root element, if it is complete, and then the open
elements from the outermost on. -/
def walk (n : Nesting) : List Visit :=
  (n.root.map Element.walk).getD [] ++ n.opened.reverse.flatMap OpenElement.walk

theorem walk_of_opened {n : Nesting} {e : OpenElement} {outer : List OpenElement}
    (opened : n.opened = e :: outer) :
    n.walk = walk { n with opened := outer } ++ e.walk := by
  simp [walk, opened]

/-- How many elements outside all others are begun or complete. -/
def roots (n : Nesting) : Nat :=
  (if n.root.isSome then 1 else 0) + if n.opened.isEmpty then 0 else 1

section Step

variable {n n' : Nesting} {event : Event} {names : List String} {element : Element}
  {fault : DocumentFault}

/-- What attaching an element comes to, if it has a place. -/
theorem attach_eq_ok (attached : n.attach element = .ok n') :
    n'.names = n.names ∧ n'.walk = n.walk ++ element.walk ∧
      n'.roots = n.roots + if n.opened.isEmpty then 1 else 0 := by
  unfold attach at attached
  split at attached
  · rename_i parent outer opened
    cases attached
    refine ⟨?_, ?_, ?_⟩
    · simp [names, opened, OpenElement.push]
    · rw [walk_of_opened (n := { n with opened := parent.push element :: outer }) rfl,
        walk_of_opened opened, OpenElement.walk_push, List.append_assoc]
    · simp [roots, opened]
  · rename_i opened
    split at attached
    · cases attached
    · rename_i noRoot
      cases attached
      refine ⟨rfl, ?_, ?_⟩
      · simp [walk, opened, noRoot]
      · simp [roots, opened, noRoot]

/-- An element finds no place only if it is the second one outside all others. -/
theorem attach_eq_error (failed : n.attach element = .error fault) :
    n.opened = [] ∧ n.root.isSome ∧ fault = .secondRoot element.name element.line := by
  unfold attach at failed
  split at failed
  · cases failed
  · rename_i opened
    split at failed
    · rename_i root isRoot
      cases failed
      simp [opened, isRoot]
    · cases failed

/-- What taking in an event comes to, `names` being the elements that are open after it. -/
structure Takes (n : Nesting) (event : Event) (names : List String) (n' : Nesting) : Prop where
  names : n'.names = names
  walk : n'.walk = (event.visits n.opened.length).foldl addLast n.walk
  roots : n'.roots = n.roots + Event.rootCount n.opened.length [event]
  blank : Event.BlankOutside n.opened.length [event]

theorem takes_opening (tag : Tag) :
    n.Takes (.opening tag) (tag.name :: n.names) { n with opened := ⟨tag, []⟩ :: n.opened } where
  names := rfl
  walk := by
    rw [walk_of_opened (n := { n with opened := ⟨tag, []⟩ :: n.opened }) rfl, Event.visits,
      List.foldl_cons, List.foldl_nil, addLast_opening]
    rfl
  roots := by cases opened : n.opened <;> simp [Nesting.roots, opened, Event.beginsElement]
  blank := by simp [Event.IsBlankIfText]

theorem takes_selfClosing {tag : Tag} (attached : n.attach ⟨tag, []⟩ = .ok n') :
    n.Takes (.selfClosing tag) n.names n' := by
  obtain ⟨sameNames, isWalk, isRoots⟩ := attach_eq_ok attached
  refine ⟨sameNames, ?_, ?_, by simp [Event.IsBlankIfText]⟩
  · rw [isWalk, Event.visits, List.foldl_cons, List.foldl_cons, List.foldl_nil, addLast_opening,
      addLast_closing, List.append_assoc]
    rfl
  · rw [isRoots]
    cases n.opened <;> simp [Event.beginsElement]

theorem takes_closing {e : OpenElement} {outer : List OpenElement} (opened : n.opened = e :: outer)
    (attached : attach { n with opened := outer } e.close = .ok n') (line : Nat) :
    n.Takes (.closing e.tag.name line) (outer.map (·.tag.name)) n' := by
  obtain ⟨sameNames, isWalk, isRoots⟩ := attach_eq_ok attached
  refine ⟨sameNames, ?_, ?_, by simp [opened]⟩
  · rw [isWalk, OpenElement.walk_close, ← List.append_assoc, ← walk_of_opened opened, Event.visits,
      List.foldl_cons, List.foldl_nil, addLast_closing]
  · -- What was begun is complete now: it counts as before.
    rw [isRoots]
    cases outer <;> simp [roots, opened]

theorem takes_characters {e : OpenElement} {outer : List OpenElement}
    (opened : n.opened = e :: outer) (value : String) (line : Nat) :
    n.Takes (.characters value line) n.names
      { n with opened := e.pushText value line :: outer } where
  names := by simp [Nesting.names, opened, OpenElement.tag_pushText]
  walk := by
    have nonempty : e.walk ≠ [] := List.cons_ne_nil _ _
    rw [walk_of_opened (n := { n with opened := e.pushText value line :: outer }) rfl,
      walk_of_opened opened, OpenElement.walk_pushText, opened, Event.visits, List.length_cons,
      if_neg (Nat.succ_ne_zero _), List.foldl_cons, List.foldl_nil, addLast_append _ nonempty]
  roots := by simp [Nesting.roots, opened]
  blank := by simp [opened]

theorem takes_blank (opened : n.opened = []) {value : String}
    (blank : value.toList.all isBlank = true) (line : Nat) :
    n.Takes (.characters value line) n.names n where
  names := rfl
  walk := by simp [opened, Event.visits]
  roots := by simp [Event.beginsElement]
  blank := by simpa [opened, Event.IsBlankIfText] using blank

theorem takes_aside : n.Takes .aside n.names n where
  names := rfl
  walk := rfl
  roots := by simp [Event.beginsElement]
  blank := by simp [Event.IsBlankIfText]

/-- A delivered event that is in place is taken in. -/
theorem takes_of_feed (delivered : event.nest n.names = .ok names) (fed : n.feed event = .ok n') :
    n.Takes event names n' := by
  cases event with
  | opening tag =>
    cases fed
    cases delivered
    exact takes_opening tag
  | selfClosing tag =>
    cases delivered
    exact takes_selfClosing fed
  | closing name line =>
    have isNames := Event.names_of_nest_closing delivered
    rw [feed] at fed
    split at fed
    · cases fed
    · rename_i e outer opened
      simp only [Nesting.names, opened, List.map_cons, List.cons.injEq] at isNames
      obtain ⟨rfl, rfl⟩ := isNames
      exact takes_closing opened fed line
  | characters value line =>
    cases delivered
    rw [feed] at fed
    split at fed
    · rename_i e outer opened
      cases fed
      exact takes_characters opened value line
    · rename_i opened
      split at fed
      · rename_i blank
        cases fed
        exact takes_blank opened blank line
      · cases fed
  | aside =>
    cases delivered
    cases fed
    exact takes_aside

/-- A delivered event is out of place only if a second element stands outside all others, or text
that is not blank does. -/
theorem feed_eq_error (delivered : event.nest n.names = .ok names)
    (failed : n.feed event = .error fault) :
    (1 < n.roots + Event.rootCount n.opened.length [event] ∨
      ¬ Event.BlankOutside n.opened.length [event]) ∧ fault.Expected := by
  cases event with
  | opening tag => cases failed
  | selfClosing tag =>
    obtain ⟨opened, isSome, rfl⟩ := attach_eq_error failed
    refine ⟨.inl ?_, by simp [DocumentFault.Expected]⟩
    simp [roots, opened, isSome, Event.beginsElement]
  | closing name line =>
    have isNames := Event.names_of_nest_closing delivered
    rw [feed] at failed
    split at failed
    · rename_i opened
      simp [Nesting.names, opened] at isNames
    · rename_i e outer opened
      obtain ⟨-, isSome, rfl⟩ := attach_eq_error failed
      have isSome : n.root.isSome := isSome
      refine ⟨.inl ?_, by simp [DocumentFault.Expected]⟩
      simp [roots, opened, isSome]
  | characters value line =>
    rw [feed] at failed
    split at failed
    · cases failed
    · rename_i opened
      split at failed
      · cases failed
      · rename_i notBlank
        cases failed
        refine ⟨.inr ?_, by simp [DocumentFault.Expected]⟩
        simpa [opened, Event.IsBlankIfText] using notBlank
  | aside => cases failed

end Step

section Run

variable {events : List Event} {unclosed : List String}

/-- Building adds what the events tell of, and nothing else. -/
theorem walk_foldlM_feed {n n' : Nesting}
    (delivered : events.foldlM Event.nest n.names = .ok unclosed)
    (fed : events.foldlM feed n = .ok n') :
    n'.names = unclosed ∧
      n'.walk = (Event.visitsFrom n.opened.length events).foldl addLast n.walk := by
  induction events generalizing n with
  | nil =>
    cases delivered
    cases fed
    exact ⟨rfl, rfl⟩
  | cons event events ih =>
    rw [List.foldlM_cons] at delivered fed
    obtain ⟨names, first, others⟩ := bind_eq_ok_iff.mp delivered
    obtain ⟨m, fedFirst, fedOthers⟩ := bind_eq_ok_iff.mp fed
    obtain ⟨rfl, isWalk, -, -⟩ := takes_of_feed first fedFirst
    obtain ⟨isUnclosed, isWalk'⟩ := ih others fedOthers
    have depth : m.opened.length = event.depthAfter n.opened.length := by
      simpa [Nesting.names] using Event.length_of_nest first
    refine ⟨isUnclosed, ?_⟩
    rw [isWalk', isWalk, depth, Event.visitsFrom, List.foldl_append]

theorem finish_eq_ok {n : Nesting} {root : Element} :
    n.finish = .ok root ↔ n.opened = [] ∧ n.root = some root := by
  unfold finish
  cases n.opened <;> cases n.root <;> simp

/-- Delivered events lead to a tree exactly if in the end every element is closed, one element
stands outside all others, and text outside all elements is blank. -/
theorem finishes_iff {n : Nesting} (delivered : events.foldlM Event.nest n.names = .ok unclosed) :
    (∃ root, (events.foldlM feed n >>= finish) = .ok root) ↔
      unclosed = [] ∧ n.roots + Event.rootCount n.opened.length events = 1 ∧
        Event.BlankOutside n.opened.length events := by
  induction events generalizing n with
  | nil =>
    cases delivered
    have nothing : ([] : List Event).foldlM feed n >>= finish = n.finish := rfl
    simp only [nothing, finish_eq_ok, Event.rootCount, Event.BlankOutside, Event.outside, roots,
      Nesting.names]
    cases opened : n.opened <;> cases isRoot : n.root <;> simp
  | cons event events ih =>
    rw [List.foldlM_cons] at delivered
    obtain ⟨names, first, others⟩ := bind_eq_ok_iff.mp delivered
    rw [List.foldlM_cons, Event.rootCount_cons, Event.blankOutside_cons]
    cases fed : n.feed event with
    | ok m =>
      obtain ⟨rfl, -, isRoots, blank⟩ := takes_of_feed first fed
      have depth : m.opened.length = event.depthAfter n.opened.length := by
        simpa [Nesting.names] using Event.length_of_nest first
      have goesOn : ((Except.ok m >>= fun m => events.foldlM feed m) >>= finish) =
          (events.foldlM feed m >>= finish) := rfl
      rw [goesOn, ih others, isRoots, depth, Nat.add_assoc]
      simp only [blank, true_and]
    | error fault =>
      -- The element that found no place is the second one, or the text is not blank: neither is
      -- mended by what follows.
      obtain ⟨misplaced, -⟩ := feed_eq_error first fed
      have fails : ∀ root, ¬ ((Except.error fault >>= fun m => events.foldlM feed m) >>= finish) =
          .ok root := by
        intro root
        simp [bind, Except.bind]
      simp only [fails, exists_false, false_iff]
      rintro ⟨-, one, blank, -⟩
      rcases misplaced with second | notBlank
      · omega
      · exact notBlank blank

/-- No closing tag is unexpected among delivered events. -/
theorem expected_foldlM_feed {n : Nesting}
    (delivered : events.foldlM Event.nest n.names = .ok unclosed) :
    FailsOnly DocumentFault.Expected (events.foldlM feed n) := by
  induction events generalizing n with
  | nil => exact FailsOnly.ok n
  | cons event events ih =>
    rw [List.foldlM_cons] at delivered ⊢
    obtain ⟨names, first, others⟩ := bind_eq_ok_iff.mp delivered
    cases fed : n.feed event with
    | ok m =>
      obtain ⟨rfl, -, -, -⟩ := takes_of_feed first fed
      exact ih others
    | error fault => exact FailsOnly.error (feed_eq_error first fed).2

theorem expected_finish (n : Nesting) :
    FailsOnly DocumentFault.Expected n.finish := by
  unfold finish
  split
  · exact FailsOnly.error (by simp [DocumentFault.Expected])
  · exact FailsOnly.ok _
  · exact FailsOnly.error (by simp [DocumentFault.Expected])

end Run

end Nesting

/-! ### Events of a text -/

theorem Tag.expected_readAttributes (element : String) (line length : Nat)
    (earlier : List Attribute) (s : List Char) :
    FailsOnly DocumentFault.Expected (Tag.readAttributes element line length earlier s) := by
  fun_induction Tag.readAttributes element line length earlier s with
  | case1 earlier s cause failed => exact FailsOnly.error (by simp [DocumentFault.Expected])
  | case2 earlier s ended => exact FailsOnly.ok []
  | case3 earlier s first rest found key cause failed =>
    exact FailsOnly.error (by simp [DocumentFault.Expected])
  | case4 earlier s first rest found key value decoded ih =>
    exact ih.bind fun others => FailsOnly.ok _

/-- Character data is the event of its token if it can be decoded. -/
theorem Event.exists_decoded {line : Nat} {raw lexeme : List Char} {event : Event}
    (isEvent : Event.ofToken line ⟨.text raw, lexeme⟩ = .ok event) :
    ∃ value, Reference.decode raw = .ok value ∧ event = .characters (String.ofList value) line := by
  simp only [Event.ofToken] at isEvent
  split at isEvent
  · rename_i value decoded
    cases isEvent
    exact ⟨value, decoded, rfl⟩
  · cases isEvent

theorem Event.expected_ofToken (line : Nat) (token : Token) :
    FailsOnly DocumentFault.Expected (Event.ofToken line token) := by
  have tagExpected (content : List Char) :
      FailsOnly DocumentFault.Expected (Tag.read line content) :=
    (Tag.expected_readAttributes _ _ _ _ _).bind fun attributes => FailsOnly.ok _
  unfold Event.ofToken
  split
  · split
    · exact FailsOnly.ok _
    · exact FailsOnly.error (by simp [DocumentFault.Expected])
  · exact FailsOnly.ok _
  · exact (tagExpected _).map _
  · exact (tagExpected _).map _
  · exact FailsOnly.ok _
  all_goals exact FailsOnly.ok _

/-- The events of a text are delivered only as long as closing tags close the innermost element,
and whatever ends them is no unexpected closing tag. -/
theorem Event.ofTokens_delivered (index : LineIndex) (cause : Option MarkupFault)
    (names : List String) (offset : Nat) (tokens : List Token) :
    (∃ unclosed,
      (Event.ofTokens index cause names offset tokens).1.foldlM Event.nest names = .ok unclosed) ∧
      ∀ fault ∈ (Event.ofTokens index cause names offset tokens).2, fault.Expected := by
  induction tokens generalizing names offset with
  | nil =>
    refine ⟨⟨names, rfl⟩, ?_⟩
    cases cause <;> simp [Event.ofTokens, DocumentFault.Expected]
  | cons token tokens ih =>
    rw [Event.ofTokens]
    cases read : Event.ofToken (index.lineOf offset) token with
    | error fault =>
      have expected := Event.expected_ofToken _ _ fault read
      exact ⟨⟨names, rfl⟩, by simpa using expected⟩
    | ok event =>
      cases nested : event.nest names with
      | error fault =>
        simp only [nested]
        exact ⟨⟨names, rfl⟩, by simp [DocumentFault.Expected]⟩
      | ok inner =>
        obtain ⟨⟨unclosed, delivered⟩, expected⟩ := ih inner (offset + byteLength token.lexeme)
        simp only [nested]
        refine ⟨⟨unclosed, ?_⟩, expected⟩
        rw [List.foldlM_cons, nested]
        exact delivered

theorem Event.ofText_delivered (text : List Char) :
    (∃ unclosed, (Event.ofText text).1.foldlM Event.nest [] = .ok unclosed) ∧
      ∀ fault ∈ (Event.ofText text).2, fault.Expected :=
  Event.ofTokens_delivered (LineIndex.ofText text) (Token.scan (dropMark text)).2 [] 0
    (Token.scan (dropMark text)).1

/-! ### Trees from events -/

theorem Element.expected_ofEvents {events : List Event} {unclosed : List String}
    {fault : Option DocumentFault} (delivered : events.foldlM Event.nest [] = .ok unclosed)
    (expected : ∀ cause ∈ fault, cause.Expected) :
    FailsOnly DocumentFault.Expected (Element.ofEvents events fault) := by
  refine (Nesting.expected_foldlM_feed (n := {}) delivered).bind fun n => ?_
  cases fault with
  | none => exact n.expected_finish
  | some cause => exact FailsOnly.error (expected cause rfl)

/-- The walk through a tree visits what the events told of, with neighbouring character data in one
piece. -/
theorem Element.walk_of_ofEvents {events : List Event} {unclosed : List String} {root : Element}
    (delivered : events.foldlM Event.nest [] = .ok unclosed)
    (built : Element.ofEvents events none = .ok root) :
    root.walk = joinTexts (Event.visitsFrom 0 events) := by
  obtain ⟨n, fed, finished⟩ := bind_eq_ok_iff.mp built
  obtain ⟨-, isWalk⟩ := Nesting.walk_foldlM_feed (n := {}) delivered fed
  obtain ⟨noneOpen, isRoot⟩ := Nesting.finish_eq_ok.mp finished
  have isRootWalk : n.walk = root.walk := by simp [Nesting.walk, noneOpen, isRoot]
  rw [← isRootWalk, isWalk, ← List.nil_append (Event.visitsFrom 0 events), joinTexts_append]
  rfl

/-- **Trees and their events.** From events among which a closing tag always closes the innermost
open element, a tree is built exactly if every element is closed, one element stands outside all
others, and character data outside all elements is blank. The walk through the tree then visits what
the events told of, in that order, with neighbouring character data in one piece. Neither these
events nor any text leads to a closing tag that is unexpected. -/
theorem Element.ofEvents_delivered {events : List Event} {unclosed : List String}
    (delivered : events.foldlM Event.nest [] = .ok unclosed) :
    ((∃ root, Element.ofEvents events none = .ok root) ↔
      unclosed = [] ∧ Event.rootCount 0 events = 1 ∧ Event.BlankOutside 0 events) ∧
    (∀ root, Element.ofEvents events none = .ok root →
      root.walk = joinTexts (Event.visitsFrom 0 events)) ∧
    FailsOnly DocumentFault.Expected (Element.ofEvents events none) ∧
    ∀ text, FailsOnly DocumentFault.Expected (Element.parse text) := by
  refine ⟨?_, ?_, ?_, ?_⟩
  · have noRoots : Nesting.roots {} = 0 := rfl
    have finishes := Nesting.finishes_iff (n := {}) delivered
    rw [noRoots, Nat.zero_add] at finishes
    exact finishes
  · exact fun root built => Element.walk_of_ofEvents delivered built
  · exact Element.expected_ofEvents delivered (by simp)
  · intro text
    obtain ⟨⟨unclosed', delivered'⟩, expected⟩ := Event.ofText_delivered text.toList
    exact Element.expected_ofEvents delivered' expected

namespace Sample

/-- The events of an element that holds a piece of text, a comment, more text and an empty element,
with a declaration before it and a line end after it. -/
def greeting : List Event :=
  [.aside, .characters "\n" 1, .opening ⟨"p", [("lang", "en")], 2⟩, .characters "Hello, " 2, .aside,
    .characters "world" 2, .selfClosing ⟨"br", [], 3⟩, .closing "p" 3, .characters "\n" 3]

end Sample

theorem Element.ofEvents_delivered_greeting :
    Sample.greeting.foldlM Event.nest [] = .ok [] ∧
      ∃ root, Element.ofEvents Sample.greeting none = .ok root ∧
        root.walk =
          [.opening ⟨"p", [("lang", "en")], 2⟩, .text "Hello, world" 2, .opening ⟨"br", [], 3⟩,
            .closing "br", .closing "p"] := by
  have delivered : Sample.greeting.foldlM Event.nest [] = .ok [] := rfl
  obtain ⟨accepts, walks, -⟩ := Element.ofEvents_delivered delivered
  have blank : Event.BlankOutside 0 Sample.greeting := by
    simp [Event.BlankOutside, Sample.greeting, Event.outside, Event.depthAfter, Event.IsBlankIfText]
    decide
  obtain ⟨root, built⟩ := accepts.mpr ⟨rfl, by decide, blank⟩
  refine ⟨delivered, root, built, ?_⟩
  rw [walks root built]
  decide

end Stencil.Markup
