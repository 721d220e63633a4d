import Mathlib.Data.List.Forall2
import Stencil.Proofs.Markup.Nesting
import Stencil.Proofs.Text.Line

/-!
# Tags and the places where they stand

The tokens of a text make up the whole of it, so every opening tag among them stands at a place: so
much of the text comes before its `<`. The opening tags of a tree are those of the text it was read
from, in the same order, and the line of each is found from the bytes before its place. A byte order
mark is not among those bytes, although the lines are counted in a text that begins with it: without
a mark a line is exact, and with one it is that of the bytes three places earlier.

## Main definitions

* `Element.tags`: the opening tags of a tree, in document order
* `Opening`, `openings`: the opening tags of a text, and what comes before each of them
* `markOf`: the byte order mark that a text begins with

## Main results

* `Element.tags_of_ofEvents`: the tags of a tree are those of the events it is built from
* `Token.flatMap_lexeme_scan`: the tokens of a text make up the text
* `Element.forall₂_openings`: which tag of a tree stands where, and on which line
-/

namespace Stencil.Markup

open Stencil.Text

/-! ### The tags of a tree -/

/-- The opening tag that is met at a visit. -/
def Visit.tag? : Visit → Option Tag
  | opening tag => some tag
  | closing _ | text _ _ => none

/-- The opening tag that an event tells of. -/
def Event.tag? : Event → Option Tag
  | opening tag | selfClosing tag => some tag
  | closing _ _ | characters _ _ | aside => none

/-- The opening tags that are met on the walk through a node. -/
def Node.tags (node : Node) : List Tag := node.walk.filterMap Visit.tag?

/-- The opening tags of a tree, in document order. -/
def Element.tags (e : Element) : List Tag := e.toNode.tags

theorem Node.filterMap_walkAll (nodes : List Node) :
    (walkAll nodes).filterMap Visit.tag? = nodes.flatMap tags := by
  rw [walkAll_eq_flatMap, List.filterMap_flatMap]
  rfl

theorem Node.tags_element (tag : Tag) (children : List Node) :
    (Node.element tag children).tags = tag :: children.flatMap tags := by
  simp [tags, walk, filterMap_walkAll, Visit.tag?]

namespace Element

variable {e child : Element} {name : String}

theorem tags_eq (e : Element) : e.tags = e.tag :: e.children.flatMap Node.tags :=
  Node.tags_element e.tag e.children

theorem tag_mem_tags (e : Element) : e.tag ∈ e.tags := by
  rw [tags_eq]
  exact List.mem_cons_self

theorem mem_elements_iff : child ∈ e.elements ↔ child.toNode ∈ e.children := by
  refine List.mem_filterMap.trans ⟨?_, fun isChild => ⟨child.toNode, isChild, rfl⟩⟩
  rintro ⟨node, isChild, isElement⟩
  cases node with
  | text value line => cases isElement
  | element tag children =>
    cases isElement
    exact isChild

theorem tags_subset_of_mem_elements (member : child ∈ e.elements) : child.tags ⊆ e.tags := by
  intro tag isTag
  rw [tags_eq e]
  exact List.mem_cons_of_mem _ (List.mem_flatMap.mpr ⟨_, mem_elements_iff.mp member, isTag⟩)

theorem tag_mem_tags_of_mem_elementsNamed (member : child ∈ e.elementsNamed name) :
    child.tag ∈ e.tags :=
  tags_subset_of_mem_elements (List.mem_of_mem_filter member) child.tag_mem_tags

theorem tags_subset_of_element? (found : e.element? name = some child) : child.tags ⊆ e.tags :=
  tags_subset_of_mem_elements (List.mem_of_find?_eq_some found)

end Element

/-- Joining character data loses no tags. -/
theorem filterMap_addLast (walk : List Visit) (visit : Visit) :
    (addLast walk visit).filterMap Visit.tag? =
      walk.filterMap Visit.tag? ++ visit.tag?.toList := by
  have isMeet (last : Visit) : (meet last visit).filterMap Visit.tag? =
      last.tag?.toList ++ visit.tag?.toList := by
    cases last <;> cases visit <;> rfl
  rcases List.eq_nil_or_concat walk with rfl | ⟨before, last, rfl⟩
  · cases visit <;> rfl
  · have isLast : [last].filterMap Visit.tag? = last.tag?.toList := by cases last <;> rfl
    rw [List.concat_eq_append, addLast_append before (List.cons_ne_nil _ _), addLast,
      List.filterMap_append, isMeet, List.filterMap_append, isLast, List.append_assoc]

theorem filterMap_foldl_addLast (visits walk : List Visit) :
    (visits.foldl addLast walk).filterMap Visit.tag? =
      walk.filterMap Visit.tag? ++ visits.filterMap Visit.tag? := by
  induction visits generalizing walk with
  | nil => simp
  | cons visit visits ih =>
    rw [List.foldl_cons, ih, filterMap_addLast, List.append_assoc]
    cases visit <;> rfl

theorem Event.filterMap_visitsFrom (depth : Nat) (events : List Event) :
    (visitsFrom depth events).filterMap Visit.tag? = events.filterMap Event.tag? := by
  induction events generalizing depth with
  | nil => rfl
  | cons event events ih =>
    rw [visitsFrom, List.filterMap_append, ih]
    cases event with
    | opening tag | selfClosing tag | closing name line | aside => rfl
    | characters value line =>
      rw [visits]
      split <;> rfl

/-- The tags of a tree are those that the events tell of. -/
theorem Element.tags_of_ofEvents {events : List Event} {unclosed : List String} {root : Element}
    (delivered : events.foldlM Event.nest [] = .ok unclosed)
    (built : Element.ofEvents events none = .ok root) :
    root.tags = events.filterMap Event.tag? := by
  calc root.tags
      = (joinTexts (Event.visitsFrom 0 events)).filterMap Visit.tag? := by
        rw [← walk_of_ofEvents delivered built]
        rfl
    _ = (Event.visitsFrom 0 events).filterMap Visit.tag? := by
        rw [← List.nil_append (Event.visitsFrom 0 events), joinTexts_append,
          filterMap_foldl_addLast]
        rfl
    _ = events.filterMap Event.tag? := Event.filterMap_visitsFrom 0 events

/-! ### The tags of a text -/

/-- An opening tag in a text: what comes before its `<`, and what stands between that and the end of
the tag. -/
structure Opening where
  before : List Char
  content : List Char
deriving Repr, DecidableEq

namespace Token

/-- What stands in a token if that is an opening tag, be it that of an empty element. -/
def content? (token : Token) : Option (List Char) :=
  match token.piece with
  | .opening content | .selfClosing content => some content
  | _ => none

/-- The opening tags among tokens; `before` is the text before the first token. -/
def openings (before : List Char) : List Token → List Opening
  | [] => []
  | token :: tokens =>
    (token.content?.map (Opening.mk before)).toList ++ openings (before ++ token.lexeme) tokens

/-- The token consists of a `<`, its content and what closes it, if it is an opening tag. -/
def WellFormed (token : Token) : Prop :=
  ∀ content ∈ token.content?, ∃ close, token.lexeme = '<' :: (content ++ close)

theorem wellFormed_of_no_content {token : Token} (noContent : token.content? = none) :
    token.WellFormed := by
  intro content isContent
  rw [noContent] at isContent
  cases isContent

theorem wellFormed_ofTag (content : List Char) :
    WellFormed ⟨ofTag content, ['<'] ++ content ++ ['>']⟩ := by
  unfold ofTag
  split
  · rename_i slash
    obtain ⟨content, rfl⟩ := List.getLast?_eq_some_iff.mp slash
    rintro _ ⟨⟩
    exact ⟨['/', '>'], by simp⟩
  · rintro _ ⟨⟩
    exact ⟨['>'], rfl⟩

theorem content?_of_bang {s rest : List Char} {token : Token}
    (isBang : bang s = .ok (token, rest)) : token.content? = none := by
  unfold bang at isBang
  repeat' split at isBang
  all_goals
    cases isBang
    try rfl

theorem wellFormed_of_markup {s rest : List Char} {token : Token}
    (isMarkup : markup s = .ok (token, rest)) : token.WellFormed := by
  -- Only what begins with neither `!` nor `?` nor `/` is an opening tag.
  unfold markup at isMarkup
  split at isMarkup
  · exact wellFormed_of_no_content (content?_of_bang isMarkup)
  · split at isMarkup
    · cases isMarkup
      exact wellFormed_of_no_content rfl
    · cases isMarkup
  · split at isMarkup
    · cases isMarkup
      exact wellFormed_of_no_content rfl
    · cases isMarkup
  · split at isMarkup
    · cases isMarkup
      exact wellFormed_ofTag _
    · cases isMarkup

theorem wellFormed_of_next {c : Char} {s rest : List Char} {token : Token}
    (isNext : next c s = .ok (token, rest)) : token.WellFormed := by
  unfold next at isNext
  split at isNext
  · exact wellFormed_of_markup isNext
  · cases isNext
    exact wellFormed_of_no_content rfl

/-- What holds of every token that comes next holds of all tokens of a text. -/
theorem forall_mem_scan {P : Token → Prop}
    (ofNext : ∀ {c s token rest}, next c s = .ok (token, rest) → P token) (s : List Char) :
    ∀ token ∈ (scan s).1, P token := by
  fun_induction scan s with
  | case1 => exact List.forall_mem_nil _
  | case2 c s fault failed => exact List.forall_mem_nil _
  | case3 c s token rest isNext tokens fault scanned ih =>
    rw [scanned] at ih
    exact List.forall_mem_cons.mpr ⟨ofNext isNext, ih⟩

/-- The tokens of a text in which nothing is malformed make up the text. -/
theorem flatMap_lexeme_scan {s : List Char} (wellFormed : (scan s).2 = none) :
    (scan s).1.flatMap lexeme = s := by
  fun_induction scan s with
  | case1 => rfl
  | case2 c s fault failed => cases wellFormed
  | case3 c s token rest isNext tokens fault scanned ih =>
    rw [scanned] at ih
    rw [List.flatMap_cons, ih wellFormed, append_of_next isNext]

/-- An opening tag stands where its place says. -/
theorem exists_of_mem_openings {tokens : List Token} {before : List Char} {o : Opening}
    (wellFormed : ∀ token ∈ tokens, token.WellFormed) (member : o ∈ openings before tokens) :
    ∃ after, before ++ tokens.flatMap lexeme = o.before ++ '<' :: (o.content ++ after) := by
  induction tokens generalizing before with
  | nil => simp [openings] at member
  | cons token tokens ih =>
    obtain ⟨first, others⟩ := List.forall_mem_cons.mp wellFormed
    rw [openings] at member
    rcases List.mem_append.mp member with here | later
    · obtain ⟨content, isContent, rfl⟩ := Option.map_eq_some_iff.mp (Option.mem_toList.mp here)
      obtain ⟨close, isLexeme⟩ := first content isContent
      exact ⟨close ++ tokens.flatMap lexeme, by simp [isLexeme]⟩
    · obtain ⟨after, isText⟩ := ih others later
      exact ⟨after, by rw [← isText, List.flatMap_cons, List.append_assoc]⟩

end Token

/-! ### Places of events -/

theorem Tag.line_of_read {line : Nat} {content : List Char} {tag : Tag}
    (read : Tag.read line content = .ok tag) : tag.line = line := by
  obtain ⟨attributes, -, done⟩ := bind_eq_ok_iff.mp read
  cases done
  rfl

/-- The tag was read from the content of an opening tag, if either is there. -/
def ReadOn (line : Nat) : Option Tag → Option (List Char) → Prop :=
  Option.Rel fun tag content => Tag.read line content = .ok tag

theorem ReadOn.forall₂_toList {line : Nat} {tag? : Option Tag} {content? : Option (List Char)}
    {index : LineIndex} (readOn : ReadOn line tag? content?) (before : List Char)
    (isLine : line = index.lineOf (byteLength before)) :
    List.Forall₂ (fun tag o => Tag.read (index.lineOf (byteLength o.before)) o.content = .ok tag)
      tag?.toList (content?.map (Opening.mk before)).toList := by
  subst isLine
  cases readOn with
  | none => exact .nil
  | some read => exact .cons read .nil

/-- An event tells of an opening tag exactly if it is that of one, and of the tag that is read from
it. -/
theorem Event.readOn_of_ofToken {line : Nat} {token : Token} {event : Event}
    (isEvent : Event.ofToken line token = .ok event) :
    ReadOn line event.tag? token.content? := by
  obtain ⟨piece, lexeme⟩ := token
  cases piece with
  | text raw =>
    obtain ⟨value, -, rfl⟩ := Event.exists_decoded isEvent
    exact .none
  | cdata content | comment content | instruction content | doctype content | closing name =>
    cases isEvent
    exact .none
  | opening content | selfClosing content =>
    obtain ⟨tag, read, rfl⟩ := map_eq_ok_iff.mp isEvent
    exact .some read

/-- If nothing is wrong with a text, each token is understood and the events nest. -/
theorem Event.ofTokens_cons {index : LineIndex} {cause : Option MarkupFault} {names : List String}
    {offset : Nat} {token : Token} {tokens : List Token}
    (noFault : (ofTokens index cause names offset (token :: tokens)).2 = none) :
    ∃ event inner, ofToken (index.lineOf offset) token = .ok event ∧ event.nest names = .ok inner ∧
      (ofTokens index cause inner (offset + byteLength token.lexeme) tokens).2 = none ∧
      (ofTokens index cause names offset (token :: tokens)).1 =
        event :: (ofTokens index cause inner (offset + byteLength token.lexeme) tokens).1 := by
  rw [ofTokens] at noFault ⊢
  cases isEvent : ofToken (index.lineOf offset) token with
  | error fault => simp [isEvent] at noFault
  | ok event =>
    cases nests : event.nest names with
    | error cause => simp [isEvent, nests] at noFault
    | ok inner =>
      simp only [isEvent, nests] at noFault ⊢
      exact ⟨event, inner, rfl, nests, noFault, rfl⟩

/-- The tags that events tell of are those of the tokens, each read on the line of its place. -/
theorem Event.forall₂_openings (index : LineIndex) (before : List Char)
    {cause : Option MarkupFault} {names : List String} {tokens : List Token}
    (noFault : (Event.ofTokens index cause names (byteLength before) tokens).2 = none) :
    cause = none ∧
      List.Forall₂
        (fun tag o => Tag.read (index.lineOf (byteLength o.before)) o.content = .ok tag)
        ((Event.ofTokens index cause names (byteLength before) tokens).1.filterMap Event.tag?)
        (Token.openings before tokens) := by
  -- The text before the tokens grows with each of them, and so does the offset.
  induction tokens generalizing names before with
  | nil => exact ⟨by simpa [Event.ofTokens] using noFault, .nil⟩
  | cons token tokens ih =>
    obtain ⟨event, inner, isEvent, -, noFaultLater, isCons⟩ := ofTokens_cons noFault
    rw [← byteLength_append] at noFaultLater isCons
    obtain ⟨noCause, others⟩ := ih _ noFaultLater
    have first := (readOn_of_ofToken isEvent).forall₂_toList before rfl
    refine ⟨noCause, ?_⟩
    rw [isCons, Token.openings, ← List.singleton_append, List.filterMap_append]
    cases tags : event.tag? <;> simpa [tags] using List.rel_append first others

/-! ### Places of a document -/

/-- The byte order mark that a text begins with, if it begins with one. -/
def markOf : List Char → List Char
  | '\uFEFF' :: _ => ['\uFEFF']
  | _ => []

theorem markOf_append_dropMark (s : List Char) : markOf s ++ dropMark s = s := by
  cases s with
  | nil => rfl
  | cons c s =>
    by_cases isMark : c = '\uFEFF'
    · subst isMark
      rfl
    · simp [markOf, dropMark, isMark]

/-- The opening tags of a text; what comes before them is counted from after a byte order mark. -/
def openings (text : List Char) : List Opening :=
  Token.openings [] (Token.scan (dropMark text)).1

/-- The tag stands at the place of the opening tag in the text and is what is read there. Its line
is one more than the number of newlines in as many bytes as there are before the place, a byte order
mark not being counted among these but being the first of those. -/
structure Tag.StandsAt (text : List Char) (tag : Tag) (o : Opening) : Prop where
  place : ∃ after, text = markOf text ++ o.before ++ '<' :: (o.content ++ after)
  read : Tag.read tag.line o.content = .ok tag
  line : tag.line = 1 + (takeBytes (byteLength o.before) (markOf text ++ o.before)).count '\n'

/-- Without a byte order mark, the line of a tag is exact. -/
theorem Tag.StandsAt.line_of_no_mark {text : List Char} {tag : Tag} {o : Opening}
    (stands : tag.StandsAt text o) (noMark : markOf text = []) :
    tag.line = 1 + o.before.count '\n' := by
  rw [stands.line, noMark, List.nil_append, takeBytes_of_byteLength_le (Nat.le_refl _)]

/-- A tree is built from all events of its text, and these are delivered. -/
theorem Element.exists_events_of_parse {text : String} {root : Element}
    (parsed : Element.parse text = .ok root) :
    ∃ unclosed, (Event.ofText text.toList).1.foldlM Event.nest [] = .ok unclosed ∧
      (Event.ofText text.toList).2 = none ∧
      Element.ofEvents (Event.ofText text.toList).1 none = .ok root := by
  obtain ⟨⟨unclosed, delivered⟩, -⟩ := Event.ofText_delivered text.toList
  have built : Element.ofEvents (Event.ofText text.toList).1 (Event.ofText text.toList).2 =
      .ok root := parsed
  cases noFault : (Event.ofText text.toList).2 with
  | some fault =>
    rw [noFault] at built
    obtain ⟨n, -, failed⟩ := bind_eq_ok_iff.mp built
    cases failed
  | none => exact ⟨unclosed, delivered, rfl, noFault ▸ built⟩

/-- The opening tags of a tree stand in the text it was read from, in the same order, and there are
no others. -/
theorem Element.forall₂_openings {text : String} {root : Element}
    (parsed : Element.parse text = .ok root) :
    List.Forall₂ (Tag.StandsAt text.toList) root.tags (openings text.toList) := by
  obtain ⟨unclosed, delivered, noFault, built⟩ := exists_events_of_parse parsed
  obtain ⟨wellFormed, places⟩ := Event.forall₂_openings (LineIndex.ofText text.toList) [] noFault
  have isText := Token.flatMap_lexeme_scan wellFormed
  have isTags : root.tags = (Event.ofText text.toList).1.filterMap Event.tag? :=
    tags_of_ofEvents delivered built
  rw [isTags]
  -- Each opening tag is read on the line of its place: what is left to say is where it stands.
  rw [List.forall₂_iff_zip] at places ⊢
  refine ⟨places.1, fun {tag o} inZip => ?_⟩
  have read := places.2 inZip
  have isLine := Tag.line_of_read read
  obtain ⟨after, isRest⟩ := Token.exists_of_mem_openings
    (Token.forall_mem_scan Token.wellFormed_of_next _) (List.of_mem_zip inZip).2
  have place : text.toList = markOf text.toList ++ o.before ++ '<' :: (o.content ++ after) := by
    rw [List.append_assoc, ← isRest, List.nil_append, isText, markOf_append_dropMark]
  have within : byteLength o.before ≤ byteLength (markOf text.toList ++ o.before) := by simp
  refine ⟨⟨after, place⟩, isLine ▸ read, ?_⟩
  rw [isLine, LineIndex.lineOf_ofText, ← takeBytes_append within, ← place]

/-- Of two lists that are related entry by entry, each entry of the first has one beside it. -/
theorem exists_mem_zip_of_forall₂ {α β : Type} {R : α → β → Prop} {l : List α} {u : List β} {a : α}
    (related : List.Forall₂ R l u) (member : a ∈ l) : ∃ b, (a, b) ∈ l.zip u ∧ R a b := by
  induction related with
  | nil => cases member
  | cons first others ih =>
    rcases List.mem_cons.mp member with rfl | later
    · exact ⟨_, List.mem_cons_self, first⟩
    · obtain ⟨b, inZip, holds⟩ := ih later
      exact ⟨b, List.mem_cons_of_mem _ inZip, holds⟩

end Stencil.Markup
