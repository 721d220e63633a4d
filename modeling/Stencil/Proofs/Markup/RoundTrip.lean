import Stencil.Proofs.Markup.Nesting
import Stencil.Proofs.Markup.Pieces
import Stencil.Proofs.Markup.Unlined

/-!
# Reading what was written

Reading the text of a written document gives back its tree. Since text is cut out in runs, a piece
of text is not always a token of its own: what follows it may be text as well. So the pieces are
followed from the end of the document to its beginning. If reading the rest of the text after a
piece leads to the tree, so does reading from before the piece on.

## Main definitions

* `Nesting.readFrom`: what comes of the rest of a text
* `Nesting.Builds`: the rest of a text leads to a tree
* `Nesting.ReadsTo`: a piece of text takes what is built so far one step further, whatever follows

## Main results

* `Nesting.readsTo_markup`, `Nesting.readsTo_text`: pieces of markup and of text
* `Nesting.readsTo_element`, `Nesting.readsWithin_content`: elements and what is in them
* `Nesting.builds_document`: documents
* `Element.parse_print`: parsing undoes printing
-/

namespace Stencil.Markup

open Stencil.Text Written

theorem Token.scan_of_next {c : Char} {s rest : List Char} {token : Token}
    (isNext : next c s = .ok (token, rest)) :
    scan (c :: s) = (token :: (scan rest).1, (scan rest).2) := by
  rw [scan]
  split
  · rename_i failed
    rw [isNext] at failed
    cases failed
  · rename_i found
    rw [isNext] at found
    cases found
    rfl

/-- Character data is cut out up to the next piece of markup. -/
theorem Token.next_append_of_text {x : List Char} (nonempty : x ≠ []) (isText : ∀ c ∈ x, c ≠ '<')
    (rest : List Char) :
    ∃ c s, x ++ rest = c :: s ∧
      next c s = .ok (⟨.text (x ++ rest.takeWhile (· ≠ '<')), x ++ rest.takeWhile (· ≠ '<')⟩,
        rest.dropWhile (· ≠ '<')) := by
  obtain ⟨c, x, rfl⟩ := List.exists_cons_of_ne_nil nonempty
  have isTail (d : Char) (isMem : d ∈ x) : decide (d ≠ '<') = true :=
    decide_eq_true (isText d (List.mem_cons_of_mem c isMem))
  refine ⟨c, x ++ rest, rfl, ?_⟩
  rw [next, if_neg (isText c List.mem_cons_self), List.takeWhile_append_of_pos isTail,
    List.dropWhile_append_of_pos isTail]
  rfl

/-- A text that begins with character data begins with a token of that. -/
theorem Token.next_of_takeWhile_ne_nil {rest : List Char}
    (nonempty : rest.takeWhile (· ≠ '<') ≠ []) :
    ∃ c s, rest = c :: s ∧
      next c s = .ok (⟨.text (rest.takeWhile (· ≠ '<')), rest.takeWhile (· ≠ '<')⟩,
        rest.dropWhile (· ≠ '<')) := by
  cases rest with
  | nil => exact absurd rfl nonempty
  | cons c s =>
    have isText : c ≠ '<' := by
      rintro rfl
      exact nonempty rfl
    refine ⟨c, s, rfl, ?_⟩
    rw [next, if_neg isText, List.takeWhile_cons_of_pos (by simpa using isText),
      List.dropWhile_cons_of_pos (by simpa using isText)]

theorem OpenElement.pushText_pushText (e : OpenElement) (value more : String) (line line' : Nat) :
    (e.pushText value line).pushText more line' = e.pushText (value ++ more) line := by
  rcases e with ⟨tag, _ | ⟨last, reversed⟩⟩
  · rfl
  · cases last with
    | text before start => simp [pushText, String.append_assoc]
    | element childTag grandchildren => rfl

theorem Event.nest_unlined (names : List String) (event : Event) :
    event.unlined.nest names = event.nest names := by
  cases event <;> rfl

namespace Nesting

theorem names_unlined (n : Nesting) : n.unlined.names = n.names := by
  simp [names, unlined, OpenElement.unlined, Tag.unlined]

/-! ### The rest of a text -/

/-- What comes of the rest of a text, if it starts at byte `offset` and so much is built so far. -/
def readFrom (index : LineIndex) (offset : Nat) (n : Nesting) (s : List Char) :
    Except DocumentFault Element := do
  let (tokens, cause) := Token.scan s
  let (events, fault) := Event.ofTokens index cause n.names offset tokens
  let nesting ← events.foldlM feed n
  match fault with
  | some fault => .error fault
  | none => nesting.finish

section Step

variable {index : LineIndex} {offset : Nat} {n n' : Nesting} {c : Char} {s rest : List Char}
  {token : Token} {event : Event} {names : List String} {root : Element}

theorem readFrom_nil : n.readFrom index offset [] = n.finish := by
  simp [readFrom, Token.scan, Event.ofTokens, bind, Except.bind, pure, Except.pure]

/-- A token takes reading one step further. -/
theorem readFrom_cons (isNext : Token.next c s = .ok (token, rest))
    (isEvent : Event.ofToken (index.lineOf offset) token = .ok event)
    (nests : event.nest n.names = .ok names) (fed : n.feed event = .ok n') :
    n.readFrom index offset (c :: s) =
      n'.readFrom index (offset + byteLength token.lexeme) rest := by
  have sameNames := (takes_of_feed nests fed).names
  simp only [readFrom, Token.scan_of_next isNext, Event.ofTokens, isEvent, nests, List.foldlM_cons,
    fed, sameNames]
  rfl

/-- If something comes of a text, then its first token takes reading one step further. -/
theorem exists_of_readFrom_cons (isNext : Token.next c s = .ok (token, rest))
    (isOk : n.readFrom index offset (c :: s) = .ok root) :
    ∃ event n', Event.ofToken (index.lineOf offset) token = .ok event ∧ n.feed event = .ok n' ∧
      n'.readFrom index (offset + byteLength token.lexeme) rest = .ok root := by
  cases isEvent : Event.ofToken (index.lineOf offset) token with
  | error fault => simp [readFrom, Token.scan_of_next isNext, Event.ofTokens, isEvent] at isOk
  | ok event =>
    cases nests : event.nest n.names with
    | error cause =>
      simp [readFrom, Token.scan_of_next isNext, Event.ofTokens, isEvent, nests] at isOk
    | ok names =>
      cases fed : n.feed event with
      | error fault =>
        simp [readFrom, Token.scan_of_next isNext, Event.ofTokens, isEvent, nests, fed, bind,
          Except.bind] at isOk
      | ok n' =>
        rw [readFrom_cons isNext isEvent nests fed] at isOk
        exact ⟨event, n', rfl, fed, isOk⟩

end Step

/-! ### Pieces before the rest -/

/-- The rest of a text leads to a tree, lines aside, wherever it starts. -/
def Builds (n : Nesting) (s : List Char) (root : Element) : Prop :=
  ∀ (index : LineIndex) (offset : Nat) (m : Nesting), m.unlined = n →
    ∃ root', m.readFrom index offset s = .ok root' ∧ root'.unlined = root

/-- A piece of text takes what is built so far one step further, whatever follows it. -/
def ReadsTo (n : Nesting) (x : List Char) (n' : Nesting) : Prop :=
  ∀ rest root, n'.Builds rest root → n.Builds (x ++ rest) root

section Pieces

variable {n n' n'' : Nesting} {x y : List Char} {names : List String}

theorem ReadsTo.nil : n.ReadsTo [] n := by
  intro rest root builds
  exact builds

theorem ReadsTo.append (first : n.ReadsTo x n') (second : n'.ReadsTo y n'') :
    n.ReadsTo (x ++ y) n'' := by
  intro rest root builds
  rw [List.append_assoc]
  exact first _ _ (second _ _ builds)

/-- A piece of markup is a token of its own. -/
theorem readsTo_markup (event : Event) {piece : Piece} (cuts : Token.Cuts x piece)
    (understood : ∀ line, ∃ event', Event.ofToken line ⟨piece, '<' :: x⟩ = .ok event' ∧
      event'.unlined = event)
    (nests : event.nest n.names = .ok names) (fed : n.feed event = .ok n') :
    n.ReadsTo ('<' :: x) n' := by
  intro rest root builds index offset m isUnlined
  -- The event has a line here, and `event` has none: what they do differs only by lines.
  obtain ⟨event', isEvent, rfl⟩ := understood (index.lineOf offset)
  subst isUnlined
  rw [Event.nest_unlined, names_unlined] at nests
  obtain ⟨m', fed, isUnlined⟩ := feed_of_unlined event' fed
  have isNext : Token.next '<' (x ++ rest) = .ok (⟨piece, '<' :: x⟩, rest) := by
    rw [Token.next, if_pos rfl, cuts]
  rw [List.cons_append, readFrom_cons isNext isEvent nests fed]
  exact builds index _ m' isUnlined

/-- Character data that is taken in in two steps can be taken in in one. -/
theorem feed_append {value more : String} {line line' : Nat}
    (first : n.feed (.characters value line) = .ok n')
    (second : n'.feed (.characters more line') = .ok n'') :
    n.feed (.characters (value ++ more) line) = .ok n'' := by
  rcases n with ⟨_ | ⟨e, outer⟩, root⟩
  · -- Outside all elements text is blank if both parts are.
    simp only [feed] at first
    split at first
    · rename_i blank
      cases first
      simp only [feed] at second ⊢
      split at second
      · rename_i blank'
        cases second
        rw [String.toList_append, List.all_append, blank, blank']
        rfl
      · cases second
    · cases first
  · cases first
    cases second
    rw [OpenElement.pushText_pushText]
    rfl

/-- A piece of text is read whether or not there is more text after it. -/
theorem readsTo_text {value : List Char} (nonempty : value ≠ [])
    (fed : n.feed (.characters (String.ofList value) 0) = .ok n') :
    n.ReadsTo (escape value) n' := by
  intro rest root builds index offset m isUnlined
  subst isUnlined
  obtain ⟨m', fed, isUnlined⟩ := feed_of_unlined
    (.characters (String.ofList value) (index.lineOf offset)) fed
  obtain ⟨c, s, isCons, isNext⟩ := Token.next_append_of_text (escape_ne_nil nonempty)
    (fun c isMem => (ne_of_mem_escape isMem).1) rest
  -- The token reaches up to the next `<`: is there text between the piece and that?
  by_cases endsHere : rest.takeWhile (· ≠ '<') = []
  · have isRest := List.takeWhile_append_dropWhile (p := (· ≠ '<')) (l := rest)
    rw [endsHere, List.nil_append] at isRest
    rw [endsHere, List.append_nil, isRest] at isNext
    have isEvent : Event.ofToken (index.lineOf offset) ⟨.text (escape value), escape value⟩ =
        .ok (.characters (String.ofList value) (index.lineOf offset)) := by
      simp only [Event.ofToken, Reference.decode_escape]
    rw [isCons, readFrom_cons isNext isEvent rfl fed]
    exact builds index _ m' isUnlined
  · obtain ⟨d, t, rfl, isNext'⟩ := Token.next_of_takeWhile_ne_nil endsHere
    -- Where the rest is read by itself, its first token is what follows the piece in this one.
    obtain ⟨root', isOk, sameTree⟩ := builds index (offset + byteLength (escape value)) m' isUnlined
    obtain ⟨event, m'', isEvent', fed', isOk⟩ := exists_of_readFrom_cons isNext' isOk
    obtain ⟨decoded, isDecoded, rfl⟩ := Event.exists_decoded isEvent'
    have isEvent : Event.ofToken (index.lineOf offset)
        ⟨.text (escape value ++ (d :: t).takeWhile (· ≠ '<')),
          escape value ++ (d :: t).takeWhile (· ≠ '<')⟩ =
        .ok (.characters (String.ofList value ++ String.ofList decoded) (index.lineOf offset)) := by
      simp only [Event.ofToken, Reference.decode_escape_append isDecoded, String.ofList_append]
    rw [isCons, readFrom_cons isNext isEvent rfl (feed_append fed fed'), byteLength_append,
      ← Nat.add_assoc]
    exact ⟨root', isOk, sameTree⟩

end Pieces

end Nesting

/-! ### Contents -/

namespace OpenElement

/-- Adds a node: text joins text, and an element stands by itself. -/
def add (e : OpenElement) : Node → OpenElement
  | .text value line => e.pushText value line
  | .element tag children => e.push ⟨tag, children⟩

theorem children_foldl_add (nodes : List Node) (e : OpenElement) :
    (nodes.foldl add e).children = nodes.foldl addLast e.children := by
  induction nodes generalizing e with
  | nil => rfl
  | cons node nodes ih =>
    rw [List.foldl_cons, ih, List.foldl_cons]
    cases node with
    | text value line => rw [add, children_pushText]
    | element tag children =>
      have isElement : HasText.text? (Node.element tag children) = none := rfl
      rw [add, children_push, addLast_of_no_text isElement]
      rfl

theorem tag_foldl_add (nodes : List Node) (e : OpenElement) : (nodes.foldl add e).tag = e.tag := by
  induction nodes generalizing e with
  | nil => rfl
  | cons node nodes ih =>
    rw [List.foldl_cons, ih]
    cases node with
    | text value line => rw [add, tag_pushText]
    | element tag children => rfl

/-- An element to which nodes were added one by one holds what comes of joining them. -/
theorem close_foldl_add (tag : Tag) (nodes : List Node) :
    (nodes.foldl add ⟨tag, []⟩).close = ⟨tag, joinTexts nodes⟩ := by
  have isChildren := children_foldl_add nodes ⟨tag, []⟩
  have isJoin := joinTexts_append [] nodes
  rw [List.nil_append] at isJoin
  rw [close, tag_foldl_add, isJoin]
  exact congrArg _ isChildren

end OpenElement

namespace Nesting

variable {n n' : Nesting}

theorem readsTo_aside (a : Aside) : n.ReadsTo ('<' :: a.chars) n := by
  obtain ⟨piece, cuts, isEvent⟩ := Token.cuts_aside a
  exact readsTo_markup .aside cuts (fun line => ⟨.aside, isEvent line, rfl⟩) rfl rfl

/-- What is in an open element is read as nodes that are added to it. -/
def ReadsWithin (x : List Char) (nodes : List Node) : Prop :=
  ∀ e outer root, ReadsTo ⟨e :: outer, root⟩ x ⟨nodes.foldl OpenElement.add e :: outer, root⟩

theorem readsWithin_all {contents : List Content}
    (each : ∀ content ∈ contents, ReadsWithin content.chars content.nodes) :
    ReadsWithin (Content.charsAll contents) (Content.nodesAll contents) := by
  induction contents with
  | nil => exact fun e outer root => .nil
  | cons content contents ih =>
    intro e outer root
    rw [Content.charsAll, Content.nodesAll, List.foldl_append]
    have first := each content List.mem_cons_self
    have others := ih fun other isMem => each other (List.mem_cons_of_mem content isMem)
    exact (first e outer root).append (others _ outer root)

/-- An element is read, wherever it has a place, if its contents are. -/
theorem readsTo_element {tag : StartTag} {short : Bool} {contents : List Content}
    (within : ReadsWithin (Content.charsAll contents) (Content.nodesAll contents))
    (attached : n.attach ⟨tag.tag, joinTexts (Content.nodesAll contents)⟩ = .ok n') :
    n.ReadsTo (Content.element tag short contents).chars n' := by
  rw [Content.chars]
  split
  · rename_i isShort
    rw [Bool.and_eq_true, List.isEmpty_iff] at isShort
    obtain ⟨-, rfl⟩ := isShort
    have understood (line : Nat) : Event.ofToken line
        ⟨.selfClosing tag.chars, '<' :: (tag.chars ++ ['/', '>'])⟩ =
          .ok (.selfClosing { tag.tag with line := line }) := by
      simp only [Event.ofToken, Tag.read_startTag]
      rfl
    exact readsTo_markup (.selfClosing tag.tag) (Token.cuts_selfClosing tag)
      (fun line => ⟨_, understood line, rfl⟩) rfl attached
  · have opens : n.ReadsTo ('<' :: (tag.chars ++ ['>'])) ⟨⟨tag.tag, []⟩ :: n.opened, n.root⟩ := by
      have understood (line : Nat) : Event.ofToken line
          ⟨.opening tag.chars, '<' :: (tag.chars ++ ['>'])⟩ =
            .ok (.opening { tag.tag with line := line }) := by
        simp only [Event.ofToken, Tag.read_startTag]
        rfl
      exact readsTo_markup (.opening tag.tag) (Token.cuts_opening tag)
        (fun line => ⟨_, understood line, rfl⟩) rfl rfl
    have closes : ReadsTo
        ⟨(Content.nodesAll contents).foldl OpenElement.add ⟨tag.tag, []⟩ :: n.opened, n.root⟩
        ('<' :: '/' :: (tag.name.chars ++ ['>'])) n' := by
      have nests : (Event.closing tag.name.text 0).nest (names
          ⟨(Content.nodesAll contents).foldl OpenElement.add ⟨tag.tag, []⟩ :: n.opened, n.root⟩) =
            .ok n.names := by
        simp only [names, List.map_cons, OpenElement.tag_foldl_add]
        exact if_pos rfl
      refine readsTo_markup (.closing tag.name.text 0) (Token.cuts_closing tag.name)
        (fun line => ⟨.closing tag.name.text line, rfl, rfl⟩) nests ?_
      · simp only [feed, OpenElement.close_foldl_add]
        exact attached
    exact (opens.append (within _ _ _)).append closes

theorem readsWithin_content (content : Content) : ReadsWithin content.chars content.nodes := by
  induction content with
  | characters value nonempty =>
    intro e outer root
    have nonempty : value.toList ≠ [] := by simpa using nonempty
    refine readsTo_text nonempty ?_
    rw [String.ofList_toList]
    rfl
  | cdata value unended =>
    intro e outer root
    refine readsTo_markup (.characters value 0) (Token.cuts_cdata unended)
      (fun line => ⟨.characters value line, ?_, rfl⟩) rfl rfl
    simp only [Event.ofToken, String.ofList_toList]
  | aside a => exact fun e outer root => readsTo_aside a
  | element tag short contents ih =>
    exact fun e outer root => readsTo_element (readsWithin_all ih) rfl

/-! ### Documents -/

theorem readsTo_outside (noneOpen : n.opened = []) (o : Outside) : n.ReadsTo o.chars n := by
  cases o with
  | blank text isBlank =>
    rw [Outside.chars]
    by_cases nonempty : text.toList = []
    · rw [nonempty]
      exact .nil
    · rw [← escape_of_isBlank isBlank]
      refine readsTo_text nonempty ?_
      simp only [feed, noneOpen, String.toList_ofList, isBlank, if_true]
  | aside a => exact readsTo_aside a

theorem readsTo_flatMap_outside (noneOpen : n.opened = []) (outside : List Outside) :
    n.ReadsTo (outside.flatMap Outside.chars) n := by
  induction outside with
  | nil => exact .nil
  | cons o outside ih => exact (readsTo_outside noneOpen o).append ih

end Nesting

/-- No document begins with a byte order mark: that is no blank. -/
theorem dropMark_chars (d : Document) : dropMark d.chars = d.chars := by
  have isRoot : ∃ s, d.root.chars ++ d.after.flatMap Outside.chars = '<' :: s := by
    rw [Document.root, Content.chars]
    split
    · exact ⟨_, rfl⟩
    · exact ⟨_, rfl⟩
  obtain ⟨s, isRoot⟩ := isRoot
  have noMark (outside : List Outside) : dropMark (outside.flatMap Outside.chars ++ '<' :: s) =
      outside.flatMap Outside.chars ++ '<' :: s := by
    induction outside with
    | nil => rfl
    | cons o outside ih =>
      cases o with
      | aside a => rfl
      | blank text isBlank =>
        rw [List.flatMap_cons, List.append_assoc, Outside.chars]
        cases isText : text.toList with
        | nil => exact ih
        | cons c text =>
          rw [isText, List.all_cons, Bool.and_eq_true] at isBlank
          have isNoMark : c ≠ '\uFEFF' := by
            rintro rfl
            exact absurd isBlank.1 (by decide)
          rw [List.cons_append, dropMark]
          intro s isCons
          exact isNoMark (List.cons.inj isCons).1
  rw [Document.chars, List.append_assoc, isRoot, noMark]

/-- The text of a document leads to its tree. -/
theorem Nesting.builds_document (d : Document) : Builds {} d.chars d.tree := by
  have before := readsTo_flatMap_outside (n := {}) rfl d.before
  have root : ReadsTo {} d.root.chars ⟨[], some d.tree⟩ :=
    readsTo_element (readsWithin_all fun content _ => readsWithin_content content) rfl
  have after := readsTo_flatMap_outside (n := ⟨[], some d.tree⟩) rfl d.after
  have ends : Builds ⟨[], some d.tree⟩ [] d.tree := by
    intro index offset m isUnlined
    rw [readFrom_nil]
    exact finish_of_unlined (isUnlined ▸ rfl)
  have builds := ((before.append root).append after) [] d.tree ends
  rwa [List.append_nil, ← Document.chars] at builds

/-- Parsing the text of a document is reading all of it. -/
theorem Element.parse_print_eq_readFrom (d : Document) :
    Element.parse d.print = Nesting.readFrom (LineIndex.ofText d.chars) 0 {} d.chars := by
  have isReading : Element.parse d.print =
      Nesting.readFrom (LineIndex.ofText d.chars) 0 {} (dropMark d.chars) := by
    rw [Element.parse, Document.print, String.toList_ofList]
    rfl
  rw [isReading, dropMark_chars]

/-- **Parsing undoes printing.** The text of a document is accepted, and the tree that is read from
it is, lines aside, the tree that was written. -/
theorem Element.parse_print (d : Document) :
    ∃ root, Element.parse d.print = .ok root ∧ root.unlined = d.tree := by
  rw [Element.parse_print_eq_readFrom]
  exact Nesting.builds_document d (LineIndex.ofText d.chars) 0 {} rfl

namespace Sample

/-- A document with text in three pieces, one of them a `CDATA` section, and an empty element. -/
def shopping : Document where
  before :=
    [.aside (.instruction "xml version=\"1.0\"" (by decide) (by decide)), .blank "\n" (by decide)]
  tag := ⟨⟨'p', [], by decide, by decide⟩,
    [⟨⟨'i', ['d'], by decide, by decide⟩, "a<b", .single⟩], by decide⟩
  short := false
  contents :=
    [.characters "milk & " (by decide), .cdata "eggs" (by decide),
      .aside (.comment " more " (by decide)), .characters "?" (by decide),
      .element ⟨⟨'b', ['r'], by decide, by decide⟩, [], by decide⟩ true []]
  after := []

end Sample

example : Sample.shopping.print = "<?xml version=\"1.0\"?>\n" ++
    "<p id='a&lt;b'>milk &amp; <![CDATA[eggs]]><!-- more -->?<br/></p>" := by
  decide

example : Sample.shopping.tree.children = [.text "milk & eggs?" 0, .element ⟨"br", [], 0⟩ []] := rfl

end Stencil.Markup
