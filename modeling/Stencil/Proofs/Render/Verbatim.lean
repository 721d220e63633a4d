import Mathlib.Data.List.Basic
import Stencil.Proofs.Mustache.Fill
import Stencil.Proofs.Mustache.Segments
import Stencil.Proofs.Render.AsWritten

/-!
# Values as they are

A template of literal text, values, comments and sections is rendered as its nodes say, each value
that is met being written as it is, however it is asked for.

## Main results

* `Mustache.Written.Item.exists_parse`: how such a template is read, and with ampersands put in
* `renderText_print`: how it is rendered
-/

namespace Stencil

namespace Mustache

open Written

/-! ### Reading written templates -/

namespace Written.Item

/-- Induction on items: what holds of a section may be derived from what holds of the items in
it. -/
@[elab_as_elim, induction_eliminator]
theorem induction {motive : Item → Prop}
    (text : ∀ literal, motive (.text literal))
    (comment : ∀ remark, motive (.comment remark))
    (value : ∀ form name margins, motive (.value form name margins))
    (block : ∀ inverted name opening closing body, (∀ item ∈ body, motive item) →
      motive (.block inverted name opening closing body)) :
    ∀ item, motive item
  | .text literal => text literal
  | .comment remark => comment remark
  | .value form name margins => value form name margins
  | .block inverted name opening closing body =>
    block inverted name opening closing body fun item _ =>
      induction text comment value block item

/-- The tags of segments, one after the other. -/
def tagsOf (segments : List Segment) : List Tag := segments.filterMap Segment.tag?

theorem tagsOf_append (segments others : List Segment) :
    tagsOf (segments ++ others) = tagsOf segments ++ tagsOf others := List.filterMap_append

theorem tagsOf_mark (m : Mark) (segments : List Segment) :
    tagsOf (.mark m :: segments) = m.tag :: tagsOf segments := rfl

theorem foldlM_step_of_forall {items : List Item}
    (each : ∀ item ∈ items, ∀ o : Outline,
      (tagsOf item.segments).foldlM Outline.step o = some (o.add item.outline)) (o : Outline) :
    (tagsOf (segmentsAll items)).foldlM Outline.step o = some (o.add (outlineAll items)) := by
  induction items generalizing o with
  | nil => simp [segmentsAll, tagsOf, outlineAll, Outline.add]
  | cons item items ih =>
    obtain ⟨first, others⟩ := List.forall_mem_cons.mp each
    rw [segmentsAll, tagsOf_append, List.foldlM_append, first o, outlineAll, ← Outline.add_add]
    exact ih others _

theorem foldlM_step_segments (item : Item) (o : Outline) :
    (tagsOf item.segments).foldlM Outline.step o = some (o.add item.outline) := by
  induction item generalizing o with
  | text literal | comment remark =>
    rw [outline, Outline.add, List.append_nil]
    rfl
  | value form name margins => rfl
  | block inverted name opening closing body ih =>
    -- Between its two tags, a section collects the outline of its contents on a level of its own.
    have isBody := foldlM_step_of_forall (fun item isMember => ih item isMember)
      ⟨(name.path, inverted, o.nodes) :: o.opened, []⟩
    have opens : o.step (Mark.opening inverted name opening).tag =
        some ⟨(name.path, inverted, o.nodes) :: o.opened, []⟩ := rfl
    have closes : Outline.step ⟨(name.path, inverted, o.nodes) :: o.opened, outlineAll body⟩
          (Mark.closing name closing).tag =
        some (o.add [.block name.path inverted (outlineAll body)]) := if_pos rfl
    have isEnd : (tagsOf [.mark (.closing name closing)]).foldlM Outline.step
          ⟨(name.path, inverted, o.nodes) :: o.opened, outlineAll body⟩ =
        some (o.add [.block name.path inverted (outlineAll body)]) := by
      rw [tagsOf_mark, List.foldlM_cons, closes]
      rfl
    rw [segments, tagsOf_mark, tagsOf_append, List.foldlM_cons, opens, Option.bind_eq_bind,
      Option.bind_some, List.foldlM_append, isBody]
    exact isEnd

/-- The tags of items nest, and add their outline. -/
theorem foldlM_step_segmentsAll (items : List Item) (o : Outline) :
    (tagsOf (segmentsAll items)).foldlM Outline.step o = some (o.add (outlineAll items)) :=
  foldlM_step_of_forall (fun item _ => foldlM_step_segments item) o

theorem scan_chars (items : List Item) :
    Piece.scan (chars items) = (Segment.pieces [] (segmentsAll items), none) :=
  Piece.scanFrom_segments (segmentsAll items) []

theorem scan_verbatim_chars (items : List Item) :
    Piece.scan (verbatim (chars items)) =
      ((Segment.pieces [] (segmentsAll items)).map Piece.unescaped, none) := by
  rw [chars, verbatim_segments, ← pieces_verbatim]
  exact Piece.scanFrom_segments _ []

/-- Written templates include no partials. -/
theorem allInclusions_outlineAll (items : List Item) :
    Node.allInclusions (outlineAll items) = [] := by
  have all (items : List Item)
      (each : ∀ item ∈ items, Node.allInclusions item.outline = []) :
      Node.allInclusions (outlineAll items) = [] := by
    induction items with
    | nil => rfl
    | cons item items ih =>
      obtain ⟨first, others⟩ := List.forall_mem_cons.mp each
      rw [outlineAll, Node.allInclusions_append, first, ih others, List.append_nil]
  have single (item : Item) : Node.allInclusions item.outline = [] := by
    induction item with
    | text literal => rfl
    | comment remark => rfl
    | value form name margins => rfl
    | block inverted name opening closing body ih =>
      rw [outline, Node.allInclusions, Node.inclusions, all body ih]
      rfl
  exact all items fun item _ => single item

/-- A written template is read as nodes with its outline, and with ampersands put in as the same
nodes, none of whose values is escaped. -/
theorem exists_parse (items : List Item) :
    ∃ nodes, Node.parse (print items) = .ok nodes ∧
      Node.outlineAll nodes = outlineAll items ∧
      Node.parse (verbatimTemplate (print items)) = .ok (Node.unescapedAll nodes) := by
  have stepped : ((Segment.pieces [] (segmentsAll items)).filterMap Piece.tag?).foldlM
      Outline.step ({} : Nesting).outline = some ⟨[], outlineAll items⟩ := by
    rw [Segment.filterMap_tag?_pieces]
    exact foldlM_step_segmentsAll items {}
  obtain ⟨n, fed, isOutline⟩ := Nesting.exists_foldlM_feed stepped
  have noneOpen : n.opened = [] := List.map_eq_nil_iff.mp (congrArg Outline.opened isOutline)
  have isParsed : Nesting.ofPieces (Segment.pieces [] (segmentsAll items)) none =
      .ok n.nodes.reverse := by
    rw [Nesting.ofPieces, fed]
    change n.finish = _
    rw [Nesting.finish, noneOpen]
    rfl
  refine ⟨n.nodes.reverse, ?_, congrArg Outline.nodes isOutline, ?_⟩
  · rw [Node.parse, print, String.toList_ofList, scan_chars]
    exact isParsed
  · rw [Node.parse, verbatimTemplate, print, String.toList_ofList, String.toList_ofList,
      scan_verbatim_chars]
    simp only [Nesting.ofPieces_mapEscaped, isParsed]
    rfl

end Written.Item

end Mustache

open Mustache Written

/-- **Values as they are.** A template of literal text, values in any of their three forms, comments
and sections is read as nodes with its outline. If what each value tag that is met names is text,
`null` or nothing, it is rendered, and what comes of it is what comes of the same nodes when no
value is escaped: text stands for itself, a value for its own text, and a section for its contents,
once for each time they are repeated. -/
theorem renderText_print (read : FileReader) (items : List Item) (data : Json)
    (resolves : ∀ stack path escaped,
      Reaches (fun _ => []) [data] (Item.outlineAll items) stack (.value path escaped) →
        IsWritable (path.find? stack)) :
    ∃ nodes, Node.parse (Item.print items) = .ok nodes ∧
      Node.outlineAll nodes = Item.outlineAll items ∧
      Template.render ⟨Node.unescapedAll nodes, []⟩ data = .ok (Node.fillAll [data] nodes) ∧
      renderText read (Item.print items) data = .ok (Node.fillAll [data] nodes) := by
  obtain ⟨nodes, parsed, isOutline, parsedVerbatim⟩ := Item.exists_parse items
  have noInclusions : Node.allInclusions nodes = [] := by
    rw [← Node.allInclusions_outlineAll, isOutline]
    exact Item.allInclusions_outlineAll items
  have writable : ∀ stack path escaped,
      Reaches (fun _ => []) [data] nodes stack (.value path escaped) →
        IsWritable (path.find? stack) := by
    intro stack path escaped reaches
    exact resolves stack path escaped (isOutline ▸ reaches.outlineAll)
  have rendered : Template.render ⟨Node.unescapedAll nodes, []⟩ data =
      .ok (Node.fillAll [data] nodes) := by
    obtain ⟨out, isOut, isText⟩ := Node.writes_fillAll
      (Template.renderPartial ⟨Node.unescapedAll nodes, []⟩ Template.maxDepth) noInclusions
      writable {}
    rw [Template.render, isOut]
    exact congrArg Except.ok (isText.trans String.empty_append)
  refine ⟨nodes, parsed, isOutline, rendered, ?_⟩
  rw [renderText_eq_renderAsWritten, renderAsWritten_of_no_inclusions parsedVerbatim
    ((Node.allInclusions_mapEscapedAll _ nodes).trans noInclusions), rendered]
  rfl

namespace Sample

/-- No blanks around a name. -/
def tight : Margins := ⟨[], [], rfl, rfl⟩

/-- A blank on either side of a name. -/
def spaced : Margins := ⟨[' '], [' '], by decide, by decide⟩

/-- A name of one letter. -/
def letter (c : Char) (plain : isNameChar c = true) : Name :=
  ⟨[c], List.cons_ne_nil c [], by simp [plain]⟩

/-- The template `{{#c}}{{ n }}={{{n}}};{{!c}}{{/ c }}{{^d}}{{&t}}{{/d}}`. -/
def names : List Item :=
  [.block false (letter 'c' (by decide)) tight spaced
    [.value .plain (letter 'n' (by decide)) spaced, .text ⟨['='], by decide⟩,
      .value .braces (letter 'n' (by decide)) tight, .text ⟨[';'], by decide⟩,
      .comment ⟨['c'], by decide, by decide⟩],
    .block true (letter 'd' (by decide)) tight tight
      [.value .ampersand (letter 't' (by decide)) tight]]

/-- The text of this template. -/
def namesText : String :=
  "\x7b\x7b#c\x7d\x7d\x7b\x7b n \x7d\x7d=\x7b\x7b\x7bn\x7d\x7d\x7d;\x7b\x7b!c\x7d\x7d\x7b\x7b/ c \x7d\x7d" ++
    "\x7b\x7b^d\x7d\x7d\x7b\x7b&t\x7d\x7d\x7b\x7b/d\x7d\x7d"

/-- Two names and a text, with characters that HTML has otherwise. -/
def namesData : Json :=
  .object [("c", .array [.object [("n", .string "<b>")], .object [("n", .string "&")]]),
    ("t", .string "'")]

end Sample

/-- Two names and a text are written as they are, however they are asked for. -/
theorem renderText_print_names :
    Item.print Sample.names = Sample.namesText ∧
      (∀ stack path escaped,
        Reaches (fun _ => []) [Sample.namesData] (Item.outlineAll Sample.names) stack
          (.value path escaped) → IsWritable (path.find? stack)) ∧
      renderText (fun _ => .error .missing) (Item.print Sample.names) Sample.namesData =
        .ok "<b>=<b>;&=&;'" := by
  have isText : Item.print Sample.names = Sample.namesText := by decide
  have renderable := (Template.exists_renderAll_eq_ok_iff ⟨[], []⟩ 0
    (Item.outlineAll Sample.names) "" [Sample.namesData] {}).mp ⟨_, rfl⟩
  have resolves := (renderable_iff.mp renderable).1
  obtain ⟨nodes, parsed, -, -, rendered⟩ :=
    renderText_print (fun _ => .error .missing) Sample.names Sample.namesData resolves
  have isParsed : Node.parse (Item.print Sample.names) = .ok
      [.block ["c"] false [.value ["n"] true, .text "=", .value ["n"] false, .text ";"],
        .block ["d"] true [.value ["t"] false]] := by decide +kernel
  obtain rfl := Except.ok.inj (isParsed.symm.trans parsed)
  exact ⟨isText, resolves, rendered.trans (congrArg Except.ok (by decide +kernel))⟩

end Stencil
