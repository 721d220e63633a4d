import Mathlib.Logic.Relation
import Stencil.Generate
import Stencil.Proofs.Markup.Children
import Stencil.Proofs.Table.Content

/-!
# The layout of the data

What is generated of a document hangs on its template and on the tags of its tables, columns and
rows; how these are laid out in the document does not matter. Text outside the template says
nothing, nor do elements that are not asked for, nor the contents of columns and rows. A table's
columns may stand among its rows in any way, and the template may stand before the tables.

A document is therefore as good as its bare form, in which nothing but that is left, and an edit of
the layout is one that keeps the bare form.

## Main definitions

* `Markup.Element.bareDocument`: a document with nothing in it but what is looked at
* `Markup.TableEdit`, `Markup.LayoutEdit`: edits of a table and of a document that only change how
  the data is laid out

## Main results

* `Generated.ofDocument_bareDocument`: a document is as good as its bare form
* `Markup.LayoutEdit.bareDocument_eq`: an edit of the layout keeps the bare form
* `Generated.ofDocument_eq_of_layoutEdits`: edits of the layout do not change what is generated
-/

namespace Stencil

open Markup

/-! ### Bare documents -/

namespace Markup.Element

/-- An element without contents. -/
def bare (e : Element) : Element := ⟨e.tag, []⟩

/-- The element of a table with nothing in it but its columns, and after them its rows, all without
contents. -/
def bareTable (e : Element) : Element :=
  ⟨e.tag, ((e.elementsNamed "col" ++ e.elementsNamed "row").map bare).map toNode⟩

/-- A section of tables with nothing in it but bare tables. -/
def bareSection (tables : Element) : Element :=
  ⟨tables.tag, (tables.elements.map bareTable).map toNode⟩

/-- A document with nothing in it but its tables, without contents that are not looked at, and after
them its template. -/
def bareDocument (root : Element) : Element :=
  ⟨root.tag, (((root.element? "tables").map bareSection).toList ++
    (root.element? "gen").toList).map toNode⟩

variable {e root : Element} {name : String}

/-- A bare table has the columns and the rows of the table. -/
theorem elementsNamed_bareTable (isPart : name = "col" ∨ name = "row") :
    e.bareTable.elementsNamed name = (e.elementsNamed name).map bare := by
  have sameName : (fun part : Element => decide (part.bare.name = name)) =
      fun part => decide (part.name = name) := rfl
  rw [bareTable, elementsNamed, elements_map_toNode, List.filter_map, Function.comp_def, sameName,
    List.filter_append, filter_elementsNamed, filter_elementsNamed]
  rcases isPart with rfl | rfl <;> simp

/-- An element of one name is the first of that name, and there is none of another. -/
theorem find?_toList {child : Option Element} (named : ∀ e ∈ child, e.name = name)
    (other : String) :
    child.toList.find? (·.name = other) = if name = other then child else none := by
  cases child with
  | none => simp
  | some e =>
    have isName : e.name = name := named e rfl
    by_cases same : name = other <;> simp [isName, same]

theorem name_of_mem_bareSection :
    ∀ e ∈ (root.element? "tables").map bareSection, e.name = "tables" := by
  intro e member
  obtain ⟨tables, found, rfl⟩ := Option.map_eq_some_iff.mp member
  have isTables : tables.name = "tables" := name_of_element? found
  exact isTables

theorem element?_bareDocument_tables :
    root.bareDocument.element? "tables" = (root.element? "tables").map bareSection := by
  rw [bareDocument, element?, elements_map_toNode, List.find?_append,
    find?_toList name_of_mem_bareSection, find?_toList fun e found => name_of_element? found]
  simp

theorem element?_bareDocument_gen : root.bareDocument.element? "gen" = root.element? "gen" := by
  rw [bareDocument, element?, elements_map_toNode, List.find?_append,
    find?_toList name_of_mem_bareSection, find?_toList fun e found => name_of_element? found]
  simp

end Markup.Element

theorem Schema.load_bare (file table : String) (schema : Schema) (cols : List Element) :
    load file table schema (cols.map Element.bare) = load file table schema cols := by
  induction cols generalizing schema with
  | nil => rfl
  | cons col cols ih =>
    have sameColumn : schema.declare col.bare = schema.declare col := rfl
    have sameProblems : schema.problems file table col.bare = schema.problems file table col := rfl
    rw [List.map_cons, load_cons, load_cons, sameColumn, sameProblems, ih]

theorem Table.load_bareTable (file : String) (e : Element) :
    Table.load file e.bareTable = Table.load file e := by
  have sameName : e.bareTable.name = e.name := rfl
  have sameLine : e.bareTable.line = e.line := rfl
  simp only [Table.load, sameName, sameLine, Element.elementsNamed_bareTable (.inl rfl),
    Element.elementsNamed_bareTable (.inr rfl), Schema.load_bare, List.map_map, List.flatMap_map]
  rfl

theorem Store.loadTables_map_bareTable (file : String) (store : Store) (es : List Element) :
    loadTables file store (es.map Element.bareTable) = loadTables file store es := by
  induction es generalizing store with
  | nil => rfl
  | cons e es ih =>
    rw [List.map_cons, loadTables_cons, loadTables_cons, Table.load_bareTable, ih]

theorem Store.load_bareDocument (file : String) (root : Element) :
    load file root.bareDocument = load file root := by
  have sameLine : root.bareDocument.line = root.line := rfl
  unfold load
  rw [Element.element?_bareDocument_tables, sameLine]
  cases root.element? "tables" with
  | none => rfl
  | some tables =>
    simp only [Option.map_some, Element.bareSection, Element.elements_map_toNode,
      loadTables_map_bareTable]

/-- A document is as good as its bare form. -/
theorem Generated.ofDocument_bareDocument (file : String) (root : Element) :
    ofDocument file root.bareDocument = ofDocument file root := by
  have sameLine : root.bareDocument.line = root.line := rfl
  simp only [ofDocument, Store.load_bareDocument, Element.element?_bareDocument_gen, sameLine]

/-! ### Edits of the layout -/

namespace Markup

/-- The second list of nodes is the first with one more run of text, here or further within. -/
inductive AddsText : List Node → List Node → Prop
  | here (before after : List Node) (value : String) (line : Nat) :
      AddsText (before ++ after) (before ++ .text value line :: after)
  | within (before : List Node) (tag : Tag) (children children' after : List Node)
      (adds : AddsText children children') :
      AddsText (before ++ .element tag children :: after)
        (before ++ .element tag children' :: after)

/-- One edit of a table that only changes how its columns and rows are laid out. -/
inductive TableEdit : Element → Element → Prop
  /-- A node is added that is neither a column nor a row. -/
  | add (tag : Tag) (before : List Node) (node : Node) (after : List Node)
      (isOther : ∀ e, node.element? = some e → e.name ≠ "col" ∧ e.name ≠ "row") :
      TableEdit ⟨tag, before ++ after⟩ ⟨tag, before ++ node :: after⟩
  /-- A column or a row gets other contents. -/
  | fill (tag : Tag) (before : List Node) (part : Tag) (children children' after : List Node)
      (isPart : part.name = "col" ∨ part.name = "row") :
      TableEdit ⟨tag, before ++ .element part children :: after⟩
        ⟨tag, before ++ .element part children' :: after⟩
  /-- The nodes are put in another order, but neither the columns nor the rows are. -/
  | interleave {e e' : Element} (sameTag : e.tag = e'.tag) (reordered : e.children.Perm e'.children)
      (sameCols : e.elementsNamed "col" = e'.elementsNamed "col")
      (sameRows : e.elementsNamed "row" = e'.elementsNamed "row") : TableEdit e e'

/-- One edit of a document that only changes how its data is laid out. -/
inductive LayoutEdit : Element → Element → Prop
  /-- A node is added to the root that is neither the section of tables nor the template. -/
  | add (tag : Tag) (before : List Node) (node : Node) (after : List Node)
      (sameTables : (⟨tag, before ++ node :: after⟩ : Element).element? "tables" =
        (⟨tag, before ++ after⟩ : Element).element? "tables")
      (sameTemplate : (⟨tag, before ++ node :: after⟩ : Element).element? "gen" =
        (⟨tag, before ++ after⟩ : Element).element? "gen") :
      LayoutEdit ⟨tag, before ++ after⟩ ⟨tag, before ++ node :: after⟩
  /-- The nodes of the root are put in another order, with the same section of tables and the same
  template. -/
  | move {root root' : Element} (sameTag : root.tag = root'.tag)
      (reordered : root.children.Perm root'.children)
      (sameTables : root.element? "tables" = root'.element? "tables")
      (sameTemplate : root.element? "gen" = root'.element? "gen") : LayoutEdit root root'
  /-- A run of text is added somewhere within a child of the root that is not the template. -/
  | text (tag : Tag) (before : List Node) (child : Tag) (children children' after : List Node)
      (adds : AddsText children children')
      (notTemplate : child.name = "gen" → ((⟨tag, before⟩ : Element).element? "gen").isSome) :
      LayoutEdit ⟨tag, before ++ .element child children :: after⟩
        ⟨tag, before ++ .element child children' :: after⟩
  /-- One of the tables in a section of tables is edited. -/
  | table (tag : Tag) (before : List Node) (tables : Tag) (above : List Node) (e e' : Element)
      (below after : List Node) (isTables : tables.name = "tables") (edit : TableEdit e e') :
      LayoutEdit ⟨tag, before ++ .element tables (above ++ e.toNode :: below) :: after⟩
        ⟨tag, before ++ .element tables (above ++ e'.toNode :: below) :: after⟩

namespace Element

variable {e e' : Element}

theorem map_bare_elementsNamed (e : Element) (name : String) :
    (e.elementsNamed name).map bare = (e.elements.map bare).filter (·.name = name) := by
  rw [elementsNamed, List.filter_map]
  rfl

theorem bareTable_eq (sameTag : e.tag = e'.tag)
    (sameCols : (e.elementsNamed "col").map bare = (e'.elementsNamed "col").map bare)
    (sameRows : (e.elementsNamed "row").map bare = (e'.elementsNamed "row").map bare) :
    e.bareTable = e'.bareTable := by
  simp only [bareTable, List.map_append, sameTag, sameCols, sameRows]

theorem bareTable_of_map_bare (sameTag : e.tag = e'.tag)
    (same : e.elements.map bare = e'.elements.map bare) : e.bareTable = e'.bareTable := by
  apply bareTable_eq sameTag <;> rw [map_bare_elementsNamed, map_bare_elementsNamed, same]

end Element

open Element

theorem AddsText.map_bare_elements {children children' : List Node}
    (adds : AddsText children children') (tag : Tag) :
    (elements ⟨tag, children⟩).map bare = (elements ⟨tag, children'⟩).map bare := by
  cases adds with
  | here before after value line =>
    rw [elements_append_cons, elements_append, Node.element?, Option.toList_none, List.nil_append]
  | within before inner children children' after adds =>
    simp [elements_append_cons, Node.element?, bare]

/-- Text within a table leaves its columns and rows, of which only the contents may change. -/
theorem AddsText.map_bareTable_elements {children children' : List Node}
    (adds : AddsText children children') (tag : Tag) :
    (elements ⟨tag, children⟩).map bareTable = (elements ⟨tag, children'⟩).map bareTable := by
  cases adds with
  | here before after value line =>
    rw [elements_append_cons, elements_append, Node.element?, Option.toList_none, List.nil_append]
  | within before table children children' after adds =>
    have sameTable : bareTable ⟨table, children⟩ = bareTable ⟨table, children'⟩ :=
      bareTable_of_map_bare rfl (adds.map_bare_elements table)
    simp [elements_append_cons, Node.element?, sameTable]

theorem TableEdit.map_bare_elementsNamed {e e' : Element} (edit : TableEdit e e') {name : String}
    (isPart : name = "col" ∨ name = "row") :
    (e.elementsNamed name).map bare = (e'.elementsNamed name).map bare := by
  cases edit with
  | add tag before node after isOther =>
    rw [elementsNamed, elementsNamed, elements_append_cons, elements_append]
    cases found : node.element? with
    | none => simp
    | some other =>
      have notPart : other.name ≠ name := by
        obtain ⟨notCol, notRow⟩ := isOther other found
        rcases isPart with rfl | rfl <;> assumption
      simp [notPart]
  | fill tag before part children children' after isPart =>
    -- The two elements have the same bare form, whatever they are named.
    simp [Element.map_bare_elementsNamed, elements_append_cons, Node.element?, bare]
  | interleave sameTag reordered sameCols sameRows =>
    rcases isPart with rfl | rfl
    · rw [sameCols]
    · rw [sameRows]

theorem TableEdit.bareTable_eq {e e' : Element} (edit : TableEdit e e') :
    e.bareTable = e'.bareTable := by
  have sameTag : e.tag = e'.tag := by
    cases edit with
    | interleave sameTag => exact sameTag
    | _ => rfl
  exact Element.bareTable_eq sameTag (edit.map_bare_elementsNamed (.inl rfl))
    (edit.map_bare_elementsNamed (.inr rfl))

/-- An edit of the layout keeps the bare form. -/
theorem LayoutEdit.bareDocument_eq {root root' : Element} (edit : LayoutEdit root root') :
    root.bareDocument = root'.bareDocument := by
  suffices same : root.tag = root'.tag ∧
      (root.element? "tables").map bareSection = (root'.element? "tables").map bareSection ∧
      root.element? "gen" = root'.element? "gen" by
    obtain ⟨sameTag, sameTables, sameTemplate⟩ := same
    rw [bareDocument, bareDocument, sameTag, sameTables, sameTemplate]
  cases edit with
  | add tag before node after sameTables sameTemplate =>
    exact ⟨rfl, by rw [sameTables], sameTemplate.symm⟩
  | move sameTag reordered sameTables sameTemplate =>
    exact ⟨sameTag, by rw [sameTables], sameTemplate⟩
  | text tag before child children children' after adds notTemplate =>
    have sameSection : bareSection ⟨child, children⟩ = bareSection ⟨child, children'⟩ := by
      rw [bareSection, bareSection, adds.map_bareTable_elements child]
    refine ⟨rfl, map_element?_append_cons sameSection, ?_⟩
    -- A child named as the template is gets text only if the template stands before it.
    by_cases isGen : child.name = "gen"
    · have earlier := notTemplate isGen
      rw [element?_append_cons_of_isSome earlier, element?_append_cons_of_isSome earlier]
    · exact element?_append_cons_of_ne isGen
  | table tag before tables above e e' below after isTables edit =>
    have sameSection : bareSection ⟨tables, above ++ e.toNode :: below⟩ =
        bareSection ⟨tables, above ++ e'.toNode :: below⟩ := by
      simp [bareSection, elements_append_cons, toNode, Node.element?, edit.bareTable_eq]
    have notTemplate : tables.name ≠ "gen" := by
      rw [isTables]
      decide
    exact ⟨rfl, map_element?_append_cons sameSection, element?_append_cons_of_ne notTemplate⟩

end Markup

/-- The layout of the data does not matter: what is generated of a document is the same after any
number of edits that only change how its data is laid out, and after any such edits are undone. -/
theorem Generated.ofDocument_eq_of_layoutEdits {root root' : Element} (file : String)
    (edited : Relation.EqvGen LayoutEdit root root') :
    ofDocument file root = ofDocument file root' := by
  have sameBare : root.bareDocument = root'.bareDocument := by
    induction edited with
    | rel root root' edit => exact edit.bareDocument_eq
    | refl root => rfl
    | symm root root' edited ih => exact ih.symm
    | trans root root' root'' edited edited' ih ih' => exact ih.trans ih'
  rw [← ofDocument_bareDocument, sameBare, ofDocument_bareDocument]

namespace Sample

/-- A template that writes a word and then the cells of a column. -/
def hues : Node :=
  .element ⟨"gen", [], 8⟩
    [.text "enum" 8,
     .element ⟨"expand", [("table", "Hue"), ("var", "h")], 9⟩
      [.element ⟨"var", [("name", "h"), ("col", "id")], 10⟩ []]]

/-- The table that the template asks for, with the given parts. -/
def hue (parts : List Node) : Element := ⟨⟨"Hue", [], 3⟩, parts⟩

/-- The declaration of its column, with the given contents. -/
def hueCol (contents : List Node) : Node := .element ⟨"col", [("name", "id")], 4⟩ contents

/-- Its only row. -/
def hueRow : Node := .element ⟨"row", [("id", "Red")], 5⟩ []

/-- A document that ends with its section of tables. -/
def laidOut (above contents : List Node) : Element :=
  ⟨⟨"root", [], 1⟩, above ++ [.element ⟨"tables", [], 2⟩ contents]⟩

/-- A document in which the columns stand before the rows and the tables before the template. -/
def sorted : Element :=
  ⟨⟨"root", [], 1⟩, [.element ⟨"tables", [], 2⟩ [(hue [hueCol [], hueRow]).toNode], hues]⟩

/-- The same data laid out differently, with a word on it here and there. -/
def scattered : Element :=
  laidOut [hues, .element ⟨"note", [], 12⟩ []]
    [.text "the hues" 3,
     (hue [hueRow, hueCol [.text "a name" 4], .element ⟨"remark", [], 6⟩ []]).toNode]

/-- An edit of the table is one of a document that has no other. -/
theorem laidOut_edit {parts parts' : List Node} (edit : TableEdit (hue parts) (hue parts')) :
    LayoutEdit (laidOut [hues] [(hue parts).toNode]) (laidOut [hues] [(hue parts').toNode]) :=
  .table ⟨"root", [], 1⟩ [hues] ⟨"tables", [], 2⟩ [] (hue parts) (hue parts') [] [] rfl edit

end Sample

open Sample

theorem Generated.ofDocument_eq_of_layoutEdits_scattered :
    Relation.EqvGen LayoutEdit sorted scattered ∧
      ofDocument "a.xml" scattered = { header := "enumRed", source := "enumRed" } := by
  let named : Node := hueCol [.text "a name" 4]
  let remark : Node := .element ⟨"remark", [], 6⟩ []
  let note : Node := .element ⟨"note", [], 12⟩ []
  have swapped : LayoutEdit sorted (laidOut [hues] [(hue [hueCol [], hueRow]).toNode]) :=
    .move rfl (.swap _ _ _) rfl rfl
  have interleaved : TableEdit (hue [hueCol [], hueRow]) (hue [hueRow, hueCol []]) :=
    .interleave rfl (.swap _ _ _) rfl rfl
  have filled : TableEdit (hue [hueRow, hueCol []]) (hue [hueRow, named]) :=
    .fill _ [hueRow] ⟨"col", [("name", "id")], 4⟩ [] [.text "a name" 4] [] (.inl rfl)
  have remarked : TableEdit (hue [hueRow, named]) (hue [hueRow, named, remark]) :=
    .add _ [hueRow, named] remark [] (by simp [remark, Node.element?, Element.name])
  have noted : LayoutEdit (laidOut [hues] [(hue [hueRow, named, remark]).toNode])
      (laidOut [hues, note] [(hue [hueRow, named, remark]).toNode]) :=
    .add _ [hues] note _ rfl rfl
  have worded : LayoutEdit (laidOut [hues, note] [(hue [hueRow, named, remark]).toNode])
      scattered :=
    .text _ [hues, note] _ _ _ [] (.here [] _ "the hues" 3) (by decide)
  have edited : Relation.EqvGen LayoutEdit sorted scattered :=
    .trans _ _ _ (.rel _ _ swapped) <|
      .trans _ _ _ (.rel _ _ (laidOut_edit interleaved)) <|
      .trans _ _ _ (.rel _ _ (laidOut_edit filled)) <|
      .trans _ _ _ (.rel _ _ (laidOut_edit remarked)) <|
      .trans _ _ _ (.rel _ _ noted) (.rel _ _ worded)
  exact ⟨edited, (ofDocument_eq_of_layoutEdits "a.xml" edited).symm.trans (by decide)⟩

end Stencil
