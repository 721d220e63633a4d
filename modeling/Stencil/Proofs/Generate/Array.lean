import Stencil.Proofs.Markup.Children
import Stencil.Proofs.Markup.RoundTrip
import Stencil.Proofs.Table.Content
import Stencil.Proofs.Template.Plan
import Stencil.Proofs.Text.Literal

/-!
# Arrays of literals

Values that are written into a document as the rows of a table of one column can be put into an
array of string literals. On their way they are escaped in the markup, decoded by the parser, looked
up in the rows of the table, quoted, and separated by commas. Whatever characters they are made of,
a reader of the array gets back the values, in order and neither run together nor split.

## Main definitions

* `ArrayDocument`: the document, and the ways in which it may be written
* `ArrayDocument.tree`: its tree

## Main results

* `ArrayDocument.yieldNode_array`: what its template yields
* `Generated.ofDocument_arrayDocument`: what comes of its text, and what is read from that
-/

namespace Stencil

open Markup Markup.Written

/-! ### Text for the source alone -/

namespace Generated

/-- The result that writes a text to the source. -/
def ofSource (text : String) : Generated := { source := text }

theorem intersperse_ofSource (separator : String) (texts : List String) :
    intersperse (ofSource separator) (texts.map ofSource) =
      ofSource (separator.intercalate texts) := by
  induction texts with
  | nil => rfl
  | cons text texts ih =>
    cases texts with
    | nil => rfl
    | cons next texts =>
      rw [List.map_cons, List.map_cons, intersperse_cons_cons, ← List.map_cons, ih,
        String.intercalate_cons_cons]
      ext1
      · rfl
      · simp [ofSource, String.append_assoc]
      · rfl

end Generated

theorem Scope.written_of_sourceOnly {scope : Scope} (sourceOnly : scope.target = .sourceOnly)
    (text : String) : scope.written text = .ofSource text := by
  simp [written, sourceOnly, Target.writesHeader, Target.writesSource, Generated.ofSource]

/-! ### The document -/

namespace Markup.Written.Name

/-- The name of the section of tables. -/
def tables : Name := ⟨'t', ['a', 'b', 'l', 'e', 's'], by decide, by decide⟩

/-- The name of a declaration of a column. -/
def col : Name := ⟨'c', ['o', 'l'], by decide, by decide⟩

/-- The name of a row. -/
def row : Name := ⟨'r', ['o', 'w'], by decide, by decide⟩

/-- The name of the template. -/
def gen : Name := ⟨'g', ['e', 'n'], by decide, by decide⟩

/-- The name of the directive that makes an array. -/
def expandData : Name :=
  ⟨'e', ['x', 'p', 'a', 'n', 'd', '_', 'd', 'a', 't', 'a'], by decide, by decide⟩

/-- The name of the directive that writes a value, and of the attribute that binds a variable. -/
def var : Name := ⟨'v', ['a', 'r'], by decide, by decide⟩

/-- The name of the attribute that gives a name. -/
def name : Name := ⟨'n', ['a', 'm', 'e'], by decide, by decide⟩

/-- The name of the attribute that refers to a table. -/
def table : Name := ⟨'t', ['a', 'b', 'l', 'e'], by decide, by decide⟩

/-- The name of the attribute that asks for a transform. -/
def transform : Name :=
  ⟨'t', ['r', 'a', 'n', 's', 'f', 'o', 'r', 'm'], by decide, by decide⟩

end Markup.Written.Name

/-- A document that declares a table of one column with a row for each value, and asks for an array
of their literals; with the ways in which it may be written. -/
structure ArrayDocument where
  root : Name
  table : Name
  column : Name
  array : String
  binder : String
  values : List String
  /-- The quotes around every value of an attribute. -/
  quote : Quote
  /-- Whether an element with nothing in it is closed by its only tag. -/
  short : Bool
  /-- What stands before the root. -/
  before : List Outside
  /-- What stands after the root. -/
  after : List Outside

namespace ArrayDocument

variable (d : ArrayDocument)

/-- A row that gives a value. -/
def row (value : String) : Content :=
  .element ⟨.row, [⟨d.column, value, d.quote⟩], List.nodup_singleton _⟩ d.short []

/-- What is in the table: its column, and then its rows. -/
def declarations : List Content :=
  .element ⟨.col, [⟨.name, d.column.text, d.quote⟩], List.nodup_singleton _⟩ d.short [] ::
    d.values.map d.row

/-- The section with the table. -/
def tables : Content :=
  .element ⟨.tables, [], List.nodup_nil⟩ d.short
    [.element ⟨d.table, [], List.nodup_nil⟩ d.short d.declarations]

/-- The template: an array with the literal of the column's value for every row. -/
def gen : Content :=
  .element ⟨.gen, [], List.nodup_nil⟩ d.short
    [.element ⟨.expandData, [⟨.name, d.array, d.quote⟩, ⟨.table, d.table.text, d.quote⟩,
        ⟨.var, d.binder, d.quote⟩], by simp [Name.chars, Name.name, Name.table, Name.var]⟩ d.short
      [.element ⟨.var, [⟨.name, d.binder, d.quote⟩, ⟨.col, d.column.text, d.quote⟩,
          ⟨.transform, "string", d.quote⟩],
          by simp [Name.chars, Name.name, Name.col, Name.transform]⟩ d.short []]]

/-- The document as it is written. -/
def written : Document where
  before := d.before
  tag := ⟨d.root, [], List.nodup_nil⟩
  short := d.short
  contents := [d.tables, d.gen]
  after := d.after

/-! ### Its tree -/

/-- The element of a row. -/
def rowElement (value : String) : Element := ⟨⟨"row", [(d.column.text, value)], 0⟩, []⟩

/-- The element of the column. -/
def colElement : Element := ⟨⟨"col", [("name", d.column.text)], 0⟩, []⟩

/-- The element of the table. -/
def tableElement : Element :=
  ⟨⟨d.table.text, [], 0⟩, (d.colElement :: d.values.map d.rowElement).map Element.toNode⟩

/-- The tag of the array. -/
def arrayTag : Tag :=
  ⟨"expand_data", [("name", d.array), ("table", d.table.text), ("var", d.binder)], 0⟩

/-- The tag of the value. -/
def valueTag : Tag :=
  ⟨"var", [("name", d.binder), ("col", d.column.text), ("transform", "string")], 0⟩

/-- The tree of the document. -/
def tree : Element :=
  ⟨⟨d.root.text, [], 0⟩,
    [.element ⟨"tables", [], 0⟩ [d.tableElement.toNode],
     .element ⟨"gen", [], 0⟩ [.element d.arrayTag [.element d.valueTag []]]]⟩

/-- Elements stay apart. -/
theorem joinTexts_map_toNode (es : List Element) :
    joinTexts (es.map Element.toNode) = es.map Element.toNode := by
  induction es with
  | nil => rfl
  | cons e es ih =>
    have isElement : HasText.text? e.toNode = none := rfl
    rw [List.map_cons, joinTexts, ih]
    cases es with
    | nil => rfl
    | cons next es => exact congrArg (· ++ _) (meet_of_left isElement)

theorem nodesAll_declarations :
    Content.nodesAll d.declarations =
      (d.colElement :: d.values.map d.rowElement).map Element.toNode := by
  have rows (values : List String) :
      Content.nodesAll (values.map d.row) = (values.map d.rowElement).map Element.toNode := by
    induction values with
    | nil => rfl
    | cons value values ih =>
      rw [List.map_cons, Content.nodesAll, ih]
      rfl
  rw [declarations, Content.nodesAll, rows]
  rfl

theorem tree_written : d.written.tree = d.tree := by
  have declared : joinTexts (Content.nodesAll d.declarations) = d.tableElement.children := by
    rw [nodesAll_declarations, joinTexts_map_toNode]
    rfl
  have tables : d.tables.nodes = [.element ⟨"tables", [], 0⟩ [d.tableElement.toNode]] := by
    rw [ArrayDocument.tables, Content.nodes, Content.nodesAll, Content.nodesAll, Content.nodes,
      declared]
    rfl
  have contents : Content.nodesAll d.written.contents = d.tables.nodes ++ (d.gen.nodes ++ []) := rfl
  rw [Document.tree, contents, tables]
  rfl

variable {d}

/-! ### Its data -/

section Data

variable {file : String} {e root : Element}

theorem elements_tableElement :
    d.tableElement.elements = d.colElement :: d.values.map d.rowElement :=
  Element.elements_map_toNode _ _

theorem elementsNamed_col : d.tableElement.elementsNamed "col" = [d.colElement] := by
  rw [Element.elementsNamed, elements_tableElement]
  simp [Element.name, colElement, rowElement]

theorem elementsNamed_row : d.tableElement.elementsNamed "row" = d.values.map d.rowElement := by
  rw [Element.elementsNamed, elements_tableElement]
  simp [Element.name, colElement, rowElement]

/-- The one column is declared, and nothing is wrong with that. -/
theorem exists_load_columns (file : String) (isTable : e.unlined = d.tableElement) :
    ∃ col, Schema.load file e.name .empty (e.elementsNamed "col") =
      (⟨[.ofElement d.column.text col]⟩, []) := by
  have cols : (e.elementsNamed "col").map Element.unlined = [d.colElement] := by
    rw [← Element.elementsNamed_unlined, isTable, elementsNamed_col]
  obtain ⟨col, isSingleton, isCol⟩ := List.map_eq_singleton_iff.mp cols
  have named : col.attribute? "name" = some d.column.text := by
    rw [← Element.attribute?_unlined, isCol]
    rfl
  refine ⟨col, ?_⟩
  rw [isSingleton, Schema.load_cons_of_free named rfl]
  rfl

/-- Every row gives its value for the column, and no other. -/
theorem attributes_of_unlined_eq {row : Element} {value : String}
    (isRow : row.unlined = d.rowElement value) :
    row.tag.attributes = [(d.column.text, value)] :=
  congrArg (·.tag.attributes) isRow

/-- Nothing is reported of the table, and its rows have the values in the column. -/
theorem load_table (file : String) (isTable : e.unlined = d.tableElement) :
    (Table.load file e).2 = [] ∧
      List.Forall₂ (fun row value => row.get? d.column.text = some value)
        (Table.load file e).1.rows d.values := by
  obtain ⟨col, columns⟩ := exists_load_columns file isTable
  have rows : (e.elementsNamed "row").map Element.unlined = d.values.map d.rowElement := by
    rw [← Element.elementsNamed_unlined, isTable, elementsNamed_row]
  -- A row has the one attribute that the column is declared for, so none of its values is ignored.
  simp only [Table.load, columns, List.nil_append]
  constructor
  · rw [List.flatMap_eq_nil_iff]
    intro row member
    obtain ⟨value, -, isRow⟩ := List.mem_map.mp (rows ▸ List.mem_map_of_mem member)
    rw [Row.ignored, attributes_of_unlined_eq isRow.symm]
    simp [Registry.contains, Named.name, Column.ofElement]
  · have pairs : List.Forall₂ Eq ((e.elementsNamed "row").map Element.unlined)
        (d.values.map d.rowElement) := by
      rw [List.forall₂_eq_eq_eq]
      exact rows
    rw [List.forall₂_map_left_iff, List.forall₂_map_right_iff] at pairs
    rw [List.forall₂_map_left_iff]
    refine pairs.imp fun row value isRow => ?_
    have own : row.attribute? d.column.text = some value := by
      rw [Element.attribute?, Tag.attribute?, attributes_of_unlined_eq isRow]
      simp
    rw [Row.get?_resolve, own]
    simp [Registry.get?, Named.name, Column.ofElement]

/-- Nothing is reported of the data of the document, and the table is stored. -/
theorem load_root (file : String) (isRoot : root.unlined = d.tree) :
    (Store.load file root).2 = [] ∧
      ∃ table, (Store.load file root).1.get? d.table.text = some table ∧
        List.Forall₂ (fun row value => row.get? d.column.text = some value) table.rows
          d.values := by
  have found : (root.element? "tables").map Element.unlined =
      some ⟨⟨"tables", [], 0⟩, [d.tableElement.toNode]⟩ := by
    rw [← Element.element?_unlined, isRoot]
    rfl
  obtain ⟨tables, hasTables, isTables⟩ := Option.map_eq_some_iff.mp found
  have elements : tables.elements.map Element.unlined = [d.tableElement] := by
    rw [← Element.elements_unlined, isTables]
    rfl
  obtain ⟨e, isSingleton, isTable⟩ := List.map_eq_singleton_iff.mp elements
  obtain ⟨silent, rows⟩ := load_table file isTable
  have loads : Store.load file root = (⟨[(Table.load file e).1]⟩, []) := by
    have free : (Registry.empty : Store).contains e.name = false := rfl
    simp only [Store.load, hasTables, isSingleton, Store.loadTables_cons_of_free free, silent]
    rfl
  have sameName : (Table.load file e).1.name = d.table.text :=
    congrArg (·.tag.name) isTable
  rw [loads]
  refine ⟨rfl, (Table.load file e).1, ?_, rows⟩
  simp [Registry.get?, Named.name, sameName]

end Data

/-! ### Its template -/

section Template

open Template

variable {store : Store} {scope : Scope} {table : Table} {row : Row} {tag inner : Tag}
  {value : String} {nodes : List Node}

/-- The literal of a value is written where the variable stands for a row that has the value. -/
theorem yieldNode_value (file : String) (store : Store) (isInner : inner.unlined = d.valueTag)
    (sourceOnly : scope.target = .sourceOnly)
    (bound : scope.lookup d.binder = some ⟨table.name, row⟩)
    (found : row.get? d.column.text = some value) :
    yieldNode file store scope (.element inner []) = .ofSource (Text.quote value) := by
  have gives (key : String) : inner.attribute? key = d.valueTag.attribute? key := by
    rw [← isInner]
    rfl
  have isName : inner.name = "var" := congrArg Tag.name isInner
  have directive : Directive.ofTag? inner.name = some .var := by
    rw [isName]
    rfl
  have planned : plan store scope inner =
      .ok (.writeValue (inner.transformed value) inner.unknownTransform?) :=
    plan_eq_ok_iff.mpr (.var directive (gives "name") bound (gives "col") found)
  have isString : inner.transform? = some .string := by
    rw [Tag.transform?, gives]
    rfl
  have transformed : inner.transformed value = Text.quote value := by
    simp only [Tag.transformed, isString, Transform.apply]
  have known : inner.unknownTransform? = none := by
    simp only [Tag.unknownTransform?, isString]
  rw [yieldNode_of_planned planned, Action.fill_writeValue, transformed, known, Action.before,
    scope.written_of_sourceOnly sourceOnly]

/-- The array is declared in the header with as many items as there are values, and their literals
stand between braces in the source. -/
theorem yieldNode_array (file : String) (isTag : tag.unlined = d.arrayTag)
    (isInner : inner.unlined = d.valueTag) (stored : store.get? d.table.text = some table)
    (rows : List.Forall₂ (fun row value => row.get? d.column.text = some value) table.rows
      d.values) :
    yieldNode file store {} (.element tag [.element inner []]) =
      { header := arrayDeclaration d.array d.values.length
        source := arrayStart d.array d.values.length ++
          (", ".intercalate (d.values.map Text.quote) ++ blockEnd) } := by
  have gives (key : String) : tag.attribute? key = d.arrayTag.attribute? key := by
    rw [← isTag]
    rfl
  have isName : tag.name = "expand_data" := congrArg Tag.name isTag
  have directive : Directive.ofTag? tag.name = some .expandData := by
    rw [isName]
    rfl
  have planned : plan store {} tag = .ok (.array d.array table d.binder) :=
    plan_eq_ok_iff.mpr (.expandData directive (gives "name") (gives "table") stored (gives "var"))
  -- Each row yields the literal of its value.
  have items : (table.rows.map fun row => yield file store
      (((Scope.onlySource {}).withSeparator itemSeparator).bind d.binder table.name row)
        [.element inner []]) = (d.values.map Text.quote).map Generated.ofSource := by
    rw [← List.forall₂_eq_eq_eq, List.map_map, List.forall₂_map_left_iff,
      List.forall₂_map_right_iff]
    refine rows.imp fun row value found => ?_
    have bound : (((Scope.onlySource {}).withSeparator itemSeparator).bind d.binder table.name
        row).lookup d.binder = some ⟨table.name, row⟩ := by
      rw [Scope.lookup_bind, if_pos rfl]
    rw [yield_cons, yield_nil, Generated.append_empty,
      yieldNode_value file store isInner rfl bound found]
    rfl
  have separator : (Scope.onlySource {}).written itemSeparator = .ofSource ", " := rfl
  rw [yieldNode_of_planned planned, Action.fill_array, items, separator,
    Generated.intersperse_ofSource, Action.before, rows.length_eq]
  rw [Scope.written_onlyHeader, Scope.written_onlySource, Scope.written_onlySource]
  ext1
  · simp [Generated.ofSource]
  · simp [Generated.ofSource]
  · rfl

/-- The template of the document. -/
theorem exists_template {root : Element} (isRoot : root.unlined = d.tree) :
    ∃ template tag inner, root.element? "gen" = some template ∧
      template.children = [.element tag [.element inner []]] ∧ tag.unlined = d.arrayTag ∧
        inner.unlined = d.valueTag := by
  -- The tree that was read has other lines, but its nodes are those of the template one by one.
  have found : (root.element? "gen").map Element.unlined =
      some ⟨⟨"gen", [], 0⟩, [.element d.arrayTag [.element d.valueTag []]]⟩ := by
    rw [← Element.element?_unlined, isRoot]
    rfl
  obtain ⟨template, hasTemplate, isTemplate⟩ := Option.map_eq_some_iff.mp found
  have children : template.children.map Node.unlined =
      [.element d.arrayTag [.element d.valueTag []]] := by
    rw [← Element.children_unlined, isTemplate]
  obtain ⟨node, isSingleton, isNode⟩ := List.map_eq_singleton_iff.mp children
  obtain ⟨tag, contents, rfl, isTag, isContents⟩ := Node.exists_of_unlined_eq_element isNode
  obtain ⟨child, rfl, isChild⟩ := List.map_eq_singleton_iff.mp isContents
  obtain ⟨inner, nothing, rfl, isInner, isNothing⟩ := Node.exists_of_unlined_eq_element isChild
  obtain rfl := List.map_eq_nil_iff.mp isNothing
  exact ⟨template, tag, inner, hasTemplate, isSingleton, isTag, isInner⟩

end Template

end ArrayDocument

/-- **Arrays hold what was written.** The text of a document that declares a table of one column
with a row for each value, and asks for an array of their literals, is accepted. Nothing is reported
of it. The header declares an array of as many items as there are values, and the source defines it
with that size. A reader of the literals between the braces gets back the values, in order. -/
theorem Generated.ofDocument_arrayDocument (file : String) (d : ArrayDocument) :
    ∃ root items, Element.parse d.written.print = .ok root ∧
      (ofDocument file root).success = true ∧ (ofDocument file root).diagnostics = [] ∧
      (ofDocument file root).header = s!"extern {d.array}[{d.values.length}];\n" ∧
      (ofDocument file root).source =
        s!"{d.array}[{d.values.length}] = " ++ "\x7b\n" ++ items ++ "\n\x7d;\n" ∧
      Text.readItems? items = some d.values := by
  obtain ⟨root, parsed, sameTree⟩ :=
    Nesting.builds_document d.written (LineIndex.ofText d.written.chars) 0 {} rfl
  have isRoot : root.unlined = d.tree := sameTree.trans d.tree_written
  obtain ⟨silent, table, stored, rows⟩ := ArrayDocument.load_root file isRoot
  obtain ⟨template, tag, inner, hasTemplate, isChildren, isTag, isInner⟩ :=
    ArrayDocument.exists_template isRoot
  have yields := ArrayDocument.yieldNode_array file isTag isInner stored rows
  have isResult : ofDocument file root =
      { header := Template.arrayDeclaration d.array d.values.length
        source := Template.arrayStart d.array d.values.length ++
          (", ".intercalate (d.values.map Text.quote) ++ Template.blockEnd) } := by
    simp only [ofDocument, hasTemplate, Template.run_eq_yield, isChildren, Template.yield_cons,
      Template.yield_nil, append_empty, yields, silent, List.append_nil]
  refine ⟨root, ", ".intercalate (d.values.map Text.quote), ?_, ?_⟩
  · rw [Element.parse_print_eq_readFrom, parsed]
  · rw [isResult]
    refine ⟨rfl, rfl, rfl, ?_, Text.readItems?_intercalate d.values⟩
    simp only [Template.arrayStart, Template.blockEnd, String.append_assoc]

end Stencil
