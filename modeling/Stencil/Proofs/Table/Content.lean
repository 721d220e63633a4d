import Mathlib.Data.List.Forall2
import Mathlib.Data.Option.Basic
import Stencil.Proofs.Table.Load

/-!
# What a loaded store holds

For every name of a table there is one table in the store, and it is what the first element of that
name describes. Its columns are the names declared in that element, each as it is declared first,
and every row element gives a row that has a value for each of them. Whatever is declared again
leaves no trace in the store.

## Main definitions

* `Row.Reads`: a row has the values that an element gives for columns
* `Table.Reads`: a table is what an element describes

## Main results

* `Schema.load_eq_foldl`, `Store.loadTables_eq_foldl`: loading declares one thing after another
* `Store.load_content`: which tables the store holds
-/

namespace Stencil

open Markup

/-- The column that an element declares, if it declares one. -/
def Markup.Element.column? (col : Element) : Option Column :=
  (col.attribute? "name").map (Column.ofElement · col)

namespace Markup.Element

theorem column?_of_nameless {col : Element} (nameless : col.attribute? "name" = none) :
    col.column? = none := by
  rw [column?, nameless, Option.map_none]

theorem column?_of_named {col : Element} {name : String}
    (named : col.attribute? "name" = some name) : col.column? = some (.ofElement name col) := by
  rw [column?, named, Option.map_some]

end Markup.Element

/-- The row has the line of the element and exactly the given columns, and in each of them the
element's own value, or else the default. -/
structure Row.Reads (declared : List Column) (row : Row) (e : Element) : Prop where
  line : row.line = e.line
  columns : row.columns = declared.map Column.name
  values : ∀ column ∈ declared,
    row.get? column.name = some ((e.attribute? column.name).getD column.default)

/-- The table is what the element describes. Its columns are the names that `col` elements declare,
in the order in which they come first, and the first `col` element of a name decides on the default
and the line. It has a row for each `row` element, in order. -/
structure Table.Reads (table : Table) (e : Element) : Prop where
  name : table.name = e.name
  line : table.line = e.line
  columns : table.columns.toList.map Column.name =
    ((e.elementsNamed "col").filterMap (·.attribute? "name")).eraseDups
  declared : ∀ column ∈ table.columns.toList,
    ∃ col, (e.elementsNamed "col").find? (·.attribute? "name" = some column.name) = some col ∧
      column.default = (col.attribute? "default").getD "" ∧ column.line = col.line
  rows : List.Forall₂ (Row.Reads table.columns.toList) table.rows (e.elementsNamed "row")

/-! ### Loading declares one thing after another -/

theorem Schema.load_eq_foldl (file table : String) (schema : Schema) (cols : List Element) :
    (Schema.load file table schema cols).1 =
      (cols.filterMap Element.column?).foldl Registry.insertNew schema := by
  induction cols generalizing schema with
  | nil => rfl
  | cons col cols ih =>
    rw [load_cons, ih]
    cases named : col.attribute? "name" with
    | none =>
      rw [List.filterMap_cons_none (Element.column?_of_nameless named)]
      simp only [declare, named]
    | some name =>
      rw [List.filterMap_cons_some (Element.column?_of_named named), List.foldl_cons]
      simp only [declare, named]

theorem Store.loadTables_eq_foldl (file : String) (store : Store) (es : List Element) :
    (Store.loadTables file store es).1 =
      (es.map fun e => (Table.load file e).1).foldl Registry.insertNew store := by
  induction es generalizing store with
  | nil => rfl
  | cons e es ih => rw [loadTables_cons, ih, List.map_cons, List.foldl_cons]

/-! ### A table and its rows -/

/-- A resolved row has a value in the columns of its schema: its own, or else the default. -/
theorem Row.get?_resolve (schema : Schema) (own : String → Option String) (line : Nat)
    (column : String) :
    (resolve schema own line).get? column =
      (schema.get? column).map fun declared => (own column).getD declared.default := by
  simp only [get?, resolve, Registry.get?, Registry.toList, Named.name]
  induction schema.entries with
  | nil => rfl
  | cons first rest ih =>
    by_cases same : first.name = column
    · subst same
      simp
    · have other : (column == first.name) = false := beq_false_of_ne (Ne.symm same)
      simp only [List.map_cons, List.lookup_cons, other, ih, List.find?_cons, decide_eq_false same]

theorem Row.reads_resolve {schema : Schema} (distinct : schema.Distinct) (e : Element) :
    Row.Reads schema.toList (resolve schema e.attribute? e.line) e where
  line := rfl
  columns := columns_resolve schema e.attribute? e.line
  values column member := by
    have found : schema.get? column.name = some column := distinct.get?_of_mem member
    rw [get?_resolve, found, Option.map_some]

/-- The first declaration of a column is that of the first element with its name. -/
theorem Column.find?_filterMap_column? (name : String) (cols : List Element) :
    (cols.filterMap Element.column?).find? (Named.name · = name) =
      (cols.find? (·.attribute? "name" = some name)).map (.ofElement name) := by
  induction cols with
  | nil => rfl
  | cons col cols ih =>
    cases named : col.attribute? "name" with
    | none =>
      rw [List.filterMap_cons_none (Element.column?_of_nameless named), List.find?_cons, named]
      exact ih
    | some other =>
      rw [List.filterMap_cons_some (Element.column?_of_named named), List.find?_cons,
        List.find?_cons, named]
      by_cases same : other = name
      · subst same
        simp [Named.name, Column.ofElement]
      · simpa [Named.name, Column.ofElement, same] using ih

/-- A name stands for what it stood for before, or else for the first declaration under it. -/
theorem Schema.get?_load (file table : String) (schema : Schema) (cols : List Element)
    (name : String) :
    (Schema.load file table schema cols).1.get? name =
      (schema.get? name).or
        ((cols.find? (·.attribute? "name" = some name)).map (.ofElement name)) := by
  rw [load_eq_foldl, Registry.get?_foldl_insertNew, Column.find?_filterMap_column?]

/-- A name stands for what it stood for before, or else for the first table that is read under
it. -/
theorem Store.get?_loadTables (file : String) (store : Store) (es : List Element) (name : String) :
    (Store.loadTables file store es).1.get? name =
      (store.get? name).or ((es.find? (·.name = name)).map fun e => (Table.load file e).1) := by
  rw [loadTables_eq_foldl, Registry.get?_foldl_insertNew, List.find?_map]
  rfl

theorem Table.reads_load (file : String) (e : Element) : (Table.load file e).1.Reads e := by
  have columns : (Table.load file e).1.columns =
      .ofList ((e.elementsNamed "col").filterMap Element.column?) :=
    Schema.load_eq_foldl file e.name .empty (e.elementsNamed "col")
  have distinct : (Table.load file e).1.columns.Distinct := by
    rw [columns]
    exact Registry.distinct_ofList _
  refine ⟨rfl, rfl, ?_, fun column member => ?_, ?_⟩
  · have names := Registry.names_ofList ((e.elementsNamed "col").filterMap Element.column?)
    rw [List.map_filterMap] at names
    rw [columns]
    simpa [Element.column?, Named.name, Column.ofElement, Function.comp_def] using names
  · have found : (Table.load file e).1.columns.get? column.name = some column :=
      distinct.get?_of_mem member
    rw [columns, Registry.get?_ofList, Column.find?_filterMap_column?,
      Option.map_eq_some_iff] at found
    obtain ⟨col, first, same⟩ := found
    refine ⟨col, first, ?_, ?_⟩ <;> rw [← same] <;> rfl
  · have rows : (Table.load file e).1.rows = (e.elementsNamed "row").map fun row =>
        Row.resolve (Table.load file e).1.columns row.attribute? row.line := rfl
    rw [rows, List.forall₂_map_left_iff, List.forall₂_same]
    exact fun row _ => Row.reads_resolve distinct row

/-! ### The store -/

/-- **The content of a loaded store.** If a document has a section of tables, the store holds one
table for each name of an element in the first such section. The table is what the first element of
that name describes, and nothing is found under any other name. -/
theorem Store.load_content (file : String) (root : Element) (tables : Element)
    (hasTables : root.element? "tables" = some tables) :
    (Store.load file root).1.toList.map Table.name =
        (tables.elements.map Element.name).eraseDups ∧
      (∀ table ∈ (Store.load file root).1.toList,
        (Store.load file root).1.get? table.name = some table) ∧
      ∀ name, Option.Rel Table.Reads ((Store.load file root).1.get? name)
        (tables.elements.find? (·.name = name)) := by
  have loaded : (Store.load file root).1 =
      .ofList (tables.elements.map fun e => (Table.load file e).1) := by
    simp only [load, hasTables, loadTables_eq_foldl, Registry.ofList]
  rw [loaded]
  refine ⟨?_, fun table member => ?_, fun name => ?_⟩
  · have names := Registry.names_ofList (tables.elements.map fun e => (Table.load file e).1)
    rwa [List.map_map] at names
  · exact (Registry.distinct_ofList _).get?_of_mem member
  · have sameName : (fun e => decide (Named.name (Table.load file e).1 = name)) =
        fun e : Element => decide (e.name = name) := rfl
    rw [Registry.get?_ofList, List.find?_map, Function.comp_def, sameName]
    cases tables.elements.find? fun e => e.name = name with
    | none => exact .none
    | some e => exact .some (Table.reads_load file e)

namespace Sample

/-- An element that declares a column after its rows, another one twice, and one without a name. -/
def sizes : Element :=
  ⟨⟨"Size", [], 3⟩,
    [.element ⟨"row", [("unit", "em"), ("depth", "2")], 4⟩ [],
     .element ⟨"col", [("name", "unit")], 5⟩ [],
     .element ⟨"col", [("default", "lost")], 6⟩ [],
     .element ⟨"row", [("width", "7")], 7⟩ [],
     .element ⟨"col", [("name", "width"), ("default", "1")], 8⟩ [],
     .element ⟨"col", [("name", "unit"), ("default", "px")], 9⟩ []]⟩

/-- A section of tables in which a name comes twice. -/
def repeated : Element :=
  ⟨⟨"tables", [], 2⟩,
    [sizes.toNode, .text "ignored" 10, .element ⟨"Color", [], 11⟩ [],
     .element ⟨"Size", [], 12⟩ [.element ⟨"col", [("name", "depth")], 13⟩ []]]⟩

/-- A document with a second section of tables. -/
def twice : Element :=
  ⟨⟨"root", [], 1⟩,
    [repeated.toNode, .element ⟨"tables", [], 14⟩ [.element ⟨"Late", [], 15⟩ []]]⟩

end Sample

theorem Store.load_content_twice :
    Sample.twice.element? "tables" = some Sample.repeated ∧
      (Store.load "a.xml" Sample.twice).1.toList.map Table.name = ["Size", "Color"] ∧
      (∃ table, (Store.load "a.xml" Sample.twice).1.get? "Size" = some table ∧
        table.Reads Sample.sizes) ∧
      (Store.load "a.xml" Sample.twice).1.get? "Late" = none := by
  have hasTables : Sample.twice.element? "tables" = some Sample.repeated := rfl
  obtain ⟨names, -, reads⟩ := Store.load_content "a.xml" Sample.twice Sample.repeated hasTables
  refine ⟨hasTables, names.trans (by decide), ?_, ?_⟩
  · have first : Sample.repeated.elements.find? (·.name = "Size") = some Sample.sizes := rfl
    have size := reads "Size"
    rw [first] at size
    cases found : (Store.load "a.xml" Sample.twice).1.get? "Size" with
    | none => simp [found] at size
    | some table =>
      rw [found] at size
      cases size with
      | some describes => exact ⟨table, rfl, describes⟩
  · have absent : Sample.repeated.elements.find? (·.name = "Late") = none := rfl
    have late := reads "Late"
    rw [absent] at late
    cases found : (Store.load "a.xml" Sample.twice).1.get? "Late" with
    | none => rfl
    | some table => simp [found] at late

end Stencil
