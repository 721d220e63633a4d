import Stencil.Proofs.Table.Content

/-!
# Loading more than before

A section of tables can be extended in two ways: a table gets one more column, declared anywhere
among what is in its element, or the section gets one more table. Either leaves everything else that
is loaded as it was. The rows of a table with a new column have one more value, and whatever it
stands for was ignored before, if it was given at all; so it is no longer reported as ignored.

## Main definitions

* `Row.Within`, `Table.Within`, `Store.Within`: more data than before
* `Store.WithinOn`: the same for some of the names, absent tables included
* `ColumnInsertion`, `TableInsertion`: a section, and the section with a column or a table more

## Main results

* `Store.WithinOn.loadTables`: what is loaded after more data is reported in the same way
* `ColumnInsertion.loadTables`, `TableInsertion.loadTables`: what the extensions come to
-/

namespace Stencil

open Markup

/-! ### More data -/

/-- Whatever value the row has in a column, the other row has there. -/
def Row.Within (row row' : Row) : Prop :=
  ∀ column value, row.get? column = some value → row'.get? column = some value

/-- The tables have the same name and stand on the same line, and each row of the one is within that
of the other. -/
structure Table.Within (table table' : Table) : Prop where
  name : table.name = table'.name
  line : table.line = table'.line
  rows : List.Forall₂ Row.Within table.rows table'.rows

/-- Every table of the store is within one of the other store, under the same name. -/
def Store.Within (store store' : Store) : Prop :=
  ∀ name table, store.get? name = some table →
    ∃ table', store'.get? name = some table' ∧ table.Within table'

@[refl] theorem Row.Within.refl (row : Row) : row.Within row := fun _ _ found => found

@[refl] theorem Table.Within.refl (table : Table) : table.Within table :=
  ⟨rfl, rfl, List.forall₂_same.mpr fun row _ => .refl row⟩

/-! ### Declaring columns -/

namespace Schema

variable {file table column : String} {schema schema' : Schema} {col : Element}
  {cols above below : List Element}

/-- Schemas that have the same columns, but for one name. -/
def AgreeExcept (column : String) (schema schema' : Schema) : Prop :=
  ∀ name, name ≠ column → schema.get? name = schema'.get? name

theorem AgreeExcept.declare (agree : AgreeExcept column schema schema') (col : Element) :
    AgreeExcept column (schema.declare col) (schema'.declare col) := by
  unfold Schema.declare
  split
  · intro name isOther
    rw [Registry.get?_insertNew, Registry.get?_insertNew, agree name isOther]
  · exact agree

theorem agreeExcept_declare (schema : Schema) (named : col.attribute? "name" = some column) :
    AgreeExcept column schema (schema.declare col) := by
  intro name isOther
  have notIt : Named.name (Column.ofElement column col) ≠ name := Ne.symm isOther
  simp only [declare, named, Registry.get?_insertNew, if_neg notIt, Option.or_none]

/-- A declaration of another name leaves a name free. -/
theorem get?_declare_of_ne (free : schema.get? column = none)
    (isOther : col.attribute? "name" ≠ some column) : (schema.declare col).get? column = none := by
  unfold declare
  split
  · rename_i name named
    have notIt : Named.name (Column.ofElement name col) ≠ column := by
      rintro rfl
      exact isOther named
    rw [Registry.get?_insertNew, free, if_neg notIt, Option.or_none]
  · exact free

theorem problems_congr (agree : AgreeExcept column schema schema')
    (isOther : col.attribute? "name" ≠ some column) :
    schema.problems file table col = schema'.problems file table col := by
  unfold problems
  cases named : col.attribute? "name" with
  | none => rfl
  | some name =>
    have notIt : name ≠ column := by
      rintro rfl
      exact isOther named
    simp only [agree name notIt]

/-- What is reported of declarations does not depend on a name that they do not declare. -/
theorem diagnostics_load_congr (agree : AgreeExcept column schema schema')
    (others : ∀ col ∈ cols, col.attribute? "name" ≠ some column) :
    (load file table schema cols).2 = (load file table schema' cols).2 := by
  induction cols generalizing schema schema' with
  | nil => rfl
  | cons col cols ih =>
    obtain ⟨first, others⟩ := List.forall_mem_cons.mp others
    rw [load_cons, load_cons, problems_congr agree first, ih (agree.declare col) others]

/-- Nothing else is reported if one more column is declared, under a name of its own. -/
theorem diagnostics_load_insert (free : schema.get? column = none)
    (named : col.attribute? "name" = some column)
    (others : ∀ other ∈ above ++ below, other.attribute? "name" ≠ some column) :
    (load file table schema (above ++ col :: below)).2 =
      (load file table schema (above ++ below)).2 := by
  induction above generalizing schema with
  | nil =>
    have silent : schema.problems file table col = [] := by simp only [problems, named, free]
    rw [List.nil_append, List.nil_append, load_cons, silent, List.nil_append]
    exact (diagnostics_load_congr (agreeExcept_declare schema named) others).symm
  | cons first above ih =>
    obtain ⟨isOther, others⟩ := List.forall_mem_cons.mp others
    rw [List.cons_append, List.cons_append, load_cons, load_cons,
      ih (get?_declare_of_ne free isOther) others]

/-- The new column comes to the others, which stay what they are. -/
theorem get?_load_insert (named : col.attribute? "name" = some column)
    (others : ∀ other ∈ above ++ below, other.attribute? "name" ≠ some column) (name : String) :
    (load file table .empty (above ++ col :: below)).1.get? name =
      if name = column then some (.ofElement column col)
      else (load file table .empty (above ++ below)).1.get? name := by
  obtain ⟨ofAbove, -⟩ := List.forall_mem_append.mp others
  rw [get?_load, get?_load, List.find?_append, List.find?_append, List.find?_cons, named]
  by_cases same : name = column
  · subst same
    have noneAbove : above.find? (·.attribute? "name" = some name) = none := by
      rw [List.find?_eq_none]
      simpa using ofAbove
    simp [noneAbove]
  · simp [same, Ne.symm same]

theorem get?_load_eq_none
    (others : ∀ other ∈ cols, other.attribute? "name" ≠ some column) :
    (load file table .empty cols).1.get? column = none := by
  have noneFound : cols.find? (·.attribute? "name" = some column) = none := by
    rw [List.find?_eq_none]
    simpa using others
  rw [get?_load, noneFound]
  rfl

/-- What is reported of declarations is never that a value is ignored. -/
theorem kind_of_mem_load {d : Diagnostic} (member : d ∈ (load file table schema cols).2) :
    d.kind ≠ .unknownColumn := by
  have reported : ∀ d ∈ (load file table schema cols).2, d.kind ≠ .unknownColumn :=
    forall_mem_load (fun col _ => by simp [Problem.reportAt, Problem.report, Problem.kind])
      fun col _ name line _ => by simp [Problem.reportAt, Problem.report, Problem.kind]
  exact reported d member

end Schema

/-! ### Declaring tables -/

namespace Store

variable {file : String} {store store' : Store} {table table' : Table} {p : String → Prop}
  {es : List Element}

/-- Under the names for which `p` holds, the stores have tables one within the other, or neither has
one. -/
def WithinOn (p : String → Prop) (store store' : Store) : Prop :=
  ∀ name, p name → Option.Rel Table.Within (store.get? name) (store'.get? name)

namespace WithinOn

theorem refl (p : String → Prop) (store : Store) : WithinOn p store store := by
  intro name _
  cases store.get? name with
  | none => exact .none
  | some table => exact .some (.refl table)

theorem insertNew (within : WithinOn p store store') (tables : table.Within table') :
    WithinOn p (store.insertNew table) (store'.insertNew table') := by
  intro name holds
  have before := within name holds
  have sameName : Named.name table = Named.name table' := tables.name
  rw [Registry.get?_insertNew, Registry.get?_insertNew, sameName]
  -- What was there before stays; otherwise the new tables are there, under the same name.
  generalize store.get? name = found, store'.get? name = found' at before
  cases before with
  | some related => exact .some related
  | none =>
    by_cases isName : Named.name table' = name
    · rw [if_pos isName, if_pos isName]
      exact .some tables
    · rw [if_neg isName, if_neg isName]
      exact .none

theorem problems_eq (within : WithinOn p store store') (tables : table.Within table')
    (holds : p table.name) : store.problems file table = store'.problems file table' := by
  have before := within table.name holds
  rw [problems, problems, ← tables.name, ← tables.line]
  generalize store.get? table.name = found, store'.get? table.name = found' at before
  cases before with
  | none => rfl
  | some related => simp only [related.name, related.line]

/-- After more data, the same is reported of tables of these names, and the stores stay one within
the other. -/
theorem loadTables (within : WithinOn p store store') (file : String)
    (names : ∀ e ∈ es, p e.name) :
    (loadTables file store es).2 = (loadTables file store' es).2 ∧
      WithinOn p (loadTables file store es).1 (loadTables file store' es).1 := by
  induction es generalizing store store' with
  | nil => exact ⟨rfl, within⟩
  | cons e es ih =>
    obtain ⟨holds, others⟩ := List.forall_mem_cons.mp names
    have same := Table.Within.refl (Table.load file e).1
    obtain ⟨sameReports, stores⟩ := ih (within.insertNew same) others
    rw [loadTables_cons, loadTables_cons]
    exact ⟨by rw [within.problems_eq same holds, sameReports], stores⟩

/-- If the stores agree in that way on all names of the first one, then it is within the second. -/
theorem within (on : WithinOn p store store')
    (names : ∀ name, ¬ p name → store.get? name = none) : store.Within store' := by
  intro name table found
  have holds : p name := by
    by_contra fails
    rw [names name fails] at found
    cases found
  have related := on name holds
  rw [found] at related
  generalize store'.get? name = found' at related
  cases related with
  | some tables => exact ⟨_, rfl, tables⟩

end WithinOn

/-- A table more makes a difference under its own name only. -/
theorem withinOn_insertNew (store : Store) (table : Table) :
    WithinOn (· ≠ table.name) store (store.insertNew table) := by
  intro name isOther
  have notIt : Named.name table ≠ name := Ne.symm isOther
  rw [Registry.get?_insertNew, if_neg notIt, Option.or_none]
  exact WithinOn.refl (· ≠ table.name) store name isOther

/-- A name that no table has is not in the store. -/
theorem get?_loadTables_eq_none {name : String} (free : store.get? name = none)
    (others : ∀ e ∈ es, e.name ≠ name) : (Store.loadTables file store es).1.get? name = none := by
  have noneFound : es.find? (·.name = name) = none := by
    rw [List.find?_eq_none]
    simpa using others
  rw [get?_loadTables, free, noneFound]
  rfl

end Store

/-! ### One more column -/

/-- The diagnostic is a warning that a value for the column of a table is ignored. -/
def Diagnostic.reportsIgnored (column table : String) (d : Diagnostic) : Bool :=
  d.severity = .warning && d.kind = .unknownColumn &&
    d.message = (Problem.valueIgnored column table).message

/-- The message tells for which column a value is ignored. -/
theorem Problem.message_valueIgnored_inj {column column' table : String} :
    (valueIgnored column table).message = (valueIgnored column' table).message ↔
      column = column' := by
  have wording (column : String) : (valueIgnored column table).message =
      "`" ++ column ++ "` is not a column in table `" ++ table ++ "`, value ignored" := rfl
  rw [wording, wording, String.append_left_inj, String.append_left_inj, String.append_left_inj,
    String.append_right_inj]

theorem Problem.reportsIgnored_reportAt (column column' table file : String) (line : Nat) :
    ((valueIgnored column table).reportAt file line).reportsIgnored column' table =
      decide (column = column') := by
  rw [Bool.eq_iff_iff]
  simp [Diagnostic.reportsIgnored, reportAt, report, severity, kind, message_valueIgnored_inj]

/-- The element of a table with a column declared anywhere in it that the others do not declare, in
its section of tables. -/
structure ColumnInsertion where
  before : List Node
  tag : Tag
  above : List Node
  col : Element
  column : String
  below : List Node
  after : List Node
  isCol : col.name = "col"
  named : col.attribute? "name" = some column
  isNew : ∀ other ∈ Element.elementsNamed ⟨tag, above ++ below⟩ "col",
    other.attribute? "name" ≠ some column

namespace ColumnInsertion

variable (i : ColumnInsertion)

/-- The element without the column. -/
def table : Element := ⟨i.tag, i.above ++ i.below⟩

/-- The element with the column. -/
def extended : Element := ⟨i.tag, i.above ++ i.col.toNode :: i.below⟩

/-- What is in the section without the column. -/
def nodes : List Node := i.before ++ i.table.toNode :: i.after

/-- What is in the section with the column. -/
def extendedNodes : List Node := i.before ++ i.extended.toNode :: i.after

variable {i} {file : String}

theorem elementsNamed_row : i.extended.elementsNamed "row" = i.table.elementsNamed "row" := by
  have notRow : i.col.name ≠ "row" := by
    rw [i.isCol]
    decide
  simp [extended, table, Element.elementsNamed, Element.elements, Element.toNode, Node.element?,
    notRow]

/-- The declarations of the table, and the new one among them. -/
theorem exists_elementsNamed_col :
    ∃ above below, i.table.elementsNamed "col" = above ++ below ∧
      i.extended.elementsNamed "col" = above ++ i.col :: below := by
  refine ⟨Element.elementsNamed ⟨i.tag, i.above⟩ "col",
    Element.elementsNamed ⟨i.tag, i.below⟩ "col", ?_, ?_⟩
  · simp [table, Element.elementsNamed, Element.elements]
  · simp [extended, Element.elementsNamed, Element.elements, Element.toNode, Node.element?, i.isCol]

/-- The columns that are declared without the new one. -/
theorem get?_columns_table : (Table.load file i.table).1.columns.get? i.column = none :=
  Schema.get?_load_eq_none i.isNew

/-- The columns that are declared with the new one. -/
theorem get?_columns_extended (name : String) :
    (Table.load file i.extended).1.columns.get? name =
      if name = i.column then some (.ofElement i.column i.col)
      else (Table.load file i.table).1.columns.get? name := by
  obtain ⟨above, below, isTable, isExtended⟩ := i.exists_elementsNamed_col
  have others := i.isNew
  have columns (e : Element) : (Table.load file e).1.columns =
      (Schema.load file e.name .empty (e.elementsNamed "col")).1 := rfl
  have sameName : i.extended.name = i.table.name := rfl
  rw [columns, columns, sameName, isTable, isExtended]
  refine Schema.get?_load_insert i.named ?_ name
  rw [← isTable]
  exact others

/-- Every row has the values that it has without the column. -/
theorem table_within (file : String) :
    (Table.load file i.table).1.Within (Table.load file i.extended).1 := by
  have rows (e : Element) : (Table.load file e).1.rows = (e.elementsNamed "row").map fun row =>
      Row.resolve (Table.load file e).1.columns row.attribute? row.line := rfl
  refine ⟨rfl, rfl, ?_⟩
  rw [rows, rows, elementsNamed_row, List.forall₂_map_left_iff, List.forall₂_map_right_iff,
    List.forall₂_same]
  intro row _ column value found
  rw [Row.get?_resolve] at found ⊢
  rw [get?_columns_extended]
  by_cases same : column = i.column
  · rw [same, get?_columns_table] at found
    cases found
  · rw [if_neg same]
    exact found

/-- A row no longer gives a value that is ignored in the column, and otherwise the same ones are. -/
theorem ignored_eq (row : Element) :
    Row.ignored file i.extended.name (Table.load file i.extended).1.columns row =
      (Row.ignored file i.table.name (Table.load file i.table).1.columns row).filter
        (!·.reportsIgnored i.column i.table.name) := by
  have contains (name : String) : (!(Table.load file i.extended).1.columns.contains name) =
      (!decide (name = i.column) && !(Table.load file i.table).1.columns.contains name) := by
    rw [Registry.contains_eq_isSome_get?, Registry.contains_eq_isSome_get?, get?_columns_extended]
    by_cases same : name = i.column <;> simp [same]
  have sameName : i.extended.name = i.table.name := rfl
  simp only [Row.ignored, sameName, contains, List.filter_map, List.filter_filter,
    Function.comp_def, Problem.reportsIgnored_reportAt]

/-- What is reported of the table, apart from values that are ignored in the column. -/
theorem diagnostics_load_extended :
    (Table.load file i.extended).2 =
      (Table.load file i.table).2.filter (!·.reportsIgnored i.column i.table.name) := by
  obtain ⟨above, below, isTable, isExtended⟩ := i.exists_elementsNamed_col
  have others := i.isNew
  have reports (e : Element) : (Table.load file e).2 =
      (Schema.load file e.name .empty (e.elementsNamed "col")).2 ++
        (e.elementsNamed "row").flatMap
          (Row.ignored file e.name (Table.load file e).1.columns) := rfl
  have ofColumns : (Schema.load file i.extended.name .empty (i.extended.elementsNamed "col")).2 =
      (Schema.load file i.table.name .empty (i.table.elementsNamed "col")).2 := by
    have sameName : i.extended.name = i.table.name := rfl
    rw [sameName, isTable, isExtended]
    refine Schema.diagnostics_load_insert rfl i.named ?_
    rw [← isTable]
    exact others
  have kept : ∀ d ∈ (Schema.load file i.table.name .empty (i.table.elementsNamed "col")).2,
      (!d.reportsIgnored i.column i.table.name) = true := by
    intro d member
    have isOther := Schema.kind_of_mem_load member
    simp [Diagnostic.reportsIgnored, isOther]
  rw [reports, reports, ofColumns, elementsNamed_row, List.filter_append,
    List.filter_eq_self.mpr kept, List.filter_flatMap]
  congr 2
  funext row
  exact ignored_eq row

/-- What comes of a section with the column: data within which the former data is, and the same
reports but for values that were ignored in the column. -/
theorem loadTables (file : String) :
    ∃ others,
      (Store.loadTables file .empty (i.nodes.filterMap Node.element?)).2 =
        (Store.loadTables file .empty (i.before.filterMap Node.element?)).2 ++
          ((Table.load file i.table).2 ++ others) ∧
      (Store.loadTables file .empty (i.extendedNodes.filterMap Node.element?)).2 =
        (Store.loadTables file .empty (i.before.filterMap Node.element?)).2 ++
          ((Table.load file i.table).2.filter (!·.reportsIgnored i.column i.table.name) ++
            others) ∧
      (Store.loadTables file .empty (i.nodes.filterMap Node.element?)).1.Within
        (Store.loadTables file .empty (i.extendedNodes.filterMap Node.element?)).1 := by
  have isNodes : i.nodes.filterMap Node.element? =
      i.before.filterMap Node.element? ++ i.table :: i.after.filterMap Node.element? := by
    rw [nodes, List.filterMap_append]
    rfl
  have isExtended : i.extendedNodes.filterMap Node.element? =
      i.before.filterMap Node.element? ++ i.extended :: i.after.filterMap Node.element? := by
    rw [extendedNodes, List.filterMap_append]
    rfl
  -- The tables above are the same. Here the table with the column takes the place of the other one,
  -- under the same name, so that no table below is refused in one section alone.
  have before : Store.WithinOn (fun _ => True) _ _ := .refl _
    (Store.loadTables file .empty (i.before.filterMap Node.element?)).1
  have table := i.table_within file
  have names : ∀ e ∈ i.after.filterMap Node.element?, True := fun _ _ => trivial
  obtain ⟨sameReports, after⟩ := (before.insertNew table).loadTables file names
  rw [isNodes, isExtended, Store.loadTables_append, Store.loadTables_append, Store.loadTables_cons,
    Store.loadTables_cons, ← before.problems_eq table trivial, ← sameReports,
    diagnostics_load_extended]
  exact ⟨_, rfl, rfl, after.within fun _ fails => absurd trivial fails⟩

end ColumnInsertion

/-! ### One more table -/

/-- An element anywhere in a section of tables that describes a table of a new name. -/
structure TableInsertion where
  before : List Node
  table : Element
  after : List Node
  isNew : ∀ other ∈ (before ++ after).filterMap Node.element?, other.name ≠ table.name

namespace TableInsertion

variable (i : TableInsertion)

/-- What is in the section without the table. -/
def nodes : List Node := i.before ++ i.after

/-- What is in the section with the table. -/
def extendedNodes : List Node := i.before ++ i.table.toNode :: i.after

variable {i}

/-- What comes of a section with the table, if nothing is reported of that: the same reports, and
data within which the former data is. -/
theorem loadTables (file : String) (silent : (Table.load file i.table).2 = []) :
    (Store.loadTables file .empty (i.extendedNodes.filterMap Node.element?)).2 =
        (Store.loadTables file .empty (i.nodes.filterMap Node.element?)).2 ∧
      (Store.loadTables file .empty (i.nodes.filterMap Node.element?)).1.Within
        (Store.loadTables file .empty (i.extendedNodes.filterMap Node.element?)).1 := by
  have isNodes : i.nodes.filterMap Node.element? =
      i.before.filterMap Node.element? ++ i.after.filterMap Node.element? := by
    rw [nodes, List.filterMap_append]
  have isExtended : i.extendedNodes.filterMap Node.element? =
      i.before.filterMap Node.element? ++ i.table :: i.after.filterMap Node.element? := by
    rw [extendedNodes, List.filterMap_append]
    rfl
  have others := i.isNew
  rw [List.filterMap_append] at others
  obtain ⟨ofBefore, ofAfter⟩ := List.forall_mem_append.mp others
  have free : (Store.loadTables file .empty (i.before.filterMap Node.element?)).1.get?
      i.table.name = none := Store.get?_loadTables_eq_none rfl ofBefore
  have unreported : (Store.loadTables file .empty (i.before.filterMap Node.element?)).1.problems
      file (Table.load file i.table).1 = [] := by
    have sameName : (Table.load file i.table).1.name = i.table.name := rfl
    simp only [Store.problems, sameName, free]
  -- The stores part under the new name, which no table after it has.
  have on := Store.withinOn_insertNew (Store.loadTables file .empty
    (i.before.filterMap Node.element?)).1 (Table.load file i.table).1
  obtain ⟨sameReports, after⟩ := on.loadTables file ofAfter
  rw [isNodes, isExtended, Store.loadTables_append, Store.loadTables_append, Store.loadTables_cons,
    silent, unreported, List.nil_append, List.nil_append, ← sameReports]
  refine ⟨rfl, after.within fun name isNew => ?_⟩
  obtain rfl : name = i.table.name := not_not.mp isNew
  exact Store.get?_loadTables_eq_none free ofAfter

end TableInsertion

end Stencil
