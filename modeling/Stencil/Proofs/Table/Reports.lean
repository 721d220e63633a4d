import Stencil.Proofs.Diagnostic.Account
import Stencil.Proofs.Table.Content

/-!
# What is reported of tables

Every problem in a section of tables is reported once, with the element that it is about, and
nothing else is. A declaration is wrong if it has no name, or if an earlier one in its table has the
same name; a row is wrong in the attributes for which no column is declared anywhere in its table; a
table is wrong if an earlier one has the same name. The report always refers to the first of a name,
however many there are, and it does not matter whether a table is itself dropped.

## Main definitions

* `Markup.Element.columnProblem?`, `Markup.Element.rowProblems`, `Markup.Element.tableProblem?`:
  what is wrong with a declaration, with a row and with a table, by the elements before it
* `Markup.Element.tableAccount`: what is reported of a table

## Main results

* `Schema.diagnostics_load`, `Store.diagnostics_loadTables`: declarations and tables are each
  reported by those before them
* `Store.load_account`: what is reported of the tables of a document
-/

namespace Stencil

open Markup

/-! ### What is wrong with an element -/

namespace Markup.Element

/-- What is wrong with the declaration of a column in a table, if others come before it. -/
def columnProblem? (table : String) (earlier : List Element) (col : Element) : Option Problem :=
  match col.attribute? "name" with
  | none => some (.namelessColumn table)
  | some name =>
    (earlier.find? (·.attribute? "name" = some name)).map fun first =>
      .columnRedeclared name table first.line

/-- What is wrong with a row of a table: its attributes, in order, that name none of the columns. -/
def rowProblems (table : String) (cols : List Element) (row : Element) : List Problem :=
  (row.tag.attributes.map Prod.fst).filter (fun key => cols.all (·.attribute? "name" ≠ some key))
    |>.map fun key => .valueIgnored key table

/-- What is wrong with the definition of a table, if others come before it. -/
def tableProblem? (earlier : List Element) (e : Element) : Option Problem :=
  (earlier.find? (·.name = e.name)).map fun first => .tableRedefined e.name first.line

/-- What is reported of a table, if others come before it: what is wrong with its declarations, then
what is wrong with its rows, then what is wrong with itself. -/
def tableAccount (file : String) (earlier : List Element) (e : Element) : Diagnostics :=
  (withEarlier (e.elementsNamed "col")).flatMap (fun (above, col) =>
      col.reports file (columnProblem? e.name above col).toList) ++
    (e.elementsNamed "row").flatMap (fun row =>
      row.reports file (rowProblems e.name (e.elementsNamed "col") row)) ++
    e.reports file (tableProblem? earlier e).toList

end Markup.Element

/-! ### Declarations -/

namespace Schema

variable {file table : String} {schema : Schema}

theorem load_concat (file table : String) (schema : Schema) (cols : List Element) (col : Element) :
    load file table schema (cols ++ [col]) =
      ((load file table schema cols).1.declare col,
        (load file table schema cols).2 ++
          (load file table schema cols).1.problems file table col) := by
  induction cols generalizing schema with
  | nil => rw [List.nil_append, load_cons]; simp [load]
  | cons first cols ih =>
    rw [List.cons_append, load_cons, load_cons, ih, List.append_assoc]

theorem problems_load (file table : String) (earlier : List Element) (col : Element) :
    (load file table .empty earlier).1.problems file table col =
      col.reports file (Element.columnProblem? table earlier col).toList := by
  unfold problems Element.columnProblem?
  cases named : col.attribute? "name" with
  | none => rfl
  | some name =>
    simp only [get?_load, Registry.get?_empty, Option.none_or]
    cases earlier.find? (·.attribute? "name" = some name) with
    | none => rfl
    | some first => rfl

/-- What is reported of declarations is said of each by those before it. -/
theorem diagnostics_load (file table : String) (cols : List Element) :
    (load file table .empty cols).2 =
      (withEarlier cols).flatMap fun (above, col) =>
        col.reports file (Element.columnProblem? table above col).toList := by
  -- The last declaration is judged by all others, so it is taken off first.
  induction cols using List.reverseRecOn with
  | nil => rfl
  | append_singleton cols col ih =>
    rw [load_concat, withEarlier_concat, List.flatMap_append, List.flatMap_singleton, ih,
      problems_load]

/-- A name is free exactly if no declaration has it. -/
theorem not_contains_load (file table : String) (cols : List Element) (name : String) :
    (!(load file table .empty cols).1.contains name) =
      cols.all (·.attribute? "name" ≠ some name) := by
  rw [Registry.contains_eq_isSome_get?, get?_load, Registry.get?_empty, Option.none_or,
    Option.isSome_map, List.isSome_find?, List.not_any_eq_all_not]
  simp only [ne_eq, decide_not]

end Schema

/-! ### Rows -/

/-- What a row gives for columns that are not declared. -/
theorem Row.ignored_load (file table : String) (cols : List Element) (row : Element) :
    Row.ignored file table (Schema.load file table .empty cols).1 row =
      row.reports file (Element.rowProblems table cols row) := by
  simp only [Row.ignored, Element.reports, Element.rowProblems, Schema.not_contains_load,
    List.filter_map, List.map_map, Function.comp_def]

/-! ### Tables -/

theorem Table.diagnostics_load (file : String) (e : Element) :
    (Table.load file e).2 =
      (withEarlier (e.elementsNamed "col")).flatMap (fun (above, col) =>
          col.reports file (Element.columnProblem? e.name above col).toList) ++
        (e.elementsNamed "row").flatMap fun row =>
          row.reports file (Element.rowProblems e.name (e.elementsNamed "col") row) := by
  have ofRow := Row.ignored_load file e.name (e.elementsNamed "col")
  simp only [Table.load, Schema.diagnostics_load, funext ofRow]

namespace Store

theorem problems_loadTables (file : String) (earlier : List Element) (e : Element) :
    (loadTables file .empty earlier).1.problems file (Table.load file e).1 =
      e.reports file (Element.tableProblem? earlier e).toList := by
  have sameName : (Table.load file e).1.name = e.name := rfl
  rw [problems, sameName, get?_loadTables, Registry.get?_empty, Option.none_or,
    Element.tableProblem?]
  cases found : earlier.find? (·.name = e.name) with
  | none => rfl
  | some first =>
    have sameNames := List.find?_some found
    rw [← of_decide_eq_true sameNames]
    rfl

/-- What is reported of tables is said of each by those before it. -/
theorem diagnostics_loadTables (file : String) (es : List Element) :
    (loadTables file .empty es).2 =
      (withEarlier es).flatMap fun (earlier, e) => e.tableAccount file earlier := by
  induction es using List.reverseRecOn with
  | nil => rfl
  | append_singleton es e ih =>
    rw [loadTables_append, loadTables_cons, withEarlier_concat, List.flatMap_append,
      List.flatMap_singleton, ih, problems_loadTables, Table.diagnostics_load]
    simp [loadTables, Element.tableAccount]

/-- **The account of loading.** If a document has a section of tables, what is reported of them is
told by the elements in the first such section, in order, those that are dropped included. Of each,
the declarations come first: one that has no name is an error, and so is one whose name an earlier
declaration of the same element has, and the first of these is referred to. Then come the rows: each
attribute that names no column declared in the element is a warning. Last comes the element itself:
it is an error if an earlier element has the same name, and the first of these is referred to. Every
problem is reported on the line of the element that it is about, and nothing else is reported. -/
theorem load_account (file : String) (root tables : Element)
    (hasTables : root.element? "tables" = some tables) :
    (load file root).2 =
      (withEarlier tables.elements).flatMap fun (earlier, e) => e.tableAccount file earlier := by
  simp only [load, hasTables, diagnostics_loadTables]

end Store

namespace Sample

/-- A section in which a name comes three times, as a column and as a table, and in which the tables
that are dropped are wrong in themselves. -/
def threefold : Element :=
  ⟨⟨"tables", [], 2⟩,
    [.element ⟨"Size", [], 3⟩
      [.element ⟨"row", [("depth", "2"), ("unit", "em")], 4⟩ [],
       .element ⟨"col", [("name", "unit")], 5⟩ [],
       .element ⟨"col", [("default", "px")], 6⟩ [],
       .element ⟨"col", [("name", "unit")], 7⟩ [],
       .element ⟨"col", [("name", "unit")], 8⟩ []],
     .element ⟨"Size", [], 9⟩ [.element ⟨"col", [], 10⟩ []],
     .text "ignored" 11,
     .element ⟨"Size", [], 12⟩ [.element ⟨"row", [("unit", "px")], 13⟩ []]]⟩

end Sample

theorem Store.load_account_threefold :
    Element.element? ⟨⟨"root", [], 1⟩, [Sample.threefold.toNode]⟩ "tables" =
        some Sample.threefold ∧
      (load "a.xml" ⟨⟨"root", [], 1⟩, [Sample.threefold.toNode]⟩).2 =
        [(Problem.namelessColumn "Size").reportAt "a.xml" 6,
         (Problem.columnRedeclared "unit" "Size" 5).reportAt "a.xml" 7,
         (Problem.columnRedeclared "unit" "Size" 5).reportAt "a.xml" 8,
         (Problem.valueIgnored "depth" "Size").reportAt "a.xml" 4,
         (Problem.namelessColumn "Size").reportAt "a.xml" 10,
         (Problem.tableRedefined "Size" 3).reportAt "a.xml" 9,
         (Problem.valueIgnored "unit" "Size").reportAt "a.xml" 13,
         (Problem.tableRedefined "Size" 3).reportAt "a.xml" 12] := by
  have hasTables :
      Element.element? ⟨⟨"root", [], 1⟩, [Sample.threefold.toNode]⟩ "tables" =
        some Sample.threefold := rfl
  exact ⟨hasTables, (load_account "a.xml" _ _ hasTables).trans (by rfl)⟩

end Stencil
