import Stencil.Diagnostic.Problem
import Stencil.Markup.Element
import Stencil.Table.Basic

/-!
# Loading tables from a document

The first `tables` element of a document holds one element per table, named like the table. In it
`col` elements declare columns and `row` elements give rows; the two may stand in any order, and
anything else is ignored. Every problem is reported, also in a table that is dropped because its
name is taken, and the store holds whatever could be loaded.

## Main definitions

* `Schema.load`: declares columns
* `Table.load`: reads a table
* `Store.load`: reads all tables of a document
-/

namespace Stencil

open Markup

/-- Declares the columns that `col` elements describe, adding them to a schema. -/
def Schema.load (file table : String) (schema : Schema) : List Element → Schema × Diagnostics
  | [] => (schema, [])
  | col :: cols =>
    match col.attribute? "name" with
    | none =>
      let (schema, problems) := Schema.load file table schema cols
      (schema, (Problem.namelessColumn table).reportAt file col.line :: problems)
    | some name =>
      match schema.insert ⟨name, (col.attribute? "default").getD "", col.line⟩ with
      | .ok extended => Schema.load file table extended cols
      | .error holder =>
        let (schema, problems) := Schema.load file table schema cols
        (schema, (Problem.columnRedeclared name table holder.line).reportAt file col.line ::
          problems)

/-- The values of a row that no column takes up. -/
def Row.ignored (file table : String) (schema : Schema) (row : Element) : Diagnostics :=
  (row.tag.attributes.filter (!schema.contains ·.1)).map fun (column, _) =>
    (Problem.valueIgnored column table).reportAt file row.line

/-- Reads the table that an element describes. -/
def Table.load (file : String) (e : Element) : Table × Diagnostics :=
  let (schema, problems) := Schema.load file e.name .empty (e.elementsNamed "col")
  let rows := e.elementsNamed "row"
  (⟨e.name, schema, rows.map fun row => Row.resolve schema row.attribute? row.line, e.line⟩,
    problems ++ rows.flatMap (Row.ignored file e.name schema))

/-- Reads the tables that elements describe, adding them to a store. -/
def Store.loadTables (file : String) (store : Store) : List Element → Store × Diagnostics
  | [] => (store, [])
  | e :: es =>
    let (table, problems) := Table.load file e
    match store.insert table with
    | .ok extended =>
      let (store, others) := Store.loadTables file extended es
      (store, problems ++ others)
    | .error holder =>
      let (store, others) := Store.loadTables file store es
      (store, problems ++
        (Problem.tableRedefined holder.name holder.line).reportAt file table.line :: others)

/-- Reads the tables of a document. -/
def Store.load (file : String) (root : Element) : Store × Diagnostics :=
  match root.element? "tables" with
  | none => (.empty, [Problem.noTables.reportAt file root.line])
  | some tables => Store.loadTables file .empty tables.elements

end Stencil
