import Stencil.Registry

/-!
# Tables

A table has columns, each with a default, and rows. A row is resolved when the table is loaded: it
then has a value for every column of the table, in the order of the columns, its own value where
it gives one and the column's default where it does not.

## Main definitions

* `Column`, `Schema`: a declared column, and the columns of a table
* `Row.resolve`: a row for a schema
* `Table`, `Store`: a table, and the tables of a document
-/

namespace Stencil

/-- A declared column: the value it has in rows that give none, and the line of its
declaration. -/
structure Column where
  name : String
  default : String
  line : Nat
deriving Repr, DecidableEq

instance : Named Column := ⟨Column.name⟩

/-- The columns of a table, in the order of declaration. -/
abbrev Schema := Registry Column

/-- A row: a value for every column of its table, and the line it stands on. -/
structure Row where
  values : List (String × String)
  line : Nat
deriving Repr, DecidableEq

namespace Row

/-- The row that gives the values `own` for the columns of a schema. -/
def resolve (schema : Schema) (own : String → Option String) (line : Nat) : Row where
  values := schema.toList.map fun column => (column.name, (own column.name).getD column.default)
  line := line

/-- The value in a column. -/
def get? (row : Row) (column : String) : Option String := row.values.lookup column

/-- The names of the columns. -/
def columns (row : Row) : List String := row.values.map Prod.fst

/-- The number of columns. -/
def size (row : Row) : Nat := row.values.length

/-- Whether there are no columns. -/
def isEmpty (row : Row) : Bool := row.values.isEmpty

/-- A resolved row has exactly the columns of its schema. -/
theorem columns_resolve (schema : Schema) (own : String → Option String) (line : Nat) :
    (resolve schema own line).columns = schema.toList.map Column.name := by
  simp [columns, resolve, Function.comp_def]

end Row

/-- A table: its columns, its rows in order, and the line of its definition. -/
structure Table where
  name : String
  columns : Schema
  rows : List Row
  line : Nat
deriving Repr, DecidableEq

instance : Named Table := ⟨Table.name⟩

/-- The tables of a document, in the order of definition. -/
abbrev Store := Registry Table

end Stencil
