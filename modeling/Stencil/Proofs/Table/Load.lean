import Stencil.Proofs.Registry
import Stencil.Table.Load

/-!
# What loading guarantees

The rows of a loaded table have exactly the columns of their table. Loading meets no error exactly
if every column declaration has a name and no name is declared twice, be it that of a column within
its table or that of a table.

## Main definitions

* `Table.Resolved`: the rows of the table have the columns of the table
* `Markup.Element.DeclaresColumns`: every column has a name, and no two have the same
* `Schema.declare`, `Schema.problems`, `Store.problems`: what one declaration comes to

## Main results

* `Schema.load_cons`, `Store.loadTables_cons`: one declaration comes after the other
* `Schema.forall_mem_load`, `Store.forall_mem_loadTables`: what can be reported
* `Store.resolved_of_mem_load`: every loaded table is resolved
* `Store.isSuccess_loadTables_iff`: when loading tables meets no error
-/

namespace Stencil

open Markup

/-- A row has no value in a column exactly if it has no such column. -/
theorem Row.get?_eq_none_iff {row : Row} {column : String} :
    row.get? column = none ↔ column ∉ row.columns := by
  simp only [Row.get?, Row.columns, List.lookup_eq_none_iff, List.mem_map, not_exists, not_and,
    bne_iff_ne, ne_comm]

/-! ### One declaration after another -/

/-- The column that an element declares under a name. -/
def Column.ofElement (name : String) (col : Element) : Column :=
  ⟨name, (col.attribute? "default").getD "", col.line⟩

namespace Schema

variable {file table name : String} {schema : Schema} {col : Element} {cols : List Element}

theorem load_cons_of_free (named : col.attribute? "name" = some name)
    (free : schema.contains name = false) :
    Schema.load file table schema (col :: cols) =
      Schema.load file table ⟨schema.toList ++ [.ofElement name col]⟩ cols := by
  have accepted := Registry.insert_of_free (a := Column.ofElement name col) free
  simp only [Column.ofElement] at accepted ⊢
  simp only [Schema.load, named, accepted]

theorem load_cons_of_taken (file table : String) (cols : List Element)
    (named : col.attribute? "name" = some name) (taken : schema.contains name = true) :
    ∃ holder, schema.get? name = some holder ∧
      Schema.load file table schema (col :: cols) =
        ((Schema.load file table schema cols).1,
          (Problem.columnRedeclared name table holder.line).reportAt file col.line ::
            (Schema.load file table schema cols).2) := by
  obtain ⟨holder, held, refused⟩ := Registry.insert_of_taken (a := Column.ofElement name col) taken
  rw [Column.ofElement] at refused
  exact ⟨holder, held, by simp only [Schema.load, named, refused]⟩

/-- The columns after a declaration: one without a name declares nothing. -/
def declare (schema : Schema) (col : Element) : Schema :=
  match col.attribute? "name" with
  | some name => schema.insertNew (.ofElement name col)
  | none => schema

/-- What is reported of a declaration, if so many columns are declared before. -/
def problems (file table : String) (schema : Schema) (col : Element) : Diagnostics :=
  match col.attribute? "name" with
  | none => [(Problem.namelessColumn table).reportAt file col.line]
  | some name =>
    match schema.get? name with
    | some holder => [(Problem.columnRedeclared name table holder.line).reportAt file col.line]
    | none => []

/-- One declaration comes after the other. -/
theorem load_cons (file table : String) (schema : Schema) (col : Element) (cols : List Element) :
    load file table schema (col :: cols) =
      ((load file table (schema.declare col) cols).1,
        schema.problems file table col ++ (load file table (schema.declare col) cols).2) := by
  cases named : col.attribute? "name" with
  | none => simp [load, problems, declare, named]
  | some name =>
    have declared : schema.declare col = schema.insertNew (.ofElement name col) := by
      simp only [declare, named]
    rw [declared]
    cases taken : schema.contains name with
    | true =>
      obtain ⟨holder, held, step⟩ := load_cons_of_taken file table cols named taken
      rw [step, Registry.insertNew_of_taken taken]
      simp [problems, named, held]
    | false =>
      rw [load_cons_of_free named taken, Registry.insertNew_of_free taken]
      simp [problems, named, Registry.get?_of_free taken]

/-- Whatever is reported of declarations is that one of them has no name, or that the name it has is
taken. -/
theorem forall_mem_load {P : Diagnostic → Prop}
    (nameless : ∀ col ∈ cols, P ((Problem.namelessColumn table).reportAt file col.line))
    (redeclared : ∀ col ∈ cols, ∀ name line, col.attribute? "name" = some name →
      P ((Problem.columnRedeclared name table line).reportAt file col.line)) :
    ∀ d ∈ (load file table schema cols).2, P d := by
  induction cols generalizing schema with
  | nil => exact fun d member => absurd member List.not_mem_nil
  | cons col cols ih =>
    obtain ⟨namelessHere, namelessLater⟩ := List.forall_mem_cons.mp nameless
    obtain ⟨redeclaredHere, redeclaredLater⟩ := List.forall_mem_cons.mp redeclared
    rw [load_cons]
    refine List.forall_mem_append.mpr ⟨?_, ih namelessLater redeclaredLater⟩
    unfold problems
    split
    · exact List.forall_mem_singleton.mpr namelessHere
    · rename_i name named
      split
      · exact List.forall_mem_singleton.mpr (redeclaredHere name _ named)
      · exact fun d member => absurd member List.not_mem_nil

/-- Columns are declared without an error if all of them have names, and the names can be declared
one after the other. -/
theorem isSuccess_load_iff :
    (Schema.load file table schema cols).2.isSuccess = true ↔
      (∀ col ∈ cols, (col.attribute? "name").isSome) ∧
        schema.Accepts (cols.filterMap (·.attribute? "name")) := by
  -- The schema grows with every declaration that is accepted, and so does what is refused later.
  induction cols generalizing schema with
  | nil => simp [Schema.load, Registry.Accepts]
  | cons col cols ih =>
    cases named : col.attribute? "name" with
    | none => simp [Schema.load, named, Problem.severity]
    | some name =>
      have accepts : schema.Accepts (name :: cols.filterMap (·.attribute? "name")) ↔ _ :=
        Registry.accepts_cons_iff (a := Column.ofElement name col)
      simp only [List.forall_mem_cons, List.filterMap_cons, named, Option.isSome_some, true_and,
        accepts]
      cases taken : schema.contains name with
      | true =>
        obtain ⟨holder, -, step⟩ := load_cons_of_taken file table cols named taken
        simp [step, Problem.severity, taken, Named.name, Column.ofElement]
      | false =>
        rw [load_cons_of_free named taken, ih]
        simp [taken, Named.name, Column.ofElement]

end Schema

namespace Store

variable {file : String} {store : Store} {e : Element} {es : List Element} {table : Table}

theorem loadTables_cons_of_free (free : store.contains e.name = false) :
    loadTables file store (e :: es) =
      ((loadTables file ⟨store.toList ++ [(Table.load file e).1]⟩ es).1,
        (Table.load file e).2 ++
          (loadTables file ⟨store.toList ++ [(Table.load file e).1]⟩ es).2) := by
  have accepted := Registry.insert_of_free (a := (Table.load file e).1) free
  simp only [loadTables, accepted]

theorem loadTables_cons_of_taken (file : String) (es : List Element)
    (taken : store.contains e.name = true) :
    ∃ holder, store.get? e.name = some holder ∧
      loadTables file store (e :: es) =
        ((loadTables file store es).1,
          (Table.load file e).2 ++
            (Problem.tableRedefined holder.name holder.line).reportAt file e.line ::
              (loadTables file store es).2) := by
  obtain ⟨holder, held, refused⟩ := Registry.insert_of_taken (a := (Table.load file e).1) taken
  exact ⟨holder, held, by simp only [loadTables, refused]; rfl⟩

/-- What is reported of a table's name, if so many tables are declared before. -/
def problems (file : String) (store : Store) (table : Table) : Diagnostics :=
  match store.get? table.name with
  | some holder => [(Problem.tableRedefined holder.name holder.line).reportAt file table.line]
  | none => []

/-- One table comes after the other. -/
theorem loadTables_cons (file : String) (store : Store) (e : Element) (es : List Element) :
    loadTables file store (e :: es) =
      ((loadTables file (store.insertNew (Table.load file e).1) es).1,
        (Table.load file e).2 ++ (store.problems file (Table.load file e).1 ++
          (loadTables file (store.insertNew (Table.load file e).1) es).2)) := by
  have sameName : (Table.load file e).1.name = e.name := rfl
  have sameLine : (Table.load file e).1.line = e.line := rfl
  cases taken : store.contains e.name with
  | true =>
    obtain ⟨holder, held, step⟩ := loadTables_cons_of_taken file es taken
    rw [step, Registry.insertNew_of_taken taken]
    simp [problems, sameName, sameLine, held]
  | false =>
    rw [loadTables_cons_of_free taken, Registry.insertNew_of_free taken]
    simp [problems, sameName, Registry.get?_of_free taken]

theorem loadTables_append (file : String) (store : Store) (es fs : List Element) :
    loadTables file store (es ++ fs) =
      ((loadTables file (loadTables file store es).1 fs).1,
        (loadTables file store es).2 ++ (loadTables file (loadTables file store es).1 fs).2) := by
  induction es generalizing store with
  | nil => rfl
  | cons e es ih =>
    rw [List.cons_append, loadTables_cons, loadTables_cons, ih]
    simp

/-- Whatever is reported of tables is reported of one of them, or is that the name of one is
taken. -/
theorem forall_mem_loadTables {P : Diagnostic → Prop}
    (ofTable : ∀ e ∈ es, ∀ d ∈ (Table.load file e).2, P d)
    (redefined : ∀ e ∈ es, ∀ line,
      P ((Problem.tableRedefined e.name line).reportAt file e.line)) :
    ∀ d ∈ (loadTables file store es).2, P d := by
  induction es generalizing store with
  | nil => exact fun d member => absurd member List.not_mem_nil
  | cons e es ih =>
    obtain ⟨here, later⟩ := List.forall_mem_cons.mp ofTable
    obtain ⟨redefinedHere, redefinedLater⟩ := List.forall_mem_cons.mp redefined
    rw [loadTables_cons]
    refine List.forall_mem_append.mpr
      ⟨here, List.forall_mem_append.mpr ⟨?_, ih later redefinedLater⟩⟩
    unfold problems
    split
    · rename_i holder held
      -- Who holds a name has that name.
      have sameName : holder.name = e.name := Registry.name_of_get?_eq_some held
      exact List.forall_mem_singleton.mpr (sameName ▸ redefinedHere holder.line)
    · exact fun d member => absurd member List.not_mem_nil

end Store

/-! ### Loading without errors -/

/-- The columns of a table are declared as they should: every one has a name, and no two have the
same. -/
def Markup.Element.DeclaresColumns (e : Element) : Prop :=
  (∀ col ∈ e.elementsNamed "col", (col.attribute? "name").isSome) ∧
    ((e.elementsNamed "col").filterMap (·.attribute? "name")).Nodup

instance (e : Element) : Decidable e.DeclaresColumns := inferInstanceAs (Decidable (_ ∧ _))

theorem Row.isSuccess_ignored (file table : String) (schema : Schema) (row : Element) :
    (Row.ignored file table schema row).isSuccess = true := by
  simp [Row.ignored, Diagnostics.isSuccess, Problem.severity]

theorem Table.isSuccess_load_iff {file : String} {e : Element} :
    (Table.load file e).2.isSuccess = true ↔ e.DeclaresColumns := by
  have ignored : Diagnostics.isSuccess ((e.elementsNamed "row").flatMap
      (Row.ignored file e.name (Schema.load file e.name .empty (e.elementsNamed "col")).1)) =
        true := by
    simp only [Diagnostics.isSuccess, List.all_flatMap, List.all_eq_true]
    intro row _
    simpa [Diagnostics.isSuccess] using Row.isSuccess_ignored file e.name _ row
  simp only [Table.load, Diagnostics.isSuccess_append, Bool.and_eq_true, ignored, and_true,
    Schema.isSuccess_load_iff, Registry.accepts_empty_iff]
  rfl

/-- Tables are read without an error if the columns of each are declared as they should, and the
tables can be declared one after the other. -/
theorem Store.isSuccess_loadTables_iff {file : String} {store : Store} {es : List Element} :
    (Store.loadTables file store es).2.isSuccess = true ↔
      (∀ e ∈ es, e.DeclaresColumns) ∧ store.Accepts (es.map Element.name) := by
  induction es generalizing store with
  | nil => simp [Store.loadTables, Registry.Accepts]
  | cons e es ih =>
    have sameName : Named.name (Table.load file e).1 = e.name := rfl
    have accepts : store.Accepts (e.name :: es.map Element.name) ↔ _ :=
      Registry.accepts_cons_iff (a := (Table.load file e).1)
    simp only [List.forall_mem_cons, List.map_cons, accepts, sameName]
    -- A table whose name is taken is dropped, but the problems within it are reported.
    cases taken : store.contains e.name with
    | true =>
      obtain ⟨holder, -, step⟩ := loadTables_cons_of_taken file es taken
      simp [step, Problem.severity, Diagnostics.isSuccess_append]
    | false =>
      rw [loadTables_cons_of_free taken, Diagnostics.isSuccess_append, Bool.and_eq_true, ih,
        Table.isSuccess_load_iff]
      simp only [true_and, and_assoc]

/-! ### Resolved tables -/

/-- The rows of the table have exactly its columns, in the same order. -/
def Table.Resolved (table : Table) : Prop :=
  ∀ row ∈ table.rows, row.columns = table.columns.toList.map Column.name

theorem Table.resolved_load (file : String) (e : Element) : (Table.load file e).1.Resolved := by
  intro row member
  obtain ⟨element, -, rfl⟩ := List.mem_map.mp member
  exact Row.columns_resolve _ _ _

namespace Store

variable {file : String} {store : Store} {es : List Element} {table : Table}

/-- What holds of all tables read and of all tables there before holds of all tables then in the
store. -/
theorem forall_loadTables {P : Table → Prop} (before : ∀ table ∈ store.toList, P table)
    (read : ∀ e ∈ es, P (Table.load file e).1) :
    ∀ table ∈ (loadTables file store es).1.toList, P table := by
  induction es generalizing store with
  | nil => exact before
  | cons e es ih =>
    have readFirst := read e List.mem_cons_self
    have readRest := fun other member => read other (List.mem_cons_of_mem e member)
    cases taken : store.contains e.name with
    | true =>
      obtain ⟨holder, -, step⟩ := loadTables_cons_of_taken file es taken
      rw [step]
      exact ih before readRest
    | false =>
      rw [loadTables_cons_of_free taken]
      refine ih (fun table member => ?_) readRest
      rcases List.mem_append.mp member with old | new
      · exact before table old
      · obtain rfl := List.mem_singleton.mp new
        exact readFirst

/-- Every table of a loaded store is resolved. -/
theorem resolved_of_mem_load {root : Element} (member : table ∈ (load file root).1.toList) :
    table.Resolved := by
  unfold load at member
  split at member
  · simp [Registry.toList, Registry.empty] at member
  · refine forall_loadTables (fun table old => ?_) (fun e _ => Table.resolved_load file e) table
      member
    simp [Registry.toList, Registry.empty] at old

end Store

end Stencil
