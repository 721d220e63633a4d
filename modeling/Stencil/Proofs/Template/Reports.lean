import Mathlib.Data.List.Forall2
import Stencil.Proofs.Table.Load
import Stencil.Proofs.Template.Independence

/-!
# Values do not matter to what is reported

What a template reports can depend on the tables by their names, their columns and the number of
their rows, but not on the values in them. Two runs are compared whose scopes have rows with the
same columns for the same variables; every plan is then the same up to values, and so is what it
reports. As all rows of a table have the same columns, the contents of an expansion report the same
for every row: an element that lacks something is reported once for every combination of rows.

## Main definitions

* `Store.SameShape`: stores that are the same up to the values in them
* `Store.Resembles`, `Scope.Resembles`: what the two runs have in common at every place
* `Template.Expands`: an element is carried out as an expansion over a table
* `Template.Layer`, `Template.Encloses`: elements around a place, and how often it is visited

## Main results

* `Template.plan_corresponds`: plans are the same up to values
* `Template.diagnostics_yield_eq`: what is reported is the same
* `Template.diagnostics_yieldNode_of_expands`: an expansion reports the same for every row
* `Template.diagnostics_of_sameShape`: all this for loaded stores
-/

namespace Stencil

open Markup Generated

/-! ### The same up to values -/

/-- The rows have the same columns. -/
def Row.SameColumns (row row' : Row) : Prop :=
  ∀ column, (row.get? column).isSome = (row'.get? column).isSome

/-- The tables have the same columns and equally many rows. -/
structure Table.SameShape (table table' : Table) : Prop where
  columns : ∀ column, table.columns.contains column = table'.columns.contains column
  rows : table.rows.length = table'.rows.length

/-- The stores have tables of the same names, each with the same columns and equally many rows. -/
def Store.SameShape (store store' : Store) : Prop :=
  ∀ name, Option.Rel Table.SameShape (store.get? name) (store'.get? name)

/-- The tables have the same name, and rows with the same columns, one for one. -/
structure Table.Resembles (table table' : Table) : Prop where
  name : table.name = table'.name
  rows : List.Forall₂ Row.SameColumns table.rows table'.rows

/-- The stores have resembling tables under the same names. -/
def Store.Resembles (store store' : Store) : Prop :=
  ∀ name, Option.Rel Table.Resembles (store.get? name) (store'.get? name)

/-- The bindings are to rows of tables of the same name, with the same columns. -/
structure Binding.Resembles (binding binding' : Binding) : Prop where
  table : binding.table = binding'.table
  row : binding.row.SameColumns binding'.row

/-- The same variables stand for resembling bindings. -/
def Scope.Resembles (σ τ : Scope) : Prop :=
  ∀ name, Option.Rel Binding.Resembles (σ.lookup name) (τ.lookup name)

/-- The actions are the same up to the values that they write. -/
inductive Action.Resembles : Action → Action → Prop where
  | retarget (target : Target) : Resembles (.retarget target) (.retarget target)
  | repeatRows {table table' : Table} (tables : table.Resembles table') (name : String) :
    Resembles (.repeatRows table name) (.repeatRows table' name)
  | writeValue (value value' : String) (unknown : Option String) :
    Resembles (.writeValue value unknown) (.writeValue value' unknown)
  | enumeration (name : String) : Resembles (.enumeration name) (.enumeration name)
  | array (name : String) {table table' : Table} (tables : table.Resembles table')
    (binder : String) : Resembles (.array name table binder) (.array name table' binder)

@[refl] theorem Row.SameColumns.refl (row : Row) : row.SameColumns row := fun _ => rfl

@[refl] theorem Table.Resembles.refl (table : Table) : table.Resembles table :=
  ⟨rfl, List.forall₂_same.mpr fun row _ => .refl row⟩

@[refl] theorem Store.Resembles.refl (store : Store) : store.Resembles store := by
  intro name
  cases store.get? name with
  | none => exact .none
  | some table => exact .some (.refl table)

namespace Scope.Resembles

variable {σ τ σ' τ' : Scope} {row row' : Row}

@[refl] theorem refl (σ : Scope) : σ.Resembles σ := by
  intro name
  cases σ.lookup name with
  | none => exact .none
  | some binding => exact .some ⟨rfl, .refl binding.row⟩

/-- Only the variables of the scopes matter. -/
theorem of_lookup_eq (resembles : σ.Resembles τ) (left : ∀ name, σ'.lookup name = σ.lookup name)
    (right : ∀ name, τ'.lookup name = τ.lookup name) : σ'.Resembles τ' := by
  intro name
  rw [left, right]
  exact resembles name

theorem bind (resembles : σ.Resembles τ) (binder table : String)
    (sameColumns : row.SameColumns row') :
    (σ.bind binder table row).Resembles (τ.bind binder table row') := by
  intro name
  rw [lookup_bind, lookup_bind]
  by_cases bound : binder = name
  · rw [if_pos bound, if_pos bound]
    exact .some ⟨rfl, sameColumns⟩
  · rw [if_neg bound, if_neg bound]
    exact resembles name

end Scope.Resembles

/-! ### Loaded stores -/

theorem Row.isSome_get?_iff {row : Row} {column : String} :
    (row.get? column).isSome = true ↔ column ∈ row.columns := by
  rw [Option.isSome_iff_ne_none, ne_eq, get?_eq_none_iff, Decidable.not_not]

namespace Table

variable {table table' : Table} {row row' : Row}

/-- A row of a resolved table has a value in the columns of the table. -/
theorem Resolved.isSome_get? (resolved : table.Resolved) (member : row ∈ table.rows)
    (column : String) : (row.get? column).isSome = table.columns.contains column := by
  have declared : table.columns.contains column = true ↔
      column ∈ table.columns.toList.map Column.name := Registry.contains_iff
  rw [Bool.eq_iff_iff, Row.isSome_get?_iff, resolved row member, declared]

/-- All rows of resolved tables of the same shape have the same columns. -/
theorem SameShape.sameColumns (shape : table.SameShape table') (resolved : table.Resolved)
    (resolved' : table'.Resolved) (member : row ∈ table.rows) (member' : row' ∈ table'.rows) :
    row.SameColumns row' := by
  intro column
  rw [resolved.isSome_get? member, resolved'.isSome_get? member', shape.columns]

theorem SameShape.resembles (shape : table.SameShape table') (sameName : table.name = table'.name)
    (resolved : table.Resolved) (resolved' : table'.Resolved) : table.Resembles table' := by
  refine ⟨sameName, List.forall₂_iff_get.mpr ⟨shape.rows, fun i inRange inRange' => ?_⟩⟩
  exact shape.sameColumns resolved resolved' (List.get_mem ..) (List.get_mem ..)

end Table

theorem Store.SameShape.resembles {store store' : Store} (shape : store.SameShape store')
    (resolved : ∀ table ∈ store.toList, table.Resolved)
    (resolved' : ∀ table ∈ store'.toList, table.Resolved) : store.Resembles store' := by
  intro name
  have related := shape name
  cases found : store.get? name with
  | none =>
    cases found' : store'.get? name with
    | none => exact .none
    | some table' => simp [found, found'] at related
  | some table =>
    cases found' : store'.get? name with
    | none => simp [found, found'] at related
    | some table' =>
      rw [found, found'] at related
      cases related with
      | some sameShape =>
        have sameName : table.name = table'.name :=
          (Registry.name_of_get?_eq_some found).trans (Registry.name_of_get?_eq_some found').symm
        exact .some (sameShape.resembles sameName
          (resolved table (Registry.mem_of_get?_eq_some found))
          (resolved' table' (Registry.mem_of_get?_eq_some found')))

/-! ### Plans are the same up to values -/

namespace Template

variable {store store' : Store} {σ τ : Scope} {file : String} {tag : Tag} {table : Table}
  {binder : String} {action action' : Action}

theorem requireTable_corresponds (stores : store.Resembles store') (tag : Tag) :
    Corresponds Table.Resembles (requireTable store tag) (requireTable store' tag) := by
  refine (Corresponds.refl (fun _ => rfl) _).bind ?_
  rintro name _ rfl
  have related := stores name
  generalize store.get? name = found, store'.get? name = found' at related
  cases related with
  | none => exact .error _
  | some resembles => exact .ok resembles

theorem planValue_corresponds (scopes : σ.Resembles τ) (tag : Tag) :
    Corresponds Action.Resembles (planValue σ tag) (planValue τ tag) := by
  refine (Corresponds.refl (fun _ => rfl) _).bind ?_
  rintro name _ rfl
  have related := scopes name
  generalize σ.lookup name = bound, τ.lookup name = bound' at related
  cases related with
  | none => exact .error _
  | @some binding binding' resembles =>
    refine (Corresponds.refl (fun _ => rfl) _).bind ?_
    rintro column _ rfl
    have sameColumn := resembles.row column
    -- Whether there is a value is the same for both rows, the value itself need not be.
    cases found : binding.row.get? column with
    | none =>
      cases found' : binding'.row.get? column with
      | none =>
        simp only [resembles.table]
        exact .error _
      | some value' => simp [found, found'] at sameColumn
    | some value =>
      cases found' : binding'.row.get? column with
      | none => simp [found, found'] at sameColumn
      | some value' =>
        cases tag.attribute? "transform" with
        | none => exact .ok (.writeValue _ _ none)
        | some transform =>
          simp only
          cases Transform.ofName? transform with
          | none => exact .ok (.writeValue _ _ (some transform))
          | some known => exact .ok (.writeValue _ _ none)

/-- In resembling scopes, an element lacks the same or does the same up to values. -/
theorem plan_corresponds (stores : store.Resembles store') (scopes : σ.Resembles τ) (tag : Tag) :
    Corresponds Action.Resembles (plan store σ tag) (plan store' τ tag) := by
  have tables := correspondsUnless_false_iff.mpr (requireTable_corresponds stores tag)
  have values := correspondsUnless_false_iff.mpr (planValue_corresponds scopes tag)
  exact correspondsUnless_false_iff.mp <|
    plan_correspondsUnless tables values .retarget .enumeration
      (fun _ _ name tables => .repeatRows tables name)
      (fun name _ _ binder tables => .array name tables binder)

end Template

/-! ### What an action reports -/

namespace Action

variable {file : String} {line : Nat} {scope σ τ : Scope} {action action' : Action}
  {contents contents' : Scope → Generated}

/-- What an action reports itself, whatever its contents report. -/
def warnings (file : String) (line : Nat) : Action → Diagnostics
  | writeValue _ (some unknown) => [(Problem.noSuchTransform unknown).reportAt file line]
  | retarget _ | repeatRows _ _ | writeValue _ none | enumeration _ | array _ _ _ => []

theorem diagnostics_before : (action.before file line scope).diagnostics =
    action.warnings file line := by
  cases action with
  | retarget target | repeatRows table name | enumeration name | array name table binder => rfl
  | writeValue value unknown => cases unknown <;> rfl

theorem diagnostics_between : (action.between scope).diagnostics = [] := by
  cases action <;> rfl

theorem diagnostics_after : (action.after scope).diagnostics = [] := by
  cases action <;> rfl

/-- An action reports what it reports itself, and then what its contents report, round by round. -/
theorem diagnostics_fill :
    (action.fill file line scope contents).diagnostics =
      action.warnings file line ++
        action.rounds.flatMap fun derive => (contents (derive scope)).diagnostics := by
  rw [fill, diagnostics_append, diagnostics_append, diagnostics_before, diagnostics_after,
    diagnostics_intersperse diagnostics_between, List.append_nil, List.flatMap_map]

theorem Resembles.warnings_eq (resembles : action.Resembles action') :
    action.warnings file line = action'.warnings file line := by
  cases resembles with
  | writeValue value value' unknown => cases unknown <;> rfl
  | retarget target | repeatRows tables name | enumeration name | array name tables binder => rfl

/-- Resembling actions take resembling rounds: where the scopes around them resemble each other, so
do those of the contents. -/
theorem Resembles.rounds (resembles : action.Resembles action') (scopes : σ.Resembles τ) :
    List.Forall₂ (fun derive derive' => (derive σ).Resembles (derive' τ)) action.rounds
      action'.rounds := by
  cases resembles with
  | retarget target =>
    have retargeted : (σ.withTarget target).Resembles (τ.withTarget target) :=
      scopes.of_lookup_eq (fun _ => rfl) fun _ => rfl
    exact .cons retargeted .nil
  | writeValue value value' unknown => exact .nil
  | enumeration name =>
    have retargeted : σ.onlyHeader.Resembles τ.onlyHeader :=
      scopes.of_lookup_eq (fun _ => rfl) fun _ => rfl
    exact .cons retargeted .nil
  | @repeatRows table table' tables name =>
    rw [Action.rounds, Action.rounds, List.forall₂_map_left_iff, List.forall₂_map_right_iff]
    refine tables.rows.imp fun row row' sameColumns => ?_
    rw [tables.name]
    exact scopes.bind name table'.name sameColumns
  | @array name table table' tables binder =>
    have inside : (σ.onlySource.withSeparator Template.itemSeparator).Resembles
        (τ.onlySource.withSeparator Template.itemSeparator) :=
      scopes.of_lookup_eq (fun _ => rfl) fun _ => rfl
    rw [Action.rounds, Action.rounds, List.forall₂_map_left_iff, List.forall₂_map_right_iff]
    refine tables.rows.imp fun row row' sameColumns => ?_
    rw [tables.name]
    exact inside.bind binder table'.name sameColumns

end Action

/-! ### What a template reports -/

theorem flatMap_eq_of_forall₂ {α β γ : Type} {R : α → β → Prop} {l : List α} {l' : List β}
    {f : α → List γ} {g : β → List γ} (related : List.Forall₂ R l l')
    (same : ∀ a b, R a b → f a = g b) : l.flatMap f = l'.flatMap g := by
  induction related with
  | nil => rfl
  | cons first _ ih => rw [List.flatMap_cons, List.flatMap_cons, same _ _ first, ih]

theorem flatMap_eq_flatten_replicate {α β : Type} {l : List α} {f : α → List β} {once : List β}
    (same : ∀ a ∈ l, f a = once) : l.flatMap f = (List.replicate l.length once).flatten := by
  rw [List.flatMap_def, List.map_eq_replicate_iff.mpr same]

namespace Template

variable {store store' : Store} {σ τ scope : Scope} {file : String} {tag : Tag} {table : Table}
  {binder : String} {action : Action} {nodes children inner inner' : List Node}
  {derive derive' : Scope → Scope}

theorem diagnostics_yield : (yield file store σ nodes).diagnostics =
    nodes.flatMap fun node => (yieldNode file store σ node).diagnostics := by
  have silent : ({} : Generated).diagnostics = [] := rfl
  rw [yield_eq_intersperse, diagnostics_intersperse silent, List.flatMap_map]

/-- In resembling scopes, a node reports the same. -/
theorem diagnostics_yieldNode_eq (file : String) (stores : store.Resembles store')
    (scopes : σ.Resembles τ) (node : Node) :
    (yieldNode file store σ node).diagnostics = (yieldNode file store' τ node).diagnostics := by
  induction node generalizing σ τ with
  | text value line => rw [yieldNode_text, yieldNode_text]; rfl
  | element tag children ih =>
    have plans := plan_corresponds stores scopes tag
    generalize planned : plan store σ tag = result, planned' : plan store' τ tag = result' at plans
    cases plans with
    | error problem => rw [yieldNode_of_lacking planned, yieldNode_of_lacking planned']
    | ok resembles =>
      rw [yieldNode_of_planned planned, yieldNode_of_planned planned', Action.diagnostics_fill,
        Action.diagnostics_fill, resembles.warnings_eq]
      congr 1
      -- The rounds come in pairs, and what is assumed of the scopes is kept by each pair.
      refine flatMap_eq_of_forall₂ (resembles.rounds scopes) fun derive derive' inside => ?_
      rw [diagnostics_yield, diagnostics_yield, List.flatMap_def, List.flatMap_def]
      exact congrArg List.flatten (List.map_congr_left fun child member => ih child member inside)

/-- In resembling scopes, nodes report the same. -/
theorem diagnostics_yield_eq (file : String) (stores : store.Resembles store')
    (scopes : σ.Resembles τ) (nodes : List Node) :
    (yield file store σ nodes).diagnostics = (yield file store' τ nodes).diagnostics := by
  rw [diagnostics_yield, diagnostics_yield, List.flatMap_def, List.flatMap_def]
  exact congrArg List.flatten (List.map_congr_left fun node _ =>
    diagnostics_yieldNode_eq file stores scopes node)

/-! ### Every row reports the same -/

/-- Any two rounds of a planned element lead to resembling scopes. -/
theorem resembles_of_mem_rounds (resolved : ∀ table ∈ store.toList, table.Resolved)
    (planned : plan store scope tag = .ok action) (member : derive ∈ action.rounds)
    (member' : derive' ∈ action.rounds) (scopes : σ.Resembles τ) :
    (derive σ).Resembles (derive' τ) := by
  have sameColumns {table : Table} {name : String} (stored : store.get? name = some table)
      {row row' : Row} (inTable : row ∈ table.rows) (inTable' : row' ∈ table.rows) :
      row.SameColumns row' := by
    have ofTable := resolved table (Registry.mem_of_get?_eq_some stored)
    have shape : table.SameShape table := ⟨fun _ => rfl, rfl⟩
    exact shape.sameColumns ofTable ofTable inTable inTable'
  cases plan_eq_ok_iff.mp planned with
  | source given | header given | enum given named =>
    obtain rfl := List.mem_singleton.mp member
    obtain rfl := List.mem_singleton.mp member'
    exact scopes.of_lookup_eq (fun _ => rfl) fun _ => rfl
  | var given named bound inColumn found => simp [Action.rounds] at member
  | expand given reads stored binds =>
    obtain ⟨row, inTable, rfl⟩ := List.mem_map.mp member
    obtain ⟨row', inTable', rfl⟩ := List.mem_map.mp member'
    exact scopes.bind _ _ (sameColumns stored inTable inTable')
  | expandData given named reads stored binds =>
    obtain ⟨row, inTable, rfl⟩ := List.mem_map.mp member
    obtain ⟨row', inTable', rfl⟩ := List.mem_map.mp member'
    have inside : (σ.onlySource.withSeparator itemSeparator).Resembles
        (τ.onlySource.withSeparator itemSeparator) :=
      scopes.of_lookup_eq (fun _ => rfl) fun _ => rfl
    exact inside.bind _ _ (sameColumns stored inTable inTable')

/-- A planned element with a round reports what its contents report in it, once per round. -/
theorem diagnostics_yieldNode_of_mem_rounds (file : String)
    (resolved : ∀ table ∈ store.toList, table.Resolved)
    (planned : plan store σ tag = .ok action) (member : derive ∈ action.rounds) :
    (yieldNode file store σ (.element tag children)).diagnostics =
      (List.replicate action.rounds.length
        (yield file store (derive σ) children).diagnostics).flatten := by
  have silent : action.warnings file tag.line = [] := by
    cases action with
    | writeValue value unknown => simp [Action.rounds] at member
    | retarget target | repeatRows table name | enumeration name | array name table binder => rfl
  rw [yieldNode_of_planned planned, Action.diagnostics_fill, silent, List.nil_append]
  refine flatMap_eq_flatten_replicate fun derive' member' => ?_
  exact diagnostics_yield_eq file (.refl store)
    (resembles_of_mem_rounds resolved planned member' member (.refl σ)) children

/-- The element is carried out as an expansion over the table, whose rows it binds to a variable:
it is an `expand` or `expand_data` element that has all it needs. -/
structure Expands (store : Store) (tag : Tag) (table : Table) (binder : String) : Prop where
  directive : tag.name = "expand" ∨ tag.name = "expand_data" ∧ (tag.attribute? "name").isSome
  reads : ∃ tableName, tag.attribute? "table" = some tableName ∧ store.get? tableName = some table
  binds : tag.attribute? "var" = some binder

theorem Expands.planned (expands : Expands store tag table binder) (scope : Scope) :
    plan store scope tag = .ok (.repeatRows table binder) ∨
      ∃ name, plan store scope tag = .ok (.array name table binder) := by
  obtain ⟨tableName, reads, stored⟩ := expands.reads
  simp only [plan_eq_ok_iff]
  rcases expands.directive with tagged | ⟨tagged, named⟩
  · exact .inl (.expand (Directive.ofTag?_eq_some_iff.mpr tagged) reads stored expands.binds)
  · obtain ⟨name, isName⟩ := Option.isSome_iff_exists.mp named
    exact .inr ⟨name, .expandData (Directive.ofTag?_eq_some_iff.mpr tagged) isName reads stored
      expands.binds⟩

/-- An expansion reports what its contents report for any one row, once per row. -/
theorem diagnostics_yieldNode_of_expands (file : String) (σ : Scope) (body : List Node)
    (resolved : ∀ table ∈ store.toList, table.Resolved)
    (expands : Expands store tag table binder) {row : Row} (inTable : row ∈ table.rows) :
    (yieldNode file store σ (.element tag body)).diagnostics =
      (List.replicate table.rows.length
        (yield file store (σ.bind binder table.name row) body).diagnostics).flatten := by
  rcases expands.planned σ with planned | ⟨name, planned⟩
  · have member := List.mem_map_of_mem (f := fun row (scope : Scope) =>
      scope.bind binder table.name row) inTable
    rw [diagnostics_yieldNode_of_mem_rounds file resolved planned member, Action.rounds,
      List.length_map]
  · have member := List.mem_map_of_mem (f := fun row (scope : Scope) =>
      (scope.onlySource.withSeparator itemSeparator).bind binder table.name row) inTable
    -- The body of an array is written elsewhere, but it has the same variables.
    have inside : (σ.onlySource.withSeparator itemSeparator).Resembles σ :=
      (Scope.Resembles.refl σ).of_lookup_eq (fun _ => rfl) fun _ => rfl
    rw [diagnostics_yieldNode_of_mem_rounds file resolved planned member, Action.rounds,
      List.length_map, diagnostics_yield_eq file (.refl store)
        (inside.bind binder table.name (.refl row)) body]

theorem diagnostics_yieldNode_of_no_rows (file : String) (σ : Scope) (body : List Node)
    (expands : Expands store tag table binder) (noRows : table.rows = []) :
    (yieldNode file store σ (.element tag body)).diagnostics = [] := by
  rcases expands.planned σ with planned | ⟨name, planned⟩ <;>
    simp [yieldNode_of_planned planned, Action.diagnostics_fill, Action.warnings, Action.rounds,
      noRows]

/-! ### Once for every combination of rows -/

/-- An element around a place, with its siblings on either side. -/
structure Layer where
  before : List Node
  tag : Tag
  after : List Node

/-- Nodes with layers around them, the outermost one first. -/
def enclose : List Layer → List Node → List Node
  | [], nodes => nodes
  | layer :: layers, nodes =>
    layer.before ++ .element layer.tag (enclose layers nodes) :: layer.after

end Template

/-- How often an action expands its contents: an expansion does so for each row of its table. -/
def Action.roundCount : Action → Nat
  | repeatRows table _ | array _ table _ => table.rows.length
  | retarget _ | enumeration _ => 1
  | writeValue _ _ => 0

theorem Action.length_rounds (action : Action) : action.rounds.length = action.roundCount := by
  cases action <;> simp [rounds, roundCount]

namespace Template

variable {store : Store} {σ τ : Scope} {file : String} {layers : List Layer}
  {inner inner' : List Node} {count each : Nat}

/-- Within the layers, carried out in the scope `σ`, a place is reached in the scope `τ`; with all
rounds of all layers it is visited `count` times. -/
inductive Encloses (store : Store) : List Layer → Scope → Scope → Nat → Prop where
  | here (σ : Scope) : Encloses store [] σ σ 1
  | within {layer : Layer} {layers : List Layer} {σ τ : Scope} {action : Action}
    {derive : Scope → Scope} {count : Nat} (planned : plan store σ layer.tag = .ok action)
    (round : derive ∈ action.rounds) (rest : Encloses store layers (derive σ) τ count) :
    Encloses store (layer :: layers) σ τ (action.roundCount * count)

/-- What the innermost nodes report more often than others in a scope in which they are reached, the
whole reports more often by as many times as they are visited. -/
theorem count_diagnostics_enclose (d : Diagnostic)
    (resolved : ∀ table ∈ store.toList, table.Resolved) (encloses : Encloses store layers σ τ count)
    (more : (yield file store τ inner).diagnostics.count d =
      (yield file store τ inner').diagnostics.count d + each) :
    (yield file store σ (enclose layers inner)).diagnostics.count d =
      (yield file store σ (enclose layers inner')).diagnostics.count d + count * each := by
  induction encloses with
  | here σ => rw [enclose, enclose, more, Nat.one_mul]
  | @within layer layers σ τ action derive count planned round rest ih =>
    have ofElement (nodes : List Node) :
        (yieldNode file store σ (.element layer.tag nodes)).diagnostics.count d =
          action.roundCount * (yield file store (derive σ) nodes).diagnostics.count d := by
      rw [diagnostics_yieldNode_of_mem_rounds file resolved planned round, List.count_flatten,
        List.map_replicate, List.sum_replicate_nat, Action.length_rounds]
    simp only [enclose, yield_append, yield_cons, diagnostics_append, List.count_append, ofElement,
      ih more, Nat.mul_add, Nat.mul_assoc]
    omega

/-- An element that lacks something is reported as often as it is visited. -/
theorem count_diagnostics_lacking {tag : Tag} {problem : Problem} (file : String)
    (resolved : ∀ table ∈ store.toList, table.Resolved) (encloses : Encloses store layers σ τ count)
    (lacking : plan store τ tag = .error problem) (children before after : List Node) :
    (yield file store σ
        (enclose layers (before ++ .element tag children :: after))).diagnostics.count
          (problem.reportAt file tag.line) =
      (yield file store σ (enclose layers (before ++ after))).diagnostics.count
        (problem.reportAt file tag.line) + count := by
  have once : (yield file store τ (before ++ .element tag children :: after)).diagnostics.count
        (problem.reportAt file tag.line) =
      (yield file store τ (before ++ after)).diagnostics.count
        (problem.reportAt file tag.line) + 1 := by
    simp only [yield_append, yield_cons, yieldNode_of_lacking lacking, ofProblem,
      diagnostics_append, List.count_append, List.count_singleton_self]
    omega
  rw [count_diagnostics_enclose _ resolved encloses once, Nat.mul_one]

/-- **Values do not matter to what is reported.** A template reports the same for any two loaded
stores with the same tables, columns and numbers of rows. An expansion reports what its contents
report for any one row, once per row, and nothing if there are no rows. So an element that lacks
something is reported once for every combination of rows of the expansions around it. -/
theorem diagnostics_of_sameShape (origin : String) (root : Element) :
    let store := (Store.load origin root).1
    (∀ (origin' : String) (root' : Element), store.SameShape (Store.load origin' root').1 →
      ∀ (file : String) (template : Element),
        (run file store template).diagnostics =
          (run file (Store.load origin' root').1 template).diagnostics) ∧
    (∀ (tag : Tag) (table : Table) (binder : String), Expands store tag table binder →
      ∀ (file : String) (σ : Scope) (body : List Node) (out : Streams),
        ∃ once : Diagnostics,
          (∀ row ∈ table.rows, ∀ out',
            (expand file store (σ.bind binder table.name row) body out').2 = once) ∧
          (expandNode file store σ (.element tag body) out).2 =
            (List.replicate table.rows.length once).flatten) ∧
    ∀ (layers : List Layer) (σ τ : Scope) (count : Nat), Encloses store layers σ τ count →
      ∀ (tag : Tag) (problem : Problem), plan store τ tag = .error problem →
        ∀ (file : String) (children before after : List Node) (out : Streams),
          (expand file store σ
              (enclose layers (before ++ .element tag children :: after)) out).2.count
            (problem.reportAt file tag.line) =
          (expand file store σ (enclose layers (before ++ after)) out).2.count
            (problem.reportAt file tag.line) + count := by
  intro store
  have resolved : ∀ table ∈ store.toList, table.Resolved := fun _ => Store.resolved_of_mem_load
  refine ⟨?_, ?_, ?_⟩
  · intro origin' root' shape file template
    have stores := shape.resembles resolved fun _ => Store.resolved_of_mem_load
    rw [run_eq_yield, run_eq_yield]
    exact diagnostics_yield_eq file stores (.refl {}) template.children
  · intro tag table binder expands file σ body out
    simp only [emits_expand file store _ body _, emits_expandNode file store σ _ out, onto]
    cases rows : table.rows with
    | nil =>
      refine ⟨[], by simp, ?_⟩
      rw [diagnostics_yieldNode_of_no_rows file σ body expands rows]
      rfl
    | cons first others =>
      have inTable : first ∈ table.rows := rows ▸ List.mem_cons_self
      refine ⟨(yield file store (σ.bind binder table.name first) body).diagnostics,
        fun row member out' => ?_, ?_⟩
      · obtain ⟨tableName, -, stored⟩ := expands.reads
        have ofTable := resolved table (Registry.mem_of_get?_eq_some stored)
        have shape : table.SameShape table := ⟨fun _ => rfl, rfl⟩
        have sameColumns := shape.sameColumns ofTable ofTable (rows ▸ member) inTable
        exact diagnostics_yield_eq file (.refl store)
          ((Scope.Resembles.refl σ).bind binder table.name sameColumns) body
      · rw [diagnostics_yieldNode_of_expands file σ body resolved expands inTable, rows]
  · intro layers σ τ count encloses tag problem lacking file children before after out
    rw [emits_expand file store σ _ out, emits_expand file store σ _ out]
    exact count_diagnostics_lacking file resolved encloses lacking children before after

end Template

namespace Sample

/-- A document with a table like that of colours, but other values and defaults. -/
def greys : Element :=
  ⟨⟨"root", [], 1⟩,
    [.element ⟨"tables", [], 1⟩
      [.element ⟨"Color", [], 2⟩
        [.element ⟨"row", [("hex", "000000")], 3⟩ [],
         .element ⟨"row", [("name", "White"), ("hex", "FFFFFF")], 4⟩ [],
         .element ⟨"col", [("name", "hex"), ("default", "808080")], 5⟩ [],
         .element ⟨"col", [("name", "name"), ("default", "Grey")], 6⟩ []]]]⟩

/-- An array of colours, with the variable `d`. -/
def arrayOfColors : Tag := ⟨"expand_data", [("name", "n"), ("table", "Color"), ("var", "d")], 9⟩

/-- An element that refers to a column that there is not. -/
def noSuchShade : Tag := ⟨"var", [("name", "d"), ("col", "shade")], 10⟩

/-- An array within an expansion, both over the colours. -/
def arrays : List Template.Layer :=
  [⟨[.text "x" 8], ⟨"expand", [("table", "Color"), ("var", "c")], 8⟩, []⟩,
   ⟨[], arrayOfColors, [.text "y" 9]⟩]

/-- The table of colours. -/
def colorTable : Table := (Table.load "colors.xml" colors).1

/-- The first row of the table. -/
def red : Row := ⟨[("name", "Red"), ("hex", "FF0000")], 5⟩

/-- The scope within the arrays, at the first row of both. -/
def withinArrays : Scope :=
  ((({} : Scope).bind "c" "Color" red).onlySource.withSeparator Template.itemSeparator).bind "d"
    "Color" red

end Sample

namespace Template

theorem diagnostics_of_sameShape_greys :
    (Sample.store.SameShape (Store.load "greys.xml" Sample.greys).1 ∧
      (run "a.xml" Sample.store ⟨⟨"gen", [], 7⟩, Sample.pairs⟩).diagnostics =
        (run "a.xml" (Store.load "greys.xml" Sample.greys).1
          ⟨⟨"gen", [], 7⟩, Sample.pairs⟩).diagnostics) ∧
    (Expands Sample.store Sample.arrayOfColors Sample.colorTable "d" ∧
      ∃ once : Diagnostics, (expandNode "a.xml" Sample.store {}
        (.element Sample.arrayOfColors Sample.pairs) {}).2 = (List.replicate 2 once).flatten) ∧
    (Encloses Sample.store Sample.arrays {} Sample.withinArrays 4 ∧
      plan Sample.store Sample.withinArrays Sample.noSuchShade =
        .error (.noSuchColumn "shade" "d" "Color") ∧
      (expand "a.xml" Sample.store {} (enclose Sample.arrays
        [.element Sample.noSuchShade []]) {}).2.count
          ((Problem.noSuchColumn "shade" "d" "Color").reportAt "a.xml" 10) =
        (expand "a.xml" Sample.store {} (enclose Sample.arrays []) {}).2.count
          ((Problem.noSuchColumn "shade" "d" "Color").reportAt "a.xml" 10) + 4) := by
  obtain ⟨sameReports, perRow, perCombination⟩ :=
    diagnostics_of_sameShape "colors.xml" Sample.document
  have shape : Sample.store.SameShape (Store.load "greys.xml" Sample.greys).1 := by
    intro name
    by_cases isColor : name = "Color"
    · subst isColor
      refine .some ⟨fun column => ?_, rfl⟩
      rw [Bool.eq_iff_iff, Registry.contains_iff, Registry.contains_iff]
      change column ∈ ["name", "hex"] ↔ column ∈ ["hex", "name"]
      rw [List.mem_pair, List.mem_pair, or_comm]
    · have absent (store : Store) (names : store.toList.map Table.name = ["Color"]) :
          store.get? name = none := by
        rw [← Option.not_isSome_iff_eq_none, ← Registry.contains_eq_isSome_get?,
          Registry.contains_iff]
        exact fun member => isColor (List.mem_singleton.mp (names ▸ member))
      rw [absent Sample.store rfl, absent _ rfl]
      exact .none
  have expands : Expands Sample.store Sample.arrayOfColors Sample.colorTable "d" :=
    ⟨.inr ⟨rfl, rfl⟩, ⟨"Color", rfl, rfl⟩, rfl⟩
  have encloses : Encloses Sample.store Sample.arrays {} Sample.withinArrays 4 := by
    have outer : plan Sample.store {} ⟨"expand", [("table", "Color"), ("var", "c")], 8⟩ =
        .ok (.repeatRows Sample.colorTable "c") := rfl
    have outerRound : (fun scope : Scope => scope.bind "c" "Color" Sample.red) ∈
        (Action.repeatRows Sample.colorTable "c").rounds := List.mem_cons_self
    have inner (scope : Scope) : plan Sample.store scope Sample.arrayOfColors =
        .ok (.array "n" Sample.colorTable "d") := rfl
    have innerRound : (fun scope : Scope => (scope.onlySource.withSeparator itemSeparator).bind "d"
        "Color" Sample.red) ∈ (Action.array "n" Sample.colorTable "d").rounds := List.mem_cons_self
    exact .within outer outerRound (.within (inner _) innerRound (.here _))
  have lacking : plan Sample.store Sample.withinArrays Sample.noSuchShade =
      .error (.noSuchColumn "shade" "d" "Color") := rfl
  obtain ⟨once, -, reports⟩ :=
    perRow Sample.arrayOfColors Sample.colorTable "d" expands "a.xml" {} Sample.pairs {}
  exact ⟨⟨shape, sameReports "greys.xml" Sample.greys shape "a.xml" _⟩, ⟨expands, once, reports⟩,
    encloses, lacking, perCombination _ _ _ _ encloses _ _ lacking "a.xml" [] [] [] {}⟩

end Template

end Stencil
