import Stencil.Proofs.Table.Load
import Stencil.Proofs.Template.Plan

/-!
# What can be told without rows

Whether an element of a template lacks something can be told from the tables of the store and from
the variables bound around it, each known by the table whose rows it stands for: all rows of a table
have the same columns. An environment is what is known of a scope in this way.

## Main definitions

* `Environment`: the variables bound at a place, with their tables
* `Template.Fails`: an element that lacks something at a place
* `Template.inside?`: the environment of the contents of an element, if they are expanded at all
* `Environment.Describes`: the variables of a scope stand for rows of the tables told

## Main results

* `Template.exists_planned_iff`: an element can be carried out exactly if it does not fail
* `Template.rounds_eq_nil_iff`, `Template.describes_of_mem_rounds`: in which scopes its contents
  are expanded then
-/

namespace Stencil

open Markup

/-- The attributes that a directive cannot do without. -/
def Directive.required : Directive → List String
  | source | header => []
  | enum => ["name"]
  | var => ["name", "col"]
  | expand => ["table", "var"]
  | expandData => ["name", "table", "var"]

/-- The variables bound at a place of a template, the innermost one first, each with the table whose
rows it stands for. -/
abbrev Environment := List (String × Table)

namespace Template

/-- The element is no directive. -/
def IsUnknown (tag : Tag) : Prop := Directive.ofTag? tag.name = none

/-- The element lacks an attribute that its directive needs. -/
def LacksAttribute (tag : Tag) : Prop :=
  ∃ directive ∈ Directive.ofTag? tag.name, ∃ key ∈ directive.required, tag.attribute? key = none

/-- The element expands a table that is not in the store. -/
def LacksTable (store : Store) (tag : Tag) : Prop :=
  (Directive.ofTag? tag.name = some .expand ∨ Directive.ofTag? tag.name = some .expandData) ∧
    ∃ name ∈ tag.attribute? "table", store.get? name = none

/-- The element refers to a variable that is not bound. -/
def LacksBinding (env : Environment) (tag : Tag) : Prop :=
  Directive.ofTag? tag.name = some .var ∧ ∃ name ∈ tag.attribute? "name", env.lookup name = none

/-- The element refers to a column that the table of its variable does not have. -/
def LacksColumn (env : Environment) (tag : Tag) : Prop :=
  Directive.ofTag? tag.name = some .var ∧ ∃ name ∈ tag.attribute? "name",
    ∃ table ∈ env.lookup name, ∃ column ∈ tag.attribute? "col",
      table.columns.contains column = false

instance (tag : Tag) : Decidable (IsUnknown tag) := inferInstanceAs (Decidable (_ = _))

instance (tag : Tag) : Decidable (LacksAttribute tag) :=
  inferInstanceAs (Decidable (∃ directive ∈ Directive.ofTag? tag.name, _))

instance (store : Store) (tag : Tag) : Decidable (LacksTable store tag) :=
  inferInstanceAs (Decidable (_ ∧ _))

instance (env : Environment) (tag : Tag) : Decidable (LacksBinding env tag) :=
  inferInstanceAs (Decidable (_ ∧ _))

instance (env : Environment) (tag : Tag) : Decidable (LacksColumn env tag) :=
  inferInstanceAs (Decidable (_ ∧ _))

/-- The element fails on its own account at a place where the variables `env` are bound. -/
def Fails (store : Store) (env : Environment) (tag : Tag) : Prop :=
  IsUnknown tag ∨ LacksAttribute tag ∨ LacksTable store tag ∨ LacksBinding env tag ∨
    LacksColumn env tag

instance (store : Store) (env : Environment) (tag : Tag) : Decidable (Fails store env tag) :=
  inferInstanceAs (Decidable (_ ∨ _))

/-- The environment of the contents of an element that does not fail, if they are expanded at all:
those of a `var` element are not, nor are those of an expansion over a table without rows. -/
def inside? (store : Store) (env : Environment) (tag : Tag) : Option Environment :=
  match Directive.ofTag? tag.name with
  | some .source | some .header | some .enum => some env
  | some .expand | some .expandData =>
    match (tag.attribute? "table").bind store.get?, tag.attribute? "var" with
    | some table, some name => if table.rows.isEmpty then none else some ((name, table) :: env)
    | _, _ => none
  | some .var | none => none

end Template

/-- The environment tells the variables of the scope, and the columns of the rows they stand for. -/
def Environment.Describes (env : Environment) (scope : Scope) : Prop :=
  ∀ name, Option.Rel
    (fun table binding => binding.row.columns = table.columns.toList.map Column.name)
    (env.lookup name) (scope.lookup name)

namespace Environment.Describes

variable {env : Environment} {scope scope' : Scope} {table : Table} {row : Row}
  {name column : String}

theorem empty : Describes [] {} := fun _ => .none

/-- Only the variables of a scope matter. -/
theorem of_lookup_eq (describes : env.Describes scope)
    (same : ∀ name, scope'.lookup name = scope.lookup name) : env.Describes scope' := by
  intro name
  rw [same]
  exact describes name

theorem bind (describes : env.Describes scope) (tableName : String)
    (resolved : row.columns = table.columns.toList.map Column.name) :
    Describes ((name, table) :: env) (scope.bind name tableName row) := by
  intro other
  rw [Scope.lookup_bind]
  by_cases same : name = other
  · subst same
    simpa using Option.Rel.some resolved
  · simpa [List.lookup_cons, beq_false_of_ne (Ne.symm same), same] using describes other

/-- A value can be found in the scope exactly if the variable and the column are told. -/
theorem exists_value_iff (describes : env.Describes scope) :
    (∃ binding, scope.lookup name = some binding ∧
        ∃ value, binding.row.get? column = some value) ↔
      ∃ table, env.lookup name = some table ∧ table.columns.contains column = true := by
  have related := describes name
  cases told : env.lookup name with
  | none =>
    cases bound : scope.lookup name with
    | none => simp
    | some binding => simp [told, bound] at related
  | some table =>
    cases bound : scope.lookup name with
    | none => simp [told, bound] at related
    | some binding =>
      rw [told, bound] at related
      -- The environment tells the columns of the row, though not its values.
      cases related with
      | some sameColumns =>
        have found : (∃ value, binding.row.get? column = some value) ↔
            column ∈ binding.row.columns := by
          rw [← Option.ne_none_iff_exists', ne_eq, Row.get?_eq_none_iff, Decidable.not_not]
        have declared : table.columns.contains column = true ↔
            column ∈ table.columns.toList.map Column.name := Registry.contains_iff
        simp only [Option.some.injEq, exists_eq_left', found, declared, sameColumns]

end Environment.Describes

namespace Template

variable {store : Store} {env inner : Environment} {scope : Scope} {tag : Tag} {action : Action}
  {directive : Directive} {key : String}

theorem exists_attribute_of_not_fails (passes : ¬ Fails store env tag)
    (known : Directive.ofTag? tag.name = some directive) (needed : key ∈ directive.required) :
    ∃ value, tag.attribute? key = some value := by
  refine Option.ne_none_iff_exists'.mp fun missing => passes ?_
  exact .inr (.inl ⟨directive, known, key, needed, missing⟩)

theorem exists_table_of_not_fails (passes : ¬ Fails store env tag)
    (expands : Directive.ofTag? tag.name = some .expand ∨
      Directive.ofTag? tag.name = some .expandData)
    {name : String} (reads : tag.attribute? "table" = some name) :
    ∃ table, store.get? name = some table := by
  refine Option.ne_none_iff_exists'.mp fun missing => passes ?_
  exact .inr (.inr (.inl ⟨expands, name, reads, missing⟩))

/-- What an element refers to is told if it does not fail. -/
theorem exists_column_of_not_fails (passes : ¬ Fails store env tag)
    (refers : Directive.ofTag? tag.name = some .var) {name column : String}
    (named : tag.attribute? "name" = some name) (inColumn : tag.attribute? "col" = some column) :
    ∃ table, env.lookup name = some table ∧ table.columns.contains column = true := by
  cases told : env.lookup name with
  | none => exact absurd (.inr (.inr (.inr (.inl ⟨refers, name, named, told⟩)))) passes
  | some table =>
    refine ⟨table, rfl, ?_⟩
    cases has : table.columns.contains column with
    | true => rfl
    | false =>
      have lacks : LacksColumn env tag :=
        ⟨refers, name, named, table, told, column, inColumn, has⟩
      exact absurd (.inr (.inr (.inr (.inr lacks)))) passes

theorem has_required_of_planned (planned : Planned store scope tag action)
    (known : Directive.ofTag? tag.name = some directive) :
    ∀ key ∈ directive.required, (tag.attribute? key).isSome := by
  cases planned with
  | source given | header given =>
    obtain rfl := Option.some.inj (given.symm.trans known)
    simp [Directive.required]
  | enum given named =>
    obtain rfl := Option.some.inj (given.symm.trans known)
    simp [Directive.required, named]
  | expand given reads stored binds =>
    obtain rfl := Option.some.inj (given.symm.trans known)
    simp [Directive.required, reads, binds]
  | expandData given named reads stored binds =>
    obtain rfl := Option.some.inj (given.symm.trans known)
    simp [Directive.required, named, reads, binds]
  | var given named bound inColumn found =>
    obtain rfl := Option.some.inj (given.symm.trans known)
    simp [Directive.required, named, inColumn]

/-- An element that can be carried out does not fail on its own account. -/
theorem not_fails_of_planned (describes : env.Describes scope)
    (planned : Planned store scope tag action) : ¬ Fails store env tag := by
  -- Each cause of a failure contradicts something a plan is made from.
  rintro (unknown | lacksAttribute | lacksTable | lacksBinding | lacksColumn)
  · cases planned <;> simp_all [IsUnknown]
  · obtain ⟨directive, known, key, needed, missing⟩ := lacksAttribute
    simpa [missing] using has_required_of_planned planned known key needed
  · obtain ⟨expands, name, reads, missing⟩ := lacksTable
    cases planned <;> simp_all
  · obtain ⟨refers, name, named, untold⟩ := lacksBinding
    cases planned with
    | var _ named' bound _ found =>
      obtain rfl := Option.some.inj (named'.symm.trans named)
      obtain ⟨table, told, -⟩ := describes.exists_value_iff.mp ⟨_, bound, _, found⟩
      simp [told] at untold
    | _ => simp_all
  · obtain ⟨refers, name, named, table, told, column, inColumn, hasNot⟩ := lacksColumn
    cases planned with
    | var _ named' bound inColumn' found =>
      obtain rfl := Option.some.inj (named'.symm.trans named)
      obtain rfl := Option.some.inj (inColumn'.symm.trans inColumn)
      obtain ⟨other, told', has⟩ := describes.exists_value_iff.mp ⟨_, bound, _, found⟩
      obtain rfl := Option.some.inj (told'.symm.trans told)
      simp [has] at hasNot
    | _ => simp_all

/-- An element that does not fail on its own account can be carried out. -/
theorem exists_planned_of_not_fails (describes : env.Describes scope)
    (passes : ¬ Fails store env tag) : ∃ action, Planned store scope tag action := by
  have given {directive : Directive} (known : Directive.ofTag? tag.name = some directive)
      (key : String) (needed : key ∈ directive.required) :=
    exists_attribute_of_not_fails passes known needed
  cases known : Directive.ofTag? tag.name with
  | none => exact absurd (.inl known) passes
  | some directive =>
    cases directive with
    | source => exact ⟨_, .source known⟩
    | header => exact ⟨_, .header known⟩
    | enum =>
      obtain ⟨name, named⟩ := given known "name" (by decide)
      exact ⟨_, .enum known named⟩
    | expand =>
      obtain ⟨tableName, reads⟩ := given known "table" (by decide)
      obtain ⟨binder, binds⟩ := given known "var" (by decide)
      obtain ⟨table, stored⟩ := exists_table_of_not_fails passes (.inl known) reads
      exact ⟨_, .expand known reads stored binds⟩
    | expandData =>
      obtain ⟨name, named⟩ := given known "name" (by decide)
      obtain ⟨tableName, reads⟩ := given known "table" (by decide)
      obtain ⟨binder, binds⟩ := given known "var" (by decide)
      obtain ⟨table, stored⟩ := exists_table_of_not_fails passes (.inr known) reads
      exact ⟨_, .expandData known named reads stored binds⟩
    | var =>
      obtain ⟨name, named⟩ := given known "name" (by decide)
      obtain ⟨column, inColumn⟩ := given known "col" (by decide)
      obtain ⟨binding, bound, value, found⟩ := describes.exists_value_iff.mpr
        (exists_column_of_not_fails passes known named inColumn)
      exact ⟨_, .var known named bound inColumn found⟩

/-- An element can be carried out exactly if it does not fail on its own account. -/
theorem exists_planned_iff (describes : env.Describes scope) :
    (∃ action, plan store scope tag = .ok action) ↔ ¬ Fails store env tag := by
  simp only [plan_eq_ok_iff]
  exact ⟨fun ⟨_, planned⟩ => not_fails_of_planned describes planned,
    exists_planned_of_not_fails describes⟩

theorem inside?_of_expanding {tableName binder : String} {table : Table}
    (expands : Directive.ofTag? tag.name = some .expand ∨
      Directive.ofTag? tag.name = some .expandData)
    (reads : tag.attribute? "table" = some tableName) (stored : store.get? tableName = some table)
    (binds : tag.attribute? "var" = some binder) :
    inside? store env tag =
      if table.rows.isEmpty then none else some ((binder, table) :: env) := by
  rcases expands with given | given <;> simp [inside?, given, reads, stored, binds]

/-- The contents of a carried out element are expanded in some scope exactly if an environment is
told for them. -/
theorem rounds_eq_nil_iff (env : Environment) (planned : plan store scope tag = .ok action) :
    action.rounds = [] ↔ inside? store env tag = none := by
  cases plan_eq_ok_iff.mp planned with
  | source given | header given | enum given named => simp [Action.rounds, inside?, given]
  | var given named bound inColumn found => simp [Action.rounds, inside?, given]
  | expand given reads stored binds =>
    simp [Action.rounds, inside?_of_expanding (.inl given) reads stored binds]
  | expandData given named reads stored binds =>
    simp [Action.rounds, inside?_of_expanding (.inr given) reads stored binds]

/-- All scopes in which the contents of a carried out element are expanded are described by the
environment told for them. -/
theorem describes_of_mem_rounds {derive : Scope → Scope}
    (resolved : ∀ table ∈ store.toList, table.Resolved) (describes : env.Describes scope)
    (planned : plan store scope tag = .ok action) (opened : inside? store env tag = some inner)
    (member : derive ∈ action.rounds) : inner.Describes (derive scope) := by
  cases plan_eq_ok_iff.mp planned with
  | source given | header given | enum given named =>
    simp only [inside?, given, Option.some.injEq] at opened
    subst opened
    obtain rfl := List.mem_singleton.mp member
    exact describes.of_lookup_eq fun name => rfl
  | var given named bound inColumn found => simp [inside?, given] at opened
  | @expand tableName binder table given reads stored binds =>
    obtain ⟨row, inTable, rfl⟩ := List.mem_map.mp member
    rw [inside?_of_expanding (.inl given) reads stored binds] at opened
    obtain ⟨-, same⟩ := Option.ite_none_left_eq_some.mp opened
    obtain rfl := Option.some.inj same
    exact describes.bind table.name
      (resolved table (Registry.mem_of_get?_eq_some stored) row inTable)
  | @expandData name tableName binder table given named reads stored binds =>
    obtain ⟨row, inTable, rfl⟩ := List.mem_map.mp member
    rw [inside?_of_expanding (.inr given) reads stored binds] at opened
    obtain ⟨-, same⟩ := Option.ite_none_left_eq_some.mp opened
    obtain rfl := Option.some.inj same
    -- Other streams and another separator leave the variables as they are.
    have outside : env.Describes (scope.onlySource.withSeparator itemSeparator) :=
      describes.of_lookup_eq fun name => rfl
    exact outside.bind table.name
      (resolved table (Registry.mem_of_get?_eq_some stored) row inTable)

end Template

end Stencil
