import Stencil.Proofs.Except
import Stencil.Proofs.Template.Yield

/-!
# What a directive needs

The plan of an element looks at the scope in one case only: a `var` element refers to a variable.
An expansion binds one. This file says which, what plans have to do with it, and in which scopes the
contents of a planned element are expanded.

## Main definitions

* `Markup.Tag.RefersTo`: the element writes a value of the variable
* `Markup.Tag.binder?`: the variable that an element binds for its contents

## Main results

* `Template.plan_correspondsUnless`: plans correspond if the steps do that look at the store and the
  scope
* `Template.plan_congr`: a plan depends on the scope by what the element refers to
* `Template.binder?_of_planned`: a planned element binds what its tag says
* `Template.failsOnly_plan`: an element that lacks something is an error
* `Action.lookup_of_mem_rounds`: contents see the variables around them, and the one bound
-/

namespace Stencil

open Markup

namespace Markup.Tag

/-- The element writes a value of the variable `name`. -/
def RefersTo (tag : Tag) (name : String) : Prop :=
  Directive.ofTag? tag.name = some .var ∧ tag.attribute? "name" = some name

instance (tag : Tag) (name : String) : Decidable (tag.RefersTo name) :=
  inferInstanceAs (Decidable (_ ∧ _))

/-- The variable that an element binds for its contents. -/
def binder? (tag : Tag) : Option String :=
  match Directive.ofTag? tag.name with
  | some .expand | some .expandData => tag.attribute? "var"
  | _ => none

/-- The transform that an element asks for, if there is one of that name. -/
def transform? (tag : Tag) : Option Transform :=
  (tag.attribute? "transform").bind Transform.ofName?

/-- The name of a transform that an element asks for and that does not exist. -/
def unknownTransform? (tag : Tag) : Option String :=
  match tag.transform? with
  | some _ => none
  | none => tag.attribute? "transform"

/-- A value as an element writes it: as it is, if the element asks for no transform or for one that
does not exist. -/
def transformed (tag : Tag) (value : String) : String :=
  match tag.transform? with
  | some transform => transform.apply value
  | none => value

end Markup.Tag

namespace Action

variable {action : Action} {derive : Scope → Scope}

/-- The variable that an action binds for its contents. -/
def binder? : Action → Option String
  | repeatRows _ name => some name
  | array _ _ binder => some binder
  | retarget _ | writeValue _ _ | enumeration _ => none

/-- In every round of an action, its contents see the variables around the action, except that the
variable bound by the action stands for something else. -/
theorem lookup_of_mem_rounds (member : derive ∈ action.rounds) :
    ∃ bound : Option Binding, ∀ (scope : Scope) (name : String),
      (derive scope).lookup name =
        if action.binder? = some name then bound else scope.lookup name := by
  cases action with
  | retarget target =>
    obtain rfl := List.mem_singleton.mp member
    exact ⟨none, fun scope name => rfl⟩
  | writeValue value unknown => simp [rounds] at member
  | enumeration name =>
    obtain rfl := List.mem_singleton.mp member
    exact ⟨none, fun scope name => rfl⟩
  | repeatRows table binder =>
    obtain ⟨row, -, rfl⟩ := List.mem_map.mp member
    exact ⟨some ⟨table.name, row⟩, fun scope name => by simp [Scope.lookup_bind, binder?]⟩
  | array array table binder =>
    obtain ⟨row, -, rfl⟩ := List.mem_map.mp member
    exact ⟨some ⟨table.name, row⟩, fun scope name => by simp [Scope.lookup_bind, binder?]⟩

variable {file : String} {line : Nat} {scope : Scope} {contents contents' : Scope → Generated}

theorem fill_congr
    (same : ∀ derive ∈ action.rounds, contents (derive scope) = contents' (derive scope)) :
    action.fill file line scope contents = action.fill file line scope contents' := by
  rw [fill, fill, List.map_congr_left same]

/-! ### Errors -/

theorem success_written (scope : Scope) (text : String) : (scope.written text).success = true := rfl

theorem success_before : (action.before file line scope).success = true := by
  cases action with
  | retarget target | repeatRows table name | enumeration name | array name table binder => rfl
  | writeValue value unknown => cases unknown <;> rfl

theorem success_between : (action.between scope).success = true := by
  cases action <;> rfl

theorem success_after : (action.after scope).success = true := by
  cases action <;> rfl

/-- Errors are never of the action itself: it succeeds if its contents do in every round. -/
theorem success_fill :
    (action.fill file line scope contents).success = true ↔
      ∀ derive ∈ action.rounds, (contents (derive scope)).success = true := by
  simp [fill, success_before, success_after, Generated.success_intersperse success_between]

theorem withoutErrors_fill :
    (action.fill file line scope contents).withoutErrors =
      action.fill file line scope fun inside => (contents inside).withoutErrors := by
  simp only [fill, Generated.withoutErrors_append, Generated.withoutErrors_intersperse,
    Generated.withoutErrors_of_success success_before,
    Generated.withoutErrors_of_success success_between,
    Generated.withoutErrors_of_success success_after, List.map_map, Function.comp_def]

end Action

namespace Template

variable {store : Store} {σ τ scope : Scope} {tag : Tag} {action : Action} {problem : Problem}
  {key value : String} {table : Table}

theorem require_eq_ok_iff : require tag key = .ok value ↔ tag.attribute? key = some value := by
  unfold require
  split <;> simp_all

theorem requireTable_eq_ok_iff :
    requireTable store tag = .ok table ↔
      ∃ name, tag.attribute? "table" = some name ∧ store.get? name = some table := by
  simp only [requireTable, bind_eq_ok_iff, require_eq_ok_iff]
  refine exists_congr fun name => and_congr_right fun _ => ?_
  cases store.get? name <;> simp

/-- The elements that can be carried out in a scope, and what they are about to do. -/
inductive Planned (store : Store) (scope : Scope) (tag : Tag) : Action → Prop where
  | source (directive : Directive.ofTag? tag.name = some .source) :
    Planned store scope tag (.retarget .sourceOnly)
  | header (directive : Directive.ofTag? tag.name = some .header) :
    Planned store scope tag (.retarget .headerOnly)
  | enum {name : String} (directive : Directive.ofTag? tag.name = some .enum)
    (named : tag.attribute? "name" = some name) :
    Planned store scope tag (.enumeration name)
  | expand {tableName binder : String} {table : Table}
    (directive : Directive.ofTag? tag.name = some .expand)
    (reads : tag.attribute? "table" = some tableName) (stored : store.get? tableName = some table)
    (binds : tag.attribute? "var" = some binder) :
    Planned store scope tag (.repeatRows table binder)
  | expandData {name tableName binder : String} {table : Table}
    (directive : Directive.ofTag? tag.name = some .expandData)
    (named : tag.attribute? "name" = some name)
    (reads : tag.attribute? "table" = some tableName) (stored : store.get? tableName = some table)
    (binds : tag.attribute? "var" = some binder) :
    Planned store scope tag (.array name table binder)
  | var {name column value : String} {binding : Binding}
    (directive : Directive.ofTag? tag.name = some .var)
    (named : tag.attribute? "name" = some name) (bound : scope.lookup name = some binding)
    (inColumn : tag.attribute? "col" = some column)
    (found : binding.row.get? column = some value) :
    Planned store scope tag (.writeValue (tag.transformed value) tag.unknownTransform?)

theorem planValue_eq_ok_iff :
    planValue scope tag = .ok action ↔
      ∃ name, tag.attribute? "name" = some name ∧ ∃ binding, scope.lookup name = some binding ∧
        ∃ column, tag.attribute? "col" = some column ∧
          ∃ value, binding.row.get? column = some value ∧
            .writeValue (tag.transformed value) tag.unknownTransform? = action := by
  simp only [planValue, bind_eq_ok_iff, require_eq_ok_iff]
  refine exists_congr fun name => and_congr_right fun _ => ?_
  cases scope.lookup name with
  | none => simp
  | some binding =>
    simp only [bind_eq_ok_iff, require_eq_ok_iff, Option.some.injEq, exists_eq_left']
    refine exists_congr fun column => and_congr_right fun _ => ?_
    cases binding.row.get? column with
    | none => simp
    | some value =>
      simp only [Option.some.injEq, exists_eq_left', Tag.transformed, Tag.unknownTransform?,
        Tag.transform?]
      cases tag.attribute? "transform" with
      | none => simp
      | some transform =>
        simp only [Option.bind_some]
        cases Transform.ofName? transform <;> simp

theorem plan_eq_ok_iff : plan store scope tag = .ok action ↔ Planned store scope tag action := by
  constructor
  · intro planned
    unfold plan at planned
    split at planned
    case h_1 => simp at planned
    case h_2 directive =>
      obtain rfl := Except.ok.inj planned
      exact .source directive
    case h_3 directive =>
      obtain rfl := Except.ok.inj planned
      exact .header directive
    case h_4 directive =>
      simp only [bind_eq_ok_iff, requireTable_eq_ok_iff, require_eq_ok_iff] at planned
      obtain ⟨table, ⟨tableName, reads, stored⟩, binder, binds, done⟩ := planned
      obtain rfl := Except.ok.inj done
      exact .expand directive reads stored binds
    case h_5 directive =>
      obtain ⟨name, named, binding, bound, column, inColumn, value, found, rfl⟩ :=
        planValue_eq_ok_iff.mp planned
      exact .var directive named bound inColumn found
    case h_6 directive =>
      simp only [bind_eq_ok_iff, require_eq_ok_iff] at planned
      obtain ⟨name, named, done⟩ := planned
      obtain rfl := Except.ok.inj done
      exact .enum directive named
    case h_7 directive =>
      simp only [bind_eq_ok_iff, requireTable_eq_ok_iff, require_eq_ok_iff] at planned
      obtain ⟨name, named, table, ⟨tableName, reads, stored⟩, binder, binds, done⟩ := planned
      obtain rfl := Except.ok.inj done
      exact .expandData directive named reads stored binds
  · intro planned
    cases planned with
    | source directive | header directive => simp only [plan, directive]
    | enum directive named =>
      simp only [plan, directive, bind_eq_ok_iff, require_eq_ok_iff]
      exact ⟨_, named, rfl⟩
    | expand directive reads stored binds =>
      simp only [plan, directive, bind_eq_ok_iff, requireTable_eq_ok_iff, require_eq_ok_iff]
      exact ⟨_, ⟨_, reads, stored⟩, _, binds, rfl⟩
    | expandData directive named reads stored binds =>
      simp only [plan, directive, bind_eq_ok_iff, requireTable_eq_ok_iff, require_eq_ok_iff]
      exact ⟨_, named, _, ⟨_, reads, stored⟩, _, binds, rfl⟩
    | var directive named bound inColumn found =>
      simp only [plan, directive, planValue_eq_ok_iff]
      exact ⟨_, named, _, bound, _, inColumn, _, found, rfl⟩

/-- Plans correspond if the two steps do that look at the store and at the scope: which table is
expanded, and which value is written. What is made of related tables has to be related, and what
depends on the tag alone to itself. -/
theorem plan_correspondsUnless {store' : Store} {excused : Problem → Prop}
    {Tables : Table → Table → Prop} {Actions : Action → Action → Prop}
    (tables : CorrespondsUnless excused Tables (requireTable store tag) (requireTable store' tag))
    (values : CorrespondsUnless excused Actions (planValue σ tag) (planValue τ tag))
    (retarget : ∀ target, Actions (.retarget target) (.retarget target))
    (enumeration : ∀ name, Actions (.enumeration name) (.enumeration name))
    (repeatRows : ∀ table table' name, Tables table table' →
      Actions (.repeatRows table name) (.repeatRows table' name))
    (array : ∀ name table table' binder, Tables table table' →
      Actions (.array name table binder) (.array name table' binder)) :
    CorrespondsUnless excused Actions (plan store σ tag) (plan store' τ tag) := by
  have same (key : String) : CorrespondsUnless excused Eq (require tag key) (require tag key) :=
    .refl (fun _ => rfl) _
  cases directive : Directive.ofTag? tag.name with
  | none =>
    simp only [plan, directive]
    exact .error _
  | some known =>
    cases known with
    | source | header =>
      simp only [plan, directive]
      exact .ok (retarget _)
    | var => simpa only [plan, directive] using values
    | enum =>
      simp only [plan, directive]
      refine (same "name").bind ?_
      rintro name _ rfl
      exact .ok (enumeration name)
    | expand =>
      simp only [plan, directive]
      refine tables.bind fun table table' related => ?_
      refine (same "var").bind ?_
      rintro binder _ rfl
      exact .ok (repeatRows table table' binder related)
    | expandData =>
      simp only [plan, directive]
      refine (same "name").bind ?_
      rintro name _ rfl
      refine tables.bind fun table table' related => ?_
      refine (same "var").bind ?_
      rintro binder _ rfl
      exact .ok (array name table table' binder related)

/-- A plan depends on the scope by what the element refers to. -/
theorem plan_congr
    (same : ∀ name, tag.RefersTo name → σ.lookup name = τ.lookup name) :
    plan store σ tag = plan store τ tag := by
  -- Among the directives, `var` is the only one that looks a variable up.
  cases directive : Directive.ofTag? tag.name with
  | none => simp only [plan, directive]
  | some known =>
    cases known with
    | var =>
      simp only [plan, directive, planValue, require]
      cases named : tag.attribute? "name" with
      | none => rfl
      | some name =>
        have sameBinding := same name ⟨directive, named⟩
        simp only [bind, Except.bind, sameBinding]
    | source | header | expand | enum | expandData => simp only [plan, directive]

/-- No plan looks at which streams are written. -/
theorem plan_withTarget (scope : Scope) (target : Target) :
    plan store (scope.withTarget target) tag = plan store scope tag :=
  plan_congr fun _ _ => rfl

theorem binder?_of_planned (planned : plan store scope tag = .ok action) :
    action.binder? = tag.binder? := by
  cases plan_eq_ok_iff.mp planned <;> simp_all [Action.binder?, Tag.binder?]

theorem failsOnly_require : FailsOnly (·.severity = .error) (require tag key) := by
  unfold require
  split
  · exact .ok _
  · exact .error rfl

theorem failsOnly_requireTable : FailsOnly (·.severity = .error) (requireTable store tag) := by
  refine failsOnly_require.bind fun name => ?_
  split
  · exact .ok _
  · exact .error rfl

theorem failsOnly_planValue : FailsOnly (·.severity = .error) (planValue scope tag) := by
  refine failsOnly_require.bind fun name => ?_
  split
  · exact .error rfl
  · refine failsOnly_require.bind fun column => ?_
    split
    · exact .error rfl
    · split
      · exact .ok _
      · split <;> exact .ok _

/-- What an element may lack makes it an error. -/
theorem failsOnly_plan : FailsOnly (·.severity = .error) (plan store scope tag) := by
  unfold plan
  split
  case h_1 => exact .error rfl
  case h_2 | h_3 => exact .ok _
  case h_4 =>
    exact failsOnly_requireTable.bind fun table => failsOnly_require.bind fun name => .ok _
  case h_5 => exact failsOnly_planValue
  case h_6 => exact failsOnly_require.bind fun name => .ok _
  case h_7 =>
    exact failsOnly_require.bind fun name => failsOnly_requireTable.bind fun table =>
      failsOnly_require.bind fun binder => .ok _

end Template

end Stencil
