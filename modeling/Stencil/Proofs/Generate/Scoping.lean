import Stencil.Proofs.Generate.Quoted
import Stencil.Proofs.Template.Environment

/-!
# When generating succeeds

Whether generating meets an error can be told from a document without expanding anything. Its tables
have to be declared as they should, and its template has to be well scoped: every element is a
directive with the attributes it needs, and refers to tables, variables and columns that there are.
What stands below a `var` element does not matter, nor does the body of an expansion over a table
without rows, as neither is ever expanded. Neither does a transform that does not exist.

## Main definitions

* `Template.WellScoped`: a node of a template that can be expanded without an error

## Main results

* `Template.success_yield_iff`: nodes yield no error exactly if they are well scoped
* `Generated.success_ofDocument_iff`: which documents meet no error
-/

namespace Stencil

open Markup

namespace Template

/-- The nodes that can be expanded without an error where the variables `env` are bound. An
expansion binds one more for its contents, and these matter only if the table has a row. -/
inductive WellScoped (store : Store) : Environment → Node → Prop where
  | text {env : Environment} {value : String} {line : Nat} : WellScoped store env (.text value line)
  | source {env : Environment} {tag : Tag} {children : List Node} (directive : tag.name = "source")
    (contents : ∀ child ∈ children, WellScoped store env child) :
    WellScoped store env (.element tag children)
  | header {env : Environment} {tag : Tag} {children : List Node} (directive : tag.name = "header")
    (contents : ∀ child ∈ children, WellScoped store env child) :
    WellScoped store env (.element tag children)
  | enum {env : Environment} {tag : Tag} {children : List Node} {name : String}
    (directive : tag.name = "enum") (named : tag.attribute? "name" = some name)
    (contents : ∀ child ∈ children, WellScoped store env child) :
    WellScoped store env (.element tag children)
  | expand {env : Environment} {tag : Tag} {children : List Node} {tableName binder : String}
    {table : Table} (directive : tag.name = "expand")
    (reads : tag.attribute? "table" = some tableName) (stored : store.get? tableName = some table)
    (binds : tag.attribute? "var" = some binder)
    (contents : table.rows ≠ [] →
      ∀ child ∈ children, WellScoped store ((binder, table) :: env) child) :
    WellScoped store env (.element tag children)
  | expandData {env : Environment} {tag : Tag} {children : List Node}
    {name tableName binder : String} {table : Table} (directive : tag.name = "expand_data")
    (named : tag.attribute? "name" = some name)
    (reads : tag.attribute? "table" = some tableName) (stored : store.get? tableName = some table)
    (binds : tag.attribute? "var" = some binder)
    (contents : table.rows ≠ [] →
      ∀ child ∈ children, WellScoped store ((binder, table) :: env) child) :
    WellScoped store env (.element tag children)
  | var {env : Environment} {tag : Tag} {children : List Node} {name column : String}
    {table : Table} (directive : tag.name = "var") (named : tag.attribute? "name" = some name)
    (bound : env.lookup name = some table) (inColumn : tag.attribute? "col" = some column)
    (has : table.columns.contains column = true) :
    WellScoped store env (.element tag children)

variable {file : String} {store : Store} {env : Environment} {scope : Scope} {tag : Tag}
  {nodes children : List Node}

/-- A well scoped element can be carried out, and what is expanded of its contents is well scoped
too. -/
theorem exists_planned_of_wellScoped (describes : env.Describes scope)
    (wellScoped : WellScoped store env (.element tag children)) :
    ∃ action, Planned store scope tag action ∧ ∀ inner, inside? store env tag = some inner →
      ∀ child ∈ children, WellScoped store inner child := by
  cases wellScoped with
  | source directive contents =>
    have known : Directive.ofTag? tag.name = some .source :=
      Directive.ofTag?_eq_some_iff.mpr directive
    exact ⟨_, .source known, by simpa [inside?, known] using contents⟩
  | header directive contents =>
    have known : Directive.ofTag? tag.name = some .header :=
      Directive.ofTag?_eq_some_iff.mpr directive
    exact ⟨_, .header known, by simpa [inside?, known] using contents⟩
  | enum directive named contents =>
    have known : Directive.ofTag? tag.name = some .enum :=
      Directive.ofTag?_eq_some_iff.mpr directive
    exact ⟨_, .enum known named, by simpa [inside?, known] using contents⟩
  | expand directive reads stored binds contents =>
    have known : Directive.ofTag? tag.name = some .expand :=
      Directive.ofTag?_eq_some_iff.mpr directive
    refine ⟨_, .expand known reads stored binds, ?_⟩
    simpa [inside?_of_expanding (.inl known) reads stored binds] using contents
  | expandData directive named reads stored binds contents =>
    have known : Directive.ofTag? tag.name = some .expandData :=
      Directive.ofTag?_eq_some_iff.mpr directive
    refine ⟨_, .expandData known named reads stored binds, ?_⟩
    simpa [inside?_of_expanding (.inr known) reads stored binds] using contents
  | var directive named bound inColumn has =>
    have known : Directive.ofTag? tag.name = some .var :=
      Directive.ofTag?_eq_some_iff.mpr directive
    obtain ⟨binding, held, value, found⟩ := describes.exists_value_iff.mpr ⟨_, bound, has⟩
    exact ⟨_, .var known named held inColumn found, by simp [inside?, known]⟩

/-- An element that can be carried out is well scoped if what is expanded of its contents is. -/
theorem wellScoped_of_planned {action : Action} (describes : env.Describes scope)
    (planned : Planned store scope tag action)
    (contents : ∀ inner, inside? store env tag = some inner →
      ∀ child ∈ children, WellScoped store inner child) :
    WellScoped store env (.element tag children) := by
  cases planned with
  | source known =>
    refine .source (Directive.ofTag?_eq_some_iff.mp known) ?_
    simpa [inside?, known] using contents
  | header known =>
    refine .header (Directive.ofTag?_eq_some_iff.mp known) ?_
    simpa [inside?, known] using contents
  | enum known named =>
    refine .enum (Directive.ofTag?_eq_some_iff.mp known) named ?_
    simpa [inside?, known] using contents
  | expand known reads stored binds =>
    refine .expand (Directive.ofTag?_eq_some_iff.mp known) reads stored binds ?_
    simpa [inside?_of_expanding (.inl known) reads stored binds] using contents
  | expandData known named reads stored binds =>
    refine .expandData (Directive.ofTag?_eq_some_iff.mp known) named reads stored binds ?_
    simpa [inside?_of_expanding (.inr known) reads stored binds] using contents
  | var known named held inColumn found =>
    obtain ⟨table, bound, has⟩ := describes.exists_value_iff.mp ⟨_, held, _, found⟩
    exact .var (Directive.ofTag?_eq_some_iff.mp known) named bound inColumn has

theorem success_yield_iff_forall :
    (yield file store scope nodes).success = true ↔
      ∀ node ∈ nodes, (yieldNode file store scope node).success = true := by
  rw [yield_eq_intersperse, Generated.success_intersperse Generated.success_empty,
    List.forall_mem_map]

/-- A node yields no error exactly if it is well scoped. -/
theorem success_yieldNode_iff (resolved : ∀ table ∈ store.toList, table.Resolved) (node : Node)
    (describes : env.Describes scope) :
    (yieldNode file store scope node).success = true ↔ WellScoped store env node := by
  -- The environment is that of any scope it describes, so the induction is for all of both.
  induction node generalizing env scope with
  | text value line =>
    simp only [yieldNode_text, Action.success_written, true_iff]
    exact .text
  | element tag children ih =>
    cases planned : plan store scope tag with
    | error problem =>
      have fails : (yieldNode file store scope (.element tag children)).success = false := by
        rw [yieldNode_of_lacking planned]
        simp [Generated.success, Generated.ofProblem, failsOnly_plan problem planned]
      rw [fails, Bool.false_eq_true, false_iff]
      intro wellScoped
      obtain ⟨action, possible, -⟩ := exists_planned_of_wellScoped describes wellScoped
      rw [← plan_eq_ok_iff, planned] at possible
      simp at possible
    | ok action =>
      have possible := plan_eq_ok_iff.mp planned
      rw [yieldNode_of_planned planned, Action.success_fill]
      constructor
      · intro succeeds
        refine wellScoped_of_planned describes possible fun inner opened child member => ?_
        -- An environment is told for the contents, so there is a round to look at.
        have expanded : action.rounds ≠ [] := by
          rw [ne_eq, rounds_eq_nil_iff env planned, opened]
          simp
        obtain ⟨derive, inRounds⟩ := List.exists_mem_of_ne_nil _ expanded
        have inside := describes_of_mem_rounds resolved describes planned opened inRounds
        exact (ih child member inside).mp
          (success_yield_iff_forall.mp (succeeds derive inRounds) child member)
      · intro wellScoped derive inRounds
        obtain ⟨_, -, contents⟩ := exists_planned_of_wellScoped describes wellScoped
        cases opened : inside? store env tag with
        | none => simp [(rounds_eq_nil_iff env planned).mpr opened] at inRounds
        | some inner =>
          have inside := describes_of_mem_rounds resolved describes planned opened inRounds
          exact success_yield_iff_forall.mpr fun child member =>
            (ih child member inside).mpr (contents inner opened child member)

/-- Nodes yield no error exactly if they are well scoped. -/
theorem success_yield_iff (resolved : ∀ table ∈ store.toList, table.Resolved)
    (describes : env.Describes scope) :
    (yield file store scope nodes).success = true ↔ ∀ node ∈ nodes, WellScoped store env node := by
  rw [success_yield_iff_forall]
  exact forall₂_congr fun node _ => success_yieldNode_iff resolved node describes

end Template

/-- Reading the tables of a document meets no error exactly if there is a section of tables, the
tables have different names, and their columns are declared as they should. -/
theorem Store.isSuccess_load_iff {file : String} {root : Element} :
    (load file root).2.isSuccess = true ↔ ∃ tables, root.element? "tables" = some tables ∧
      (tables.elements.map Element.name).Nodup ∧ ∀ e ∈ tables.elements, e.DeclaresColumns := by
  cases found : root.element? "tables" with
  | none => simp [load, found, Problem.severity]
  | some tables =>
    simp [load, found, isSuccess_loadTables_iff, Registry.accepts_empty_iff, and_comm]

/-- **Scoping is sound and complete.** Generating meets no error in a document exactly if it has a
section of tables and a template, the tables have different names, their columns have names that
differ within each table, and the template is well scoped where nothing is bound. A transform that
does not exist is never what makes it fail. -/
theorem Generated.success_ofDocument_iff (file : String) (root : Element) :
    ((ofDocument file root).success = true ↔
      ∃ tables template, root.element? "tables" = some tables ∧
        root.element? "gen" = some template ∧
        (tables.elements.map Element.name).Nodup ∧
        (∀ e ∈ tables.elements, e.DeclaresColumns) ∧
        ∀ node ∈ template.children, Template.WellScoped (Store.load file root).1 [] node) ∧
      ∀ d ∈ (ofDocument file root).diagnostics, d.kind = .unknownTransform →
        d.isError = false := by
  constructor
  · -- Loading and expanding report apart, and the store is there even if loading met an error.
    cases found : root.element? "gen" with
    | none => simp [ofDocument, found, success, Diagnostics.isSuccess_append, Problem.severity]
    | some template =>
      have resolved : ∀ table ∈ (Store.load file root).1.toList, table.Resolved :=
        fun _ => Store.resolved_of_mem_load
      have expanded : (Template.run file (Store.load file root).1 template).success = true ↔
          ∀ node ∈ template.children, Template.WellScoped (Store.load file root).1 [] node := by
        rw [Template.run_eq_yield]
        exact Template.success_yield_iff resolved Environment.Describes.empty
      have both : (ofDocument file root).success = true ↔
          (Store.load file root).2.isSuccess = true ∧
            (Template.run file (Store.load file root).1 template).success = true := by
        simp [ofDocument, found, success, Diagnostics.isSuccess_append]
      rw [both, expanded, Store.isSuccess_load_iff]
      constructor
      · rintro ⟨⟨tables, hasTables, differ, declared⟩, wellScoped⟩
        exact ⟨tables, template, hasTables, rfl, differ, declared, wellScoped⟩
      · rintro ⟨tables, other, hasTables, same, differ, declared, wellScoped⟩
        obtain rfl := Option.some.inj same
        exact ⟨⟨tables, hasTables, differ, declared⟩, wellScoped⟩
  · -- Of all problems, one alone has this kind, and it is a warning.
    intro d reported isUnknown
    obtain ⟨problem, line, rfl⟩ := fromProblems_ofDocument file root d reported
    cases problem <;> simp_all [Problem.reportAt, Problem.report, Problem.kind, Problem.severity,
      Diagnostic.isError]

namespace Sample

/-- A document whose template asks for a transform that does not exist, and holds elements that are
never looked at: below a `var` element, and in an expansion over a table without rows. -/
def labels : Element :=
  ⟨⟨"root", [], 1⟩,
    [.element ⟨"tables", [], 1⟩
      [.element ⟨"Label", [], 2⟩
        [.element ⟨"col", [("name", "text")], 3⟩ [], .element ⟨"row", [("text", "on")], 4⟩ []],
       .element ⟨"Unused", [], 5⟩ []],
     .element ⟨"gen", [], 6⟩
      [.element ⟨"expand", [("table", "Label"), ("var", "l")], 7⟩
        [.element ⟨"var", [("name", "l"), ("col", "text"), ("transform", "upper")], 8⟩
          [.element ⟨"nothing", [], 8⟩ []]],
       .element ⟨"expand", [("table", "Unused"), ("var", "u")], 9⟩
        [.element ⟨"nothing", [], 9⟩ []]]]⟩

end Sample

theorem Generated.success_ofDocument_labels :
    (ofDocument "a.xml" Sample.labels).success = true ∧
      ∃ d ∈ (ofDocument "a.xml" Sample.labels).diagnostics,
        d.kind = .unknownTransform ∧ d.isError = false := by
  obtain ⟨complete, harmless⟩ := success_ofDocument_iff "a.xml" Sample.labels
  constructor
  · refine complete.mpr ⟨_, _, rfl, rfl, by decide, by decide,
      List.forall_mem_cons.mpr ⟨?_, List.forall_mem_singleton.mpr ?_⟩⟩
    · exact .expand rfl rfl rfl rfl fun _ =>
        List.forall_mem_singleton.mpr (.var rfl rfl rfl rfl rfl)
    · exact .expand rfl rfl rfl rfl fun hasRow => absurd rfl hasRow
  · have reported : (Problem.noSuchTransform "upper").reportAt "a.xml" 8 ∈
        (ofDocument "a.xml" Sample.labels).diagnostics := by decide
    exact ⟨_, reported, rfl, harmless _ reported rfl⟩

end Stencil
